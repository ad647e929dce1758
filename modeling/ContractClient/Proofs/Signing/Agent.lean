import ContractClient.Proofs.Activity.Call
import ContractClient.Proofs.Transaction.Envelope
import ContractClient.Signing.Signer

/-!
# Replies of a signing agent

A signer that leaves signing to an agent asks it once for each digest, and does not trust its reply.
`Signer.Contained` says what should come of any reply: a signature of the account, a failure that
blames the agent, or a failure of the agent's own. This holds of every reply but those that derail
the checks (`Signer.Derails`): numbers that pass for a signature although no point of the curve has
the first of them as its abscissa, and a recovery id that no message can show
(`Signer.signDigest_contained_unless_derailed`).
-/

namespace ContractClient

/-- A question to an agent, and the reply if there was one. -/
structure AgentCall where
  digest : Bytes
  reply : Option (Outcome Value)

/-- How a question ends that is not left open: to cancel it is to let it fail. -/
def Reply.outcome : Reply (Outcome Value) → Outcome Value
  | answer outcome => outcome
  | _ => .error .cancelled

/-- The question to an agent that a label shows. -/
def Label.agentCall? : Label → Option AgentCall
  | asked (.sign digest) _ _ reply => some ⟨digest, some (Reply.outcome reply)⟩
  | unanswered (.sign digest) _ => some ⟨digest, none⟩
  | _ => none

/-- What an agent was asked, in order. -/
def agentCalls (labels : List Label) : List AgentCall :=
  labels.filterMap Label.agentCall?

theorem agentCalls_append (before after : List Label) :
    agentCalls (before ++ after) = agentCalls before ++ agentCalls after :=
  List.filterMap_append

namespace Signature

variable {r s recoveryId : Int}

theorem toNat_cast_of_inRange (inside : inRange r = true) : (r.toNat : Int) = r := by
  simp only [inRange, Bool.and_eq_true, decide_eq_true_eq] at inside
  omega

theorem create_of_outside (outside : ¬(inRange r = true ∧ inRange s = true)) :
    create (.int r) (.int s) (.int recoveryId) = Outcome.fault outOfRange := by
  cases first : inRange r with
  | false => simp [create, partOf, first]
  | true =>
      have second : inRange s = false := by simpa [first] using outside
      simp [create, partOf, second]

theorem create_of_inside (first : inRange r = true) (second : inRange s = true)
    (parity : recoveryId = 0 ∨ recoveryId = 1) :
    create (.int r) (.int s) (.int recoveryId) =
      .ok { r := r.toNat, s := s.toNat, recoveryId := recoveryId.toNat } := by
  rcases parity with rfl | rfl <;>
    simp [create, partOf, first, second, Value.equalsInt, isFloat, isFlag]

/-- The failure of a recovery id that is no parity shows it. -/
theorem create_of_noParity (first : inRange r = true) (second : inRange s = true)
    (noParity : ¬(recoveryId = 0 ∨ recoveryId = 1)) :
    create (.int r) (.int s) (.int recoveryId) =
      if (Value.int recoveryId).isShowable then
        Outcome.fault (.signer ("Invalid recovery id: " ++ (Value.int recoveryId).display))
      else Outcome.condition .badValue := by
  rcases not_or.mp noParity with ⟨notZero, notOne⟩
  cases shown : (Value.int recoveryId).isShowable <;>
    simp [create, partOf, first, second, Value.equalsInt, notZero, notOne, Value.displayed, shown]

variable {signature : Signature} {digest : Bytes}

/-- From numbers in range a key is recovered if the first one is the abscissa of a point. -/
theorem recoverAddress_cases (valid : signature.IsValid) (numeric : signature.isNumeric = true) :
    (Secp256k1.lift? signature.r signature.recoveryId = none ∧
        signature.recoverAddress digest = Outcome.condition .badSignature) ∨
      (Secp256k1.lift? signature.r signature.recoveryId ≠ none ∧
        ∃ found, signature.recoverAddress digest = .ok found) := by
  have firstRemains : signature.r % Secp256k1.groupOrder ≠ 0 := by
    rw [Nat.mod_eq_of_lt valid.r_lt]
    exact Nat.ne_of_gt valid.r_pos
  have secondRemains : signature.s % Secp256k1.groupOrder ≠ 0 := by
    rw [Nat.mod_eq_of_lt valid.s_lt]
    exact Nat.ne_of_gt valid.s_pos
  simp only [recoverAddress, recover?, numeric, if_true, Secp256k1.recover?, firstRemains,
    secondRemains, or_self, if_false]
  cases Secp256k1.lift? signature.r signature.recoveryId with
  | none => exact Or.inl ⟨rfl, rfl⟩
  | some point => exact Or.inr ⟨Option.some_ne_none point, _, rfl⟩

end Signature

namespace Signer

variable {address : Address} {unavailable : List FailureClass} {digest : Bytes}
  {reply : Outcome Value} {outcome : Outcome Signature}

/-- What should come of a reply: nothing but signatures of the account, failures that blame the
agent for its reply or for having none, and failures of the agent that nobody listed. -/
inductive Contained (address : Address) (unavailable : List FailureClass) (digest : Bytes) :
    Outcome Value → Outcome Signature → Prop where
  | signed {reply : Value} {signature : Signature}
      (parts : partsOfReply reply =
        some (.int signature.r, .int signature.s, .int signature.recoveryId))
      (valid : signature.IsValid) (own : signature.recoverAddress digest = .ok address) :
      Contained address unavailable digest (.ok reply) (.ok signature)
  | unanswered {fault : Fault} (kind : fault.kind = .signerUnavailable) :
      Contained address unavailable digest (.ok .null) (Outcome.fault fault)
  | refused {reply : Value} {fault : Fault} (given : reply ≠ .null) (kind : fault.kind = .signer) :
      Contained address unavailable digest (.ok reply) (Outcome.fault fault)
  | unreachable {failure : Failure} {fault : Fault}
      (listed : unavailable.any failure.belongsTo = true) (kind : fault.kind = .signerUnavailable) :
      Contained address unavailable digest (.error failure) (Outcome.fault fault)
  | passedOn {failure : Failure} (unlisted : unavailable.any failure.belongsTo = false) :
      Contained address unavailable digest (.error failure) (.error failure)

/-- The numbers in a reply pass for both parts of a signature. -/
structure Numbers (reply : Value) (r s recoveryId : Int) : Prop where
  parts : partsOfReply reply = some (.int r, .int s, .int recoveryId)
  first : Signature.inRange r = true
  second : Signature.inRange s = true

/-- A reply that the checks of a signer stop at with a condition, instead of refusing it. -/
inductive Derails : Outcome Value → Condition → Prop where
  /-- No point of the curve has the first part of the signature as its abscissa. -/
  | offCurve {reply : Value} {r s recoveryId : Int} (numbers : Numbers reply r s recoveryId)
      (parity : recoveryId = 0 ∨ recoveryId = 1)
      (off : Secp256k1.lift? r.toNat recoveryId.toNat = none) : Derails (.ok reply) .badSignature
  /-- The recovery id is no parity, and too long for the message that is to show it. -/
  | unshowable {reply : Value} {r s recoveryId : Int} (numbers : Numbers reply r s recoveryId)
      (noParity : ¬(recoveryId = 0 ∨ recoveryId = 1))
      (long : (Value.int recoveryId).isShowable = false) : Derails (.ok reply) .badValue

/-- How a signer concludes from a reply. -/
inductive Concludes (address : Address) (unavailable : List FailureClass) (digest : Bytes)
    (reply : Outcome Value) : Outcome Signature → Prop where
  | contained {outcome : Outcome Signature} (sound : ∀ met, ¬Derails reply met)
      (contained : Contained address unavailable digest reply outcome) :
      Concludes address unavailable digest reply outcome
  | derailed {met : Condition} (derails : Derails reply met) :
      Concludes address unavailable digest reply (Outcome.condition met)

/-- What stops at a condition is not contained. -/
theorem not_contained_condition {reply : Value} {met : Condition} :
    ¬Contained address unavailable digest (.ok reply) (Outcome.condition met) := by
  intro contained
  cases contained

section Checks

variable {reply : Value} {r s recoveryId : Int} {met : Condition}

theorem partsOfReply_eq_some {first second third : Value}
    (parts : partsOfReply reply = some (first, second, third)) :
    ∃ r s recoveryId : Int, first = .int r ∧ second = .int s ∧ third = .int recoveryId := by
  unfold partsOfReply at parts
  split at parts
  · cases parts
    exact ⟨_, _, _, rfl, rfl, rfl⟩
  · cases parts
    exact ⟨_, _, _, rfl, rfl, rfl⟩
  · cases parts

/-- A reply that derails has the numbers of a signature. -/
theorem Derails.numbers (derails : Derails (.ok reply) met) :
    ∃ r s recoveryId, Numbers reply r s recoveryId := by
  cases derails with
  | offCurve numbers => exact ⟨_, _, _, numbers⟩
  | unshowable numbers => exact ⟨_, _, _, numbers⟩

theorem not_derails_null : ¬Derails (.ok .null) met := by
  intro derails
  rcases derails.numbers with ⟨_, _, _, numbers⟩
  cases numbers.parts

theorem Numbers.unique {r' s' recoveryId' : Int} (numbers : Numbers reply r s recoveryId)
    (parts : partsOfReply reply = some (.int r', .int s', .int recoveryId')) :
    r' = r ∧ s' = s ∧ recoveryId' = recoveryId := by
  have same := parts.symm.trans numbers.parts
  simp only [Option.some.injEq, Prod.mk.injEq, Value.int.injEq] at same
  exact same

/-- With a parity, numbers derail only if no point has the first of them as its abscissa. -/
theorem Derails.off (derails : Derails (.ok reply) met) (numbers : Numbers reply r s recoveryId)
    (parity : recoveryId = 0 ∨ recoveryId = 1) :
    Secp256k1.lift? r.toNat recoveryId.toNat = none := by
  cases derails with
  | offCurve others _ off =>
      rcases numbers.unique others.parts with ⟨rfl, rfl, rfl⟩
      exact off
  | unshowable others noParity =>
      rcases numbers.unique others.parts with ⟨rfl, rfl, rfl⟩
      exact absurd parity noParity

/-- Without a parity, numbers derail only if the recovery id cannot be shown. -/
theorem Derails.long (derails : Derails (.ok reply) met) (numbers : Numbers reply r s recoveryId)
    (noParity : ¬(recoveryId = 0 ∨ recoveryId = 1)) :
    (Value.int recoveryId).isShowable = false := by
  cases derails with
  | offCurve others parity =>
      rcases numbers.unique others.parts with ⟨rfl, rfl, rfl⟩
      exact absurd parity noParity
  | unshowable others _ long =>
      rcases numbers.unique others.parts with ⟨rfl, rfl, rfl⟩
      exact long

section Recovery

variable {signature : Signature} {first second third : Value}
  (parts : partsOfReply reply = some (first, second, third))
  (made : Signature.create first second third = .ok signature)

include parts made

theorem signatureOfReply_of_own (own : signature.recoverAddress digest = .ok address) :
    signatureOfReply address digest reply = .ok signature := by
  simp [signatureOfReply, parts, made, own]

theorem signatureOfReply_of_other {found : Address}
    (recovered : signature.recoverAddress digest = .ok found) (other : found ≠ address) :
    signatureOfReply address digest reply = Outcome.fault
      (.signer "Signing agent signed with a different key" .signer "" address.text) := by
  simp [signatureOfReply, parts, made, recovered, other]

theorem signatureOfReply_of_condition
    (stops : signature.recoverAddress digest = Outcome.condition met) :
    signatureOfReply address digest reply = Outcome.condition met := by
  simp [signatureOfReply, parts, made, stops]

end Recovery

/-- A signature is made of numbers with a parity, and stands if it is one of the account. -/
theorem concludes_of_parity (given : reply ≠ .null) (numbers : Numbers reply r s recoveryId)
    (parity : recoveryId = 0 ∨ recoveryId = 1) :
    Concludes address unavailable digest (.ok reply) (signatureOfReply address digest reply) := by
  have made := Signature.create_of_inside numbers.first numbers.second parity
  have valid := Signature.isValid_of_create made
  rcases Signature.recoverAddress_cases valid rfl with ⟨off, stops⟩ | ⟨on, found, recovered⟩
  · rw [signatureOfReply_of_condition numbers.parts made stops]
    exact .derailed (.offCurve numbers parity off)
  · refine .contained (fun met derails => on (derails.off numbers parity)) ?_
    by_cases own : found = address
    · subst own
      rw [signatureOfReply_of_own numbers.parts made recovered]
      refine .signed ?_ valid recovered
      simp only [numbers.parts, Signature.toNat_cast_of_inRange numbers.first,
        Signature.toNat_cast_of_inRange numbers.second,
        Int.toNat_of_nonneg (by omega : 0 ≤ recoveryId)]
    · rw [signatureOfReply_of_other numbers.parts made recovered own]
      exact .refused given rfl

/-- Numbers without a parity are refused, if the refusal can show the recovery id. -/
theorem concludes_of_noParity (given : reply ≠ .null) (numbers : Numbers reply r s recoveryId)
    (noParity : ¬(recoveryId = 0 ∨ recoveryId = 1)) :
    Concludes address unavailable digest (.ok reply) (signatureOfReply address digest reply) := by
  simp only [signatureOfReply, numbers.parts,
    Signature.create_of_noParity numbers.first numbers.second noParity]
  cases shown : (Value.int recoveryId).isShowable with
  | true =>
      refine .contained (fun met derails => ?_) (.refused given rfl)
      rw [derails.long numbers noParity] at shown
      cases shown
  | false => exact .derailed (.unshowable numbers noParity shown)

theorem concludes_signatureOfReply (given : reply ≠ .null) :
    Concludes address unavailable digest (.ok reply) (signatureOfReply address digest reply) := by
  cases parts : partsOfReply reply with
  | none =>
      have malformed : signatureOfReply address digest reply =
          Outcome.fault (malformedReply address) := by
        simp [signatureOfReply, parts]
      rw [malformed]
      refine .contained (fun met derails => ?_) (.refused given rfl)
      rcases derails.numbers with ⟨_, _, _, numbers⟩
      rw [numbers.parts] at parts
      cases parts
  | some triple =>
      obtain ⟨first, second, third⟩ := triple
      rcases partsOfReply_eq_some parts with ⟨r, s, recoveryId, rfl, rfl, rfl⟩
      by_cases inside : Signature.inRange r = true ∧ Signature.inRange s = true
      · by_cases parity : recoveryId = 0 ∨ recoveryId = 1
        · exact concludes_of_parity given ⟨parts, inside.1, inside.2⟩ parity
        · exact concludes_of_noParity given ⟨parts, inside.1, inside.2⟩ parity
      · have refused : signatureOfReply address digest reply =
            Outcome.fault Signature.outOfRange := by
          simp [signatureOfReply, parts, Signature.create_of_outside inside]
        rw [refused]
        refine .contained (fun met derails => ?_) (.refused given rfl)
        rcases derails.numbers with ⟨_, _, _, numbers⟩
        rcases numbers.unique parts with ⟨rfl, rfl, rfl⟩
        exact inside ⟨numbers.first, numbers.second⟩

end Checks

section Runs

open Activity

variable {start stop : Rat} {labels : List Label}

/-- A reply is handed on; the failure of an agent is handed on or reported. -/
inductive HandsOn (unavailable : List FailureClass) : Outcome Value → Outcome Value → Prop where
  | reply {value : Value} : HandsOn unavailable (.ok value) (.ok value)
  | unreachable {failure : Failure} {fault : Fault} (kind : fault.kind = .signerUnavailable)
      (listed : unavailable.any failure.belongsTo = true) :
      HandsOn unavailable (.error failure) (Outcome.fault fault)
  | failed {failure : Failure} (unlisted : unavailable.any failure.belongsTo = false) :
      HandsOn unavailable (.error failure) (.error failure)

theorem handsOn_of_failure {failure : Failure} {ending : Ending Value}
    (run : Run (if unavailable.any failure.belongsTo = true then do
        Activity.note .warning logger "Offline signer unavailable"
          [("address", address.toValue), ("error", .text failure.label)]
        Activity.fault (.signer ("Signing agent unavailable: " ++ failure.label)
          .signerUnavailable "" address.text)
      else Activity.fail failure) start labels ending stop) :
    agentCalls labels = [] ∧
      ∃ result, ending = .ended result ∧ HandsOn unavailable (.error failure) result := by
  cases listed : unavailable.any failure.belongsTo with
  | true =>
      rw [if_pos listed] at run
      rcases Run.emit_bind_inv run with ⟨after, last, rfl⟩
      rcases Run.done_inv last with ⟨rfl, rfl, _⟩
      exact ⟨rfl, _, rfl, .unreachable rfl listed⟩
  | false =>
      rw [if_neg (by simp [listed])] at run
      rcases Run.done_inv run with ⟨rfl, rfl, _⟩
      exact ⟨rfl, _, rfl, .failed listed⟩

/-- An agent is asked once, whether or not it can be reached. -/
theorem replyOfAgent_inv {ending : Ending Value}
    (run : Run (replyOfAgent address unavailable digest) start labels ending stop) :
    (agentCalls labels = [⟨digest, none⟩] ∧ ending = .stuck) ∨
      ∃ reply result, agentCalls labels = [⟨digest, some reply⟩] ∧ ending = .ended result ∧
        HandsOn unavailable reply result := by
  cases run with
  | stuck endless => exact Or.inl ⟨rfl, rfl⟩
  | @ask _ _ _ reply _ _ _ _ _ early closes next =>
      right
      rcases reply with (failure | value) | _ | _
      case answer.ok =>
        cases next
        exact ⟨_, _, rfl, rfl, .reply⟩
      -- A question that was cut off fails like one that the agent fails to answer.
      all_goals
        rcases handsOn_of_failure next with ⟨silent, result, rfl, handsOn⟩
        exact ⟨_, _, congrArg (List.cons _) silent, rfl, handsOn⟩

/-- Numbers are taken for a signature without a note. -/
theorem acceptReply_of_parts {reply : Value} {parts : Value × Value × Value}
    (given : partsOfReply reply = some parts) :
    acceptReply address digest reply = .done (signatureOfReply address digest reply) := by
  unfold acceptReply
  simp only [given]
  split
  · cases given
  · rfl

/-- To take a reply nothing is asked. -/
theorem asks_acceptReply {allowed : Query → Prop} (reply : Value) :
    (acceptReply address digest reply).Asks allowed := by
  unfold acceptReply
  dsimp only
  split
  · trivial
  · split
    · exact Asks.bind trivial fun _ => Asks.lift _
    · exact Asks.lift _

theorem acceptReply_inv {reply : Value} {ending : Ending Signature}
    (run : Run (acceptReply address digest reply) start labels ending stop) :
    agentCalls labels = [] ∧ ∃ outcome, ending = .ended outcome ∧
      Concludes address unavailable digest (.ok reply) outcome := by
  by_cases given : reply = .null
  · subst given
    rcases Run.done_inv run with ⟨rfl, rfl, _⟩
    exact ⟨rfl, _, rfl, .contained (fun _ => not_derails_null) (.unanswered rfl)⟩
  · have concludes : Concludes address unavailable digest (.ok reply) _ :=
      concludes_signatureOfReply given
    unfold acceptReply at run
    dsimp only at run
    split at run
    · exact absurd rfl given
    · cases malformed : (partsOfReply reply).isNone with
      | true =>
          simp only [malformed, if_true] at run
          rcases Run.emit_bind_inv run with ⟨after, last, rfl⟩
          rcases Run.done_inv last with ⟨rfl, rfl, _⟩
          exact ⟨rfl, _, rfl, concludes⟩
      | false =>
          simp only [malformed] at run
          rcases Run.done_inv run with ⟨rfl, rfl, _⟩
          exact ⟨rfl, _, rfl, concludes⟩

/-- A signer asks its agent once, and goes on with the reply if there is one. -/
theorem signOffline_inv {ending : Ending Signature}
    (run : Run (signOffline address unavailable digest) start labels ending stop) :
    (agentCalls labels = [⟨digest, none⟩] ∧ ending = .stuck) ∨
      (∃ failure outcome, agentCalls labels = [⟨digest, some (.error failure)⟩] ∧
        ending = .ended outcome ∧ Contained address unavailable digest (.error failure) outcome) ∨
      ∃ reply middle after, agentCalls labels = [⟨digest, some (.ok reply)⟩] ∧
        Run (acceptReply address digest reply) middle after ending stop := by
  rcases Run.bind_inv run with
    ⟨value, before, middle, after, asks, accepts, rfl⟩ | ⟨early, asks, abandons⟩
  · rcases replyOfAgent_inv asks with ⟨_, stuck⟩ | ⟨reply, result, called, ended, handsOn⟩
    · cases stuck
    · cases ended
      cases handsOn
      have silent : agentCalls after = [] ∧ ∃ outcome, ending = .ended outcome ∧
          Concludes address unavailable digest (.ok _) outcome := acceptReply_inv accepts
      refine Or.inr (Or.inr ⟨_, middle, after, ?_, accepts⟩)
      rw [agentCalls_append, called, silent.1, List.append_nil]
  · rcases replyOfAgent_inv asks with ⟨called, rfl⟩ | ⟨reply, result, called, rfl, handsOn⟩
    · cases abandons
      exact Or.inl ⟨called, rfl⟩
    · cases abandons
      cases handsOn with
      | unreachable kind listed =>
          exact Or.inr (Or.inl ⟨_, _, called, rfl, .unreachable listed kind⟩)
      | failed unlisted => exact Or.inr (Or.inl ⟨_, _, called, rfl, .passedOn unlisted⟩)

/-- **Replies of an agent.** A signer that leaves signing to an agent asks it once. Unless the agent
never replies, what comes of the reply is a signature of the account, a failure that blames the
agent, or an unlisted failure of the agent itself. The one exception is a reply that derails the
checks, which then end at the condition that derails them. -/
theorem signDigest_contained_unless_derailed {ending : Ending Signature}
    (run : Run ((Signer.offline address unavailable).signDigest digest) start labels ending stop) :
    (agentCalls labels = [⟨digest, none⟩] ∧ ending = .stuck) ∨
      ∃ reply outcome, agentCalls labels = [⟨digest, some reply⟩] ∧ ending = .ended outcome ∧
        Concludes address unavailable digest reply outcome := by
  rcases signOffline_inv run with unanswered | ⟨failure, outcome, called, rfl, contained⟩ |
    ⟨reply, middle, after, called, accepts⟩
  · exact Or.inl unanswered
  · exact Or.inr ⟨_, outcome, called, rfl, .contained nofun contained⟩
  · rcases acceptReply_inv accepts with ⟨_, outcome, rfl, concludes⟩
    exact Or.inr ⟨_, outcome, called, rfl, concludes⟩

end Runs

section Examples

open Activity

def unsigned : Bytes := Bytes.zeros 32

/-- The account whose key is the generator of the curve. -/
def generatorAddress : Address :=
  .ofPublicKey Secp256k1.generator.toBytes

/-- A reply whose parts are both the abscissa of the generator. -/
def generatorReply : Value :=
  .list [.int Secp256k1.generator.x, .int Secp256k1.generator.x, .int 0]

/-- A reply whose first part is the abscissa of no point. -/
def offCurveReply : Value :=
  .tuple [.int 5, .int 1, .int 0]

/-- The generator, multiplied with its abscissa. -/
def generatorMultiple : Secp256k1.Projective where
  x := 31434162981529948838218060404881524356619328032747096828935208540263485601687
  y := 47659634494421643167488966008299608164314059351785939723187554240872576579233
  z := 71678461172768432951631121167602768519559579976439004785032217214394669021210

theorem multiply_generator : Secp256k1.Projective.multiply Secp256k1.generator.x
    (.ofPoint Secp256k1.generator) = generatorMultiple := by
  decide +kernel

theorem toPoint?_generatorMultiple : (Secp256k1.Projective.multiply
    (Secp256k1.inverse Secp256k1.generator.x Secp256k1.groupOrder)
      (Secp256k1.Projective.infinity.add generatorMultiple)).toPoint? =
        some Secp256k1.generator := by
  decide +kernel

theorem lift?_generator :
    Secp256k1.lift? Secp256k1.generator.x 0 = some Secp256k1.generator := by
  decide +kernel

/-- Of a digest of zeros, the signature with the parts of the generator is one by its own key. -/
theorem recover?_generator : Secp256k1.recover?
    ⟨Secp256k1.generator.x, Secp256k1.generator.x, 0⟩ unsigned = some Secp256k1.generator := by
  have first : Secp256k1.generator.x % Secp256k1.groupOrder ≠ 0 := by decide
  have factor : (Secp256k1.groupOrder - Bytes.toNat unsigned % Secp256k1.groupOrder) %
      Secp256k1.groupOrder = 0 := by
    decide
  have left : Secp256k1.Projective.multiply 0 (.ofPoint Secp256k1.generator) = .infinity := rfl
  simp [Secp256k1.recover?, first, lift?_generator, factor, left, multiply_generator,
    toPoint?_generatorMultiple]

theorem recoverAddress_generator : Signature.recoverAddress
    ⟨Secp256k1.generator.x, Secp256k1.generator.x, 0, true⟩ unsigned = .ok generatorAddress := by
  rw [Signature.recoverAddress, Signature.recover?, if_pos rfl, recover?_generator]
  rfl

theorem signatureOfReply_generator : signatureOfReply generatorAddress unsigned generatorReply =
    .ok ⟨Secp256k1.generator.x, Secp256k1.generator.x, 0, true⟩ :=
  signatureOfReply_of_own rfl (Signature.create_of_inside (by decide) (by decide) (Or.inl rfl))
    recoverAddress_generator

/-- An agent that replies at once with the parts of a signature. -/
theorem signDigest_run {reply : Value} {parts : Value × Value × Value}
    {outcome : Outcome Signature} (given : partsOfReply reply = some parts)
    (comes : signatureOfReply address digest reply = outcome) :
    Run ((Signer.offline address unavailable).signDigest digest) 0
      [.asked (.sign digest) 0 0 (.answer (.ok reply))] (.ended outcome) 0 := by
  have accepts := comes ▸ acceptReply_of_parts given
  have run : Run (acceptReply address digest reply) 0 [] (.ended outcome) 0 := accepts ▸ .done
  exact .ask (by simp) (.atOnce rfl) run

/-- A signature of the account is taken. -/
theorem signDigest_contained_generator : ∃ labels outcome,
    Run ((Signer.offline generatorAddress unreachable).signDigest unsigned) 0 labels
      (.ended outcome) 0 ∧
      Contained generatorAddress unreachable unsigned (.ok generatorReply) outcome := by
  have given : partsOfReply generatorReply = some (_, _, _) := rfl
  have run : Run ((Signer.offline generatorAddress unreachable).signDigest unsigned) 0 _ _ 0 :=
    signDigest_run given signatureOfReply_generator
  rcases signDigest_contained_unless_derailed run with
    ⟨_, stuck⟩ | ⟨reply, outcome, called, ended, concludes⟩
  · cases stuck
  · cases called
    cases ended
    refine ⟨_, _, run, ?_⟩
    generalize same : (Except.ok _ : Outcome Signature) = outcome at concludes
    cases concludes with
    | contained _ contained => exact contained
    | derailed derails => cases same

theorem lift?_five : Secp256k1.lift? 5 0 = none := by
  decide +kernel

/-- From numbers that are no signature no key is recovered, which nobody reports. -/
theorem not_contained_offCurve : ¬∀ (address : Address) (unavailable : List FailureClass)
    (digest : Bytes) (reply : Value) (labels : List Label) (outcome : Outcome Signature)
    (start stop : Rat), digest.length = 32 →
      Run ((Signer.offline address unavailable).signDigest digest) start labels
        (.ended outcome) stop → agentCalls labels = [⟨digest, some (.ok reply)⟩] →
          Contained address unavailable digest (.ok reply) outcome := by
  intro contains
  have numbers : Numbers offCurveReply 5 1 0 := ⟨rfl, by decide, by decide⟩
  have made := Signature.create_of_inside numbers.first numbers.second (Or.inl rfl)
  have stops : Signature.recoverAddress ⟨5, 1, 0, true⟩ unsigned =
      Outcome.condition .badSignature := by
    simp [Signature.recoverAddress, Signature.recover?, Secp256k1.recover?, lift?_five]
  have run : Run ((Signer.offline generatorAddress unreachable).signDigest unsigned) 0 _ _ 0 :=
    signDigest_run numbers.parts (signatureOfReply_of_condition numbers.parts made stops)
  exact not_contained_condition (contains _ _ _ offCurveReply _ _ _ _ rfl run rfl)

end Examples

end Signer

end ContractClient
