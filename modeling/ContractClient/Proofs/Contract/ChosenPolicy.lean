import ContractClient.Contract.Instance
import ContractClient.Proofs.Schema
import ContractClient.Proofs.Transaction.ObservedHead

/-!
# Policies of drafts

The policy under which a draft is sent is the one that is configured, one that was set for the
draft, or a copy of either with another number of blocks. Neither policies nor numbers are checked
when they are set, so the policy is a valid one exactly if the last policy that was set and the last
number after it are valid (`MethodCall.chosenPolicy_isValid_iff`). A transaction that was sent under
a valid policy is never confirmed in a block above the head that was asked for last.
-/

namespace ContractClient

open Activity

namespace ConfirmationPolicy

/-- A policy says in valid terms when to poll and when to give up. -/
structure IsTimed (policy : ConfirmationPolicy) : Prop where
  pollInterval : isPositive policy.pollInterval
  timeout : ∀ seconds ∈ policy.timeout, isPositive seconds
  timeoutBlocks : ∀ blocks ∈ policy.timeoutBlocks, 1 ≤ blocks

/-- All fields of a policy satisfy their constraints. -/
structure IsValid (policy : ConfirmationPolicy) : Prop extends policy.IsTimed where
  counts : ∃ count, IsCount policy.requiredConfirmations count

theorem isPositive_of_positive {value : Value} {number : Binary64}
    (read : positive value = .valid number) : isPositive number :=
  (Checked.require_eq_valid read).2

theorem isPositive_defaultPollInterval : isPositive defaultPollInterval := by
  decide +kernel

theorem isPositive_defaultTimeout : isPositive (Binary64.ofInt 300) := by
  decide +kernel

/-- What is read is valid, and so is every default. -/
theorem isValid_of_read {fields : Dict} {policy : ConfirmationPolicy}
    (accepted : read fields = .valid policy) : policy.IsValid := by
  rcases Checked.apply_eq_valid accepted with ⟨_, blocks, timed, readBlocks, rfl⟩
  rcases Checked.apply_eq_valid timed with ⟨_, timeout, polled, readTimeout, rfl⟩
  rcases Checked.apply_eq_valid polled with ⟨_, interval, counted, readInterval, rfl⟩
  rcases Checked.map_eq_valid counted with ⟨count, readCount, rfl⟩
  refine ⟨⟨?_, ?_, ?_⟩, ?_⟩
  · rcases Schema.field_eq_valid readInterval with ⟨value, _, read⟩ | rfl
    · exact isPositive_of_positive read
    · exact isPositive_defaultPollInterval
  · rcases Schema.field_eq_valid readTimeout with ⟨value, _, read⟩ | rfl
    · intro seconds given
      exact isPositive_of_positive (Schema.optional_eq_valid read seconds given)
    · rintro _ ⟨⟩
      exact isPositive_defaultTimeout
  · rcases Schema.field_eq_valid readBlocks with ⟨value, _, read⟩ | rfl
    · intro blocks given
      exact Schema.le_of_integerFrom (Schema.optional_eq_valid read blocks given)
    · simp
  · have natural : 0 ≤ count := by
      rcases Schema.field_eq_valid readCount with ⟨value, _, read⟩ | rfl
      · exact Schema.le_of_integerFrom read
      · decide
    refine ⟨count.toNat, ?_⟩
    have counts := IsCount.int count.toNat
    rwa [Int.toNat_of_nonneg natural] at counts

end ConfirmationPolicy

theorem PipelineConfig.isValid_confirmation {entries : Dict} {config : PipelineConfig}
    (accepted : read entries = .valid config) : config.confirmation.IsValid := by
  rcases Checked.apply_eq_valid accepted with ⟨_, policy, others, readPolicy, rfl⟩
  rcases Checked.apply_eq_valid others with ⟨_, fees, limits, _, rfl⟩
  rcases Checked.apply_eq_valid limits with ⟨_, limit, margins, _, rfl⟩
  rcases Checked.map_eq_valid margins with ⟨margin, _, rfl⟩
  change policy.IsValid
  rcases Schema.field_eq_valid readPolicy with ⟨value, _, readFields⟩ | rfl
  · unfold Schema.model at readFields
    split at readFields
    · exact ConfirmationPolicy.isValid_of_read readFields
    · cases readFields
  · have empty : ConfirmationPolicy.read [] = .valid {} := rfl
    exact ConfirmationPolicy.isValid_of_read empty

namespace MethodCall

variable {call changed : MethodCall} {contract : ContractInstance}

/-- A draft of a transaction with a contract before anything is set. -/
inductive IsDrafted (contract : ContractInstance) (call : MethodCall) : Prop where
  | function {key : String} {arguments : List Value}
      (drafted : ofFunction contract key arguments = .ok call)
  | fallback {data : Bytes} (drafted : fallback contract data = .ok call)

/-- Sets what is given, in order. -/
def setAll (call : MethodCall) (settings : List Setting) : Outcome MethodCall :=
  settings.foldlM set call

/-- The policy under which a draft is sent. -/
def chosenPolicy (call : MethodCall) : ConfirmationPolicy :=
  call.policy.getD call.contract.config.confirmation

/-- The policy of its own that a draft has when one more thing is set. -/
def policyAfter (policy : Option ConfirmationPolicy) : Setting → Option ConfirmationPolicy
  | .policy given => given
  | _ => policy

/-- The policy that was set last, unless the one that is configured was restored. -/
def lastPolicy (settings : List Setting) : Option ConfirmationPolicy :=
  settings.foldl policyAfter none

/-- The number of blocks that is left to a draft when one more thing is set: a policy brings its own
number. -/
def countAfter (count : Option Value) : Setting → Option Value
  | .confirmations value => some value
  | .policy _ => none
  | _ => count

/-- The number of blocks that was set last, unless a policy was set after it. -/
def lastCount (settings : List Setting) : Option Value :=
  settings.foldl countAfter none

/-- A draft is sent under a policy of its own or the one that is configured, with the number of
blocks that was set, if one was. -/
structure IsDue (contract : ContractInstance) (policy : Option ConfirmationPolicy)
    (count : Option Value) (call : MethodCall) : Prop where
  drafts : call.contract = contract
  other : count = none → call.chosenPolicy = policy.getD contract.config.confirmation
  counted : ∀ value ∈ count, call.chosenPolicy =
    { policy.getD contract.config.confirmation with requiredConfirmations := value }

variable {policy : Option ConfirmationPolicy} {count : Option Value} {setting : Setting}
  {settings : List Setting}

theorem IsDue.isValid_iff (due : IsDue contract policy count call)
    (configured : contract.config.confirmation.IsValid) :
    call.chosenPolicy.IsValid ↔
      (∀ own ∈ policy, own.IsTimed ∧
        (count = none → ∃ number, IsCount own.requiredConfirmations number)) ∧
      ∀ value ∈ count, ∃ number, IsCount value number := by
  have timed :
      (policy.getD contract.config.confirmation).IsTimed ↔ ∀ own ∈ policy, own.IsTimed := by
    cases policy with
    | none => simp [configured.toIsTimed]
    | some own => simp
  cases count with
  | none =>
      rw [due.other rfl]
      constructor
      · intro valid
        refine ⟨?_, by simp⟩
        rintro own ⟨⟩
        exact ⟨valid.toIsTimed, fun _ => valid.counts⟩
      · rintro ⟨each, _⟩
        cases policy with
        | none => exact configured
        | some own => exact ⟨(each own rfl).1, (each own rfl).2 rfl⟩
  | some value =>
      rw [due.counted value rfl]
      constructor
      · rintro ⟨⟨interval, timeout, blocks⟩, counts⟩
        refine ⟨fun own given => ⟨timed.mp ⟨interval, timeout, blocks⟩ own given, ?_⟩, ?_⟩
        · rintro ⟨⟩
        · rintro _ ⟨⟩
          exact counts
      · rintro ⟨each, counts⟩
        rcases timed.mpr fun own given => (each own given).1 with ⟨interval, timeout, blocks⟩
        exact ⟨⟨interval, timeout, blocks⟩, counts value rfl⟩

theorem IsDrafted.isDue (drafted : IsDrafted contract call) : IsDue contract none none call := by
  have plain : call.contract = contract ∧ call.policy = none := by
    cases drafted with
    | function drafted =>
        rcases Outcome.bind_eq_ok_iff.mp drafted with ⟨_, _, encoded⟩
        rcases Outcome.bind_eq_ok_iff.mp encoded with ⟨_, _, made⟩
        cases made
        exact ⟨rfl, rfl⟩
    | fallback drafted =>
        unfold MethodCall.fallback at drafted
        split at drafted <;> cases drafted
        exact ⟨rfl, rfl⟩
  refine ⟨plain.1, fun _ => ?_, by simp⟩
  rw [chosenPolicy, plain.1, plain.2]

/-- What leaves the policy of a draft as it is leaves it due. -/
theorem IsDue.of_unchanged (due : IsDue contract policy count call)
    (sameContract : changed.contract = call.contract) (samePolicy : changed.policy = call.policy) :
    IsDue contract policy count changed := by
  have same : changed.chosenPolicy = call.chosenPolicy := by
    rw [chosenPolicy, chosenPolicy, samePolicy, sameContract]
  exact ⟨sameContract.trans due.drafts, same ▸ due.other, same ▸ due.counted⟩

/-- What one setter does to the policy of a draft. -/
theorem IsDue.set (due : IsDue contract policy count call)
    (made : call.set setting = .ok changed) :
    IsDue contract (policyAfter policy setting) (countAfter count setting) changed := by
  cases setting with
  | sender value =>
      rcases Outcome.bind_eq_ok_iff.mp made with ⟨_, _, made⟩
      cases made
      exact due.of_unchanged rfl rfl
  | value value =>
      simp only [MethodCall.set, withValue] at made
      split at made <;> cases made
      exact due.of_unchanged rfl rfl
  | confirmations value =>
      cases made
      rcases due with ⟨rfl, other, counted⟩
      refine ⟨rfl, by simp [countAfter], ?_⟩
      rintro _ ⟨⟩
      -- The copy is made of what was chosen before, whatever number that had.
      have copied : (call.withConfirmations value).chosenPolicy =
          { call.chosenPolicy with requiredConfirmations := value } := rfl
      refine copied.trans ?_
      cases count with
      | none =>
          rw [other rfl]
          rfl
      | some number =>
          rw [counted number rfl]
          rfl
  | policy given =>
      cases made
      rcases due with ⟨rfl, _, _⟩
      exact ⟨rfl, fun _ => rfl, by simp [countAfter]⟩
  | gas | nonce | gasPrice | maxFeePerGas | maxPriorityFeePerGas =>
      cases made
      exact due.of_unchanged rfl rfl

/-- What setters do to the policy of a draft, one after the other. -/
theorem IsDue.setAll (due : IsDue contract policy count call)
    (made : call.setAll settings = .ok changed) :
    IsDue contract (settings.foldl policyAfter policy) (settings.foldl countAfter count)
      changed := by
  induction settings generalizing call policy count with
  | nil =>
      cases made
      exact due
  | cons setting settings ih =>
      rcases Outcome.bind_eq_ok_iff.mp made with ⟨next, madeFirst, madeRest⟩
      exact ih (due.set madeFirst) madeRest

theorem confirmedUnder_send {rounds : Nat} {start stop : Rat} {labels : List Label}
    {confirmed : PendingTransaction}
    (run : Run (call.send rounds) start labels (.ended (.ok confirmed)) stop) :
    ∃ pipeline head, call.contract.pipeline = .ok pipeline ∧ pipeline.EndsWithHead labels head ∧
      Pipeline.ConfirmedUnder call.chosenPolicy confirmed head := by
  rcases Run.lift_bind_inv run with ⟨pipeline, found, requestRun⟩ | ⟨_, _, _, ⟨⟩⟩
  rcases Run.lift_bind_inv requestRun with ⟨request, _, sendRun⟩ | ⟨_, _, _, ⟨⟩⟩
  rcases Pipeline.confirmedUnder_send sendRun with ⟨head, ends, under⟩
  have configured : pipeline.config = call.contract.config := by
    unfold ContractInstance.pipeline at found
    split at found <;> cases found
    rfl
  refine ⟨pipeline, head, found, ends, ?_⟩
  rwa [configured] at under

/-- Whatever is set, a draft for a contract with a valid configuration is sent under a valid policy
exactly if the policy that was set last, if there is one, says in valid terms when to poll and when
to give up, and the number of blocks that was set after it, or else its own, is a natural number.
Under a valid policy a transaction is not confirmed before the head that was asked for last has
reached its block. -/
theorem chosenPolicy_isValid_iff {entries : Dict}
    (configured : PipelineConfig.read entries = .valid contract.config)
    (drafted : IsDrafted contract call) (made : call.setAll settings = .ok changed) :
    (changed.chosenPolicy.IsValid ↔
      (∀ policy ∈ lastPolicy settings, policy.IsTimed ∧
        (lastCount settings = none → ∃ count, IsCount policy.requiredConfirmations count)) ∧
      ∀ value ∈ lastCount settings, ∃ count, IsCount value count) ∧
      ∀ rounds start labels confirmed stop,
        Run (changed.send rounds) start labels (.ended (.ok confirmed)) stop →
          ∃ pipeline head, contract.pipeline = .ok pipeline ∧ pipeline.EndsWithHead labels head ∧
            Pipeline.ConfirmedUnder changed.chosenPolicy confirmed head ∧
              (changed.chosenPolicy.IsValid →
                ∃ block, confirmed.blockNumber = some block ∧ block ≤ head) := by
  have valid := PipelineConfig.isValid_confirmation configured
  have due : IsDue contract (lastPolicy settings) (lastCount settings) changed :=
    drafted.isDue.setAll made
  refine ⟨due.isValid_iff valid, ?_⟩
  intro rounds start labels confirmed stop run
  rcases confirmedUnder_send run with ⟨pipeline, head, found, ends, under⟩
  rw [due.drafts] at found
  refine ⟨pipeline, head, found, ends, under, ?_⟩
  rintro ⟨_, count, counts⟩
  rcases under.reached with ⟨block, inBlock, reached⟩
  rw [ConfirmationPolicy.isReached_eq_ok_iff counts] at reached
  exact ⟨block, inBlock, by omega⟩

section Examples

open Pipeline

/-- A contract that takes payments from an account that a node manages. -/
def till : ContractInstance where
  abi := { hasReceive := true }
  address := ⟨List.replicate 20 0xaa⟩
  transport := .direct
  signer := some plain.signer
  config := { confirmation := patient.policy }

theorem read_till :
    PipelineConfig.read [("confirmation",
      .dict [("required_confirmations", .int 2), ("timeout", .null)])] = .valid till.config :=
  rfl

theorem fallback_till :
    MethodCall.fallback till = .ok { contract := till, function := none, data := [] } :=
  rfl

/-- A policy that never polls and a number that is no natural one do no harm where another policy
and a number follow them. -/
theorem chosenPolicy_isValid_iff_renewed :
    ∃ call changed, IsDrafted till call ∧
      call.setAll [.policy (some { pollInterval := .zero }), .confirmations (.int (-5)),
        .policy (some { timeoutBlocks := some 9 }), .confirmations (.int 4)] = .ok changed ∧
      changed.chosenPolicy.IsValid := by
  obtain ⟨changed, made⟩ : ∃ changed,
      MethodCall.setAll { contract := till, function := none, data := [] }
        [.policy (some { pollInterval := .zero }), .confirmations (.int (-5)),
          .policy (some { timeoutBlocks := some 9 }), .confirmations (.int 4)] = .ok changed :=
    ⟨_, rfl⟩
  refine ⟨_, changed, .fallback fallback_till, made, ?_⟩
  refine (chosenPolicy_isValid_iff read_till (.fallback fallback_till) made).1.mpr ⟨?_, ?_⟩
  · rintro _ ⟨⟩
    refine ⟨⟨ConfirmationPolicy.isPositive_defaultPollInterval, ?_, ?_⟩, ?_⟩
    · rintro _ ⟨⟩
      exact ConfirmationPolicy.isPositive_defaultTimeout
    · rintro _ ⟨⟩
      decide
    · rintro ⟨⟩
  · rintro _ ⟨⟩
    exact ⟨4, .int 4⟩

/-- A payment to the contract with all that is given for it. -/
def payment : MethodCall where
  contract := till
  function := none
  data := []
  gas := .int 21000
  gasPrice := .int 1
  nonce := .int 0

/-- The request of the payment, on the chain that the node names. -/
def paid : TransactionRequest where
  sender := some plain.signer.address
  recipient := some till.address
  gas := some 21000
  gasPrice := some 1
  nonce := some 0
  chainId := some 1

/-- The node has the payment in block 10, but its head is still block 9. -/
def behind : List NodeCall :=
  [⟨"eth_chainId", [], some (.ok (.int 1))⟩,
    ⟨"eth_signTransaction", [.dict paid.toRpc], some (.ok (.text "0x05"))⟩,
    ⟨"eth_sendRawTransaction", [.text "0x05"], some (.ok patient.txHash)⟩,
    .receipt patient.txHash (.dict (receiptIn 10)), .head (.int 9)]

theorem request_payment (policy : ConfirmationPolicy) :
    request { payment with policy } = .ok { paid with chainId := none } := by
  have sender := TransactionRequest.addressField_toValue "from_address"
    (show plain.signer.address.octets.length = Address.length from rfl)
  have recipient := TransactionRequest.addressField_toValue "to"
    (show till.address.octets.length = Address.length from rfl)
  have known : senderOf { payment with policy } = some plain.signer.address := rfl
  rw [request, known]
  simp [TransactionRequest.ofFields, TransactionRequest.fieldNames, TransactionRequest.addressText,
    TransactionRequest.numberField, Dict.get?, sender, recipient, payment, Data.bytesOfValue,
    Value.ofOption, paid]

theorem build_payment (decoder : RevertDecoder) (start : Rat) :
    Reaches (build ⟨.direct, plain.signer, till.config, decoder⟩ { paid with chainId := none })
      start [⟨"eth_chainId", [], some (.ok (.int 1))⟩] (.ended (.ok paid)) := by
  let drafted : TransactionRequest := { paid with chainId := none }
  have addressed : drafted.IsAddressed := ⟨by rintro _ ⟨⟩; rfl, by rintro _ ⟨⟩; rfl⟩
  have told : TransactionRequest.Gap.chainId.read till.config (.int 1) = .ok ((1 : Nat) : Int) :=
    rfl
  have filled : Reaches (fill till.config drafted .chainId) start
      [⟨"eth_chainId", [], some (.ok (.int 1))⟩] (.ended (.ok paid)) :=
    fill_reaches addressed rfl told
  have noted : ∀ now, Reaches (liftM (till.config.fees.apply paid) >>= noteBuilt) now []
      (.ended (.ok paid)) := fun now => .tell .done
  have onlyChain : fillAll till.config TransactionRequest.Gap.all drafted =
      fill till.config drafted .chainId := by
    have chained : (fill till.config drafted .chainId >>= pure) = _ := bind_pure_self
    exact chained
  change Reaches (onNode ⟨.direct, plain.signer, till.config, decoder⟩ |>.build drafted) _ _ _
  rw [build_eq]
  change Reaches (fillAll till.config TransactionRequest.Gap.all drafted >>= _) _ _ _
  rw [onlyChain]
  exact filled.bind noted

/-- With a negative number of blocks a transaction is confirmed in a block that the head has not
reached. -/
theorem not_every_chosenPolicy_valid :
    ∃ call changed labels stop confirmed, IsDrafted till call ∧
      call.setAll [.gas (.int 21000), .gasPrice (.int 1), .nonce (.int 0),
        .confirmations (.int (-5))] = .ok changed ∧
      ¬changed.chosenPolicy.IsValid ∧
      Run (changed.send 1) 0 labels (.ended (.ok confirmed)) stop ∧ calls labels = behind ∧
      confirmed.state = .confirmed ∧ confirmed.blockNumber = some 10 := by
  let policy : ConfirmationPolicy :=
    { till.config.confirmation with requiredConfirmations := .int (-5) }
  let pending : PendingTransaction := { txHash := patient.txHash, policy, request := some paid }
  have reaches : Reaches (send { payment with policy := some policy } 1) 0 behind
      (.ended (.ok (pending.confirmedAt 10 (receiptIn 10)))) := by
    rw [send, request_payment policy]
    refine (build_payment till.abi.decodeError 0).bind fun now => ?_
    refine .call (.tell (.tell ?_))
    refine .call (.tell (.clock ?_))
    refine .call (.tell (.tell ?_))
    exact .call (.tell (.tell .done))
  rcases reaches with ⟨labels, stop, run, asked⟩
  refine ⟨_, _, labels, stop, _, .fallback fallback_till, rfl, ?_, run, asked, rfl, rfl⟩
  rintro ⟨_, count, counts⟩
  have negative : IsCount (.int (-5)) count := counts
  cases negative

end Examples

end MethodCall

end ContractClient
