import ContractClient.Proofs.Batch.Rejection
import ContractClient.Proofs.Retry.Attempts

/-!
# Posts

Whatever a server does with the posts that it gets, a body is posted until the server has done
something that does not pass, or as often as the configuration allows. It is the same body each
time, and what was done with the last post decides how all of them end (`Http.post_decided`).
-/

namespace ContractClient.Http

open Activity

variable {body : Value} {method : String} {answer : Outcome HttpReply}
  {outcome : Outcome Value} {script : Nat → Outcome HttpReply} {delays : Nat → Rat}

/-- A server is out of reach, or it is too busy. -/
def IsTransient : Outcome HttpReply → Prop
  | .ok reply => reply.status = 429 ∨ 500 ≤ reply.status
  | .error failure => failure.belongsTo (.condition .httpTransport) = true

/-- What is raised outside of this library is no fault of a transport. -/
def IsForeign : Outcome HttpReply → Prop
  | .ok _ => True
  | .error failure => failure.belongsTo (.fault .rpcTransport) = false

/-- How a post ends if it is the last one. -/
inductive Concludes : Outcome HttpReply → Outcome Value → Prop where
  | passing {answer : Outcome HttpReply} {fault : Fault} (transient : IsTransient answer)
      (kind : fault.kind = .rpcTransport) : Concludes answer (Outcome.fault fault)
  | refused {reply : HttpReply} {fault : Fault} (final : ¬IsTransient (.ok reply))
      (status : reply.status ≠ 200) (kind : fault.kind = .rpc) :
      Concludes (.ok reply) (Outcome.fault fault)
  | unreadable {reply : HttpReply} {fault : Fault} (status : reply.status = 200)
      (read : Json.readBytes? reply.body = none) (kind : fault.kind = .rpc) :
      Concludes (.ok reply) (Outcome.fault fault)
  | raised {failure : Failure} (final : ¬IsTransient (.error failure)) :
      Concludes (.error failure) (.error failure)
  | read {reply : HttpReply} {value : Value} (status : reply.status = 200)
      (read : Json.readBytes? reply.body = some value) : Concludes (.ok reply) (.ok value)

theorem isTransient_ok_iff {reply : HttpReply} :
    IsTransient (.ok reply) ↔ isTransientStatus reply.status = true := by
  simp [IsTransient, isTransientStatus, or_comm]

theorem concludes_outcomeOfPost : Concludes answer (outcomeOfPost method (.answer answer)) := by
  cases answer with
  | error failure =>
      rw [outcomeOfPost, failureOfPost]
      split
      · next transport => exact .passing transport rfl
      · next other => exact .raised other
  | ok reply =>
      rw [outcomeOfPost, valueOfReply]
      split
      · next transient => exact .passing (isTransient_ok_iff.mpr transient) rfl
      · next final =>
          split
          · next status => exact .refused (final ∘ isTransient_ok_iff.mp) status rfl
          · next status =>
              rw [ne_eq, not_not] at status
              split
              · next value read => exact .read status read
              · next read => exact .unreadable status read rfl

/-- A post is worth another one exactly if what was done with it passes. -/
theorem Concludes.isRetryable_iff (config : TransportConfig) {failure : Failure}
    (foreign : IsForeign answer) (concludes : Concludes answer (.error failure)) :
    (config.retryConfig transient).isRetryable failure = true ↔ IsTransient answer := by
  have single : (config.retryConfig transient).isRetryable failure =
      failure.belongsTo (.fault .rpcTransport) := Bool.or_false _
  rw [single]
  cases concludes with
  | passing transient kind =>
      simp only [Failure.belongsTo, kind, transient, iff_true]
      decide
  | refused final status kind =>
      simp only [Failure.belongsTo, kind, final, iff_false]
      decide
  | unreadable status read kind =>
      simp only [Failure.belongsTo, kind, isTransient_ok_iff, status]
      decide
  | raised final =>
      rw [foreign]
      simp [final]

theorem Concludes.not_isTransient {value : Value} (concludes : Concludes answer (.ok value)) :
    ¬IsTransient answer := by
  cases concludes with
  | read status read =>
      rw [isTransient_ok_iff, status]
      decide

/-- A server that does what a script says with the posts that it gets, one after the other. -/
def server (script : Nat → Outcome HttpReply) (delays : Nat → Rat) : World (List Value) where
  respond posted _ query := {
    delay := match query with
      | .post _ => some (delays posted.length)
      | _ => none
    answer := match query with
      | .post _ => script posted.length
      | .sleep _ => ()
      | .call _ _ | .sign _ | .provide _ _ | .provideBatch _ => .ok .null
      | .batch _ => .ok []
      | .disconnect => .ok ()
    next := match query with
      | .post body => posted ++ [body]
      | _ => posted }
  observe posted _ := posted

theorem run_postOnce {now : Rat} {posted : List Value} :
    (postOnce body method).run (server script delays) none now posted =
      (.ended (outcomeOfPost method (.answer (script posted.length))),
        now + max (delays posted.length) 0, posted ++ [body]) := by
  rw [postOnce_eq, run_ask _ rfl]
  rfl

/-- The last post of a stretch: what was done with all others passes, and what was done with it does
not, or there are no posts left. -/
structure IsLast (script : Nat → Outcome HttpReply) (first count last : Nat) : Prop where
  reached : first ≤ last
  enough : last < first + count
  passing : ∀ turn, first ≤ turn → turn < last → IsTransient (script turn)
  final : last + 1 = first + count ∨ ¬IsTransient (script last)

theorem IsLast.refl {first count : Nat} (final : count = 0 ∨ ¬IsTransient (script first)) :
    IsLast script first (count + 1) first where
  reached := le_rfl
  enough := by omega
  passing := by
    intro turn reached earlier
    omega
  final := final.imp_left (by rintro rfl; rfl)

theorem IsLast.next {first count last : Nat} (isLast : IsLast script (first + 1) count last)
    (transient : IsTransient (script first)) : IsLast script first (count + 1) last where
  reached := Nat.le_of_succ_le isLast.reached
  enough := by
    have := isLast.enough
    omega
  passing := by
    intro turn reached earlier
    rcases reached.eq_or_lt with rfl | later
    · exact transient
    · exact isLast.passing turn later earlier
  final := by
    refine isLast.final.imp_left fun same => ?_
    omega

theorem IsLast.unique {first count last other : Nat} (isLast : IsLast script first count last)
    (isOther : IsLast script first count other) : last = other := by
  have notBefore : ∀ {one two : Nat}, IsLast script first count one →
      IsLast script first count two → ¬one < two := by
    intro one two isOne isTwo earlier
    have transient := isTwo.passing one isOne.reached earlier
    have enough := isTwo.enough
    rcases isOne.final with same | final
    · omega
    · exact final transient
  have := notBefore isLast isOther
  have := notBefore isOther isLast
  omega

/-- A body is posted up to the last post of the stretch that is left. -/
theorem run_retryFrom {config : TransportConfig} {remaining turn : Nat}
    (foreign : ∀ turn, IsForeign (script turn))
    (inRange : ∀ later, turn ≤ later → later + 1 < turn + remaining →
      ∃ delay, (config.retryConfig transient).calculateDelay later = .ok delay)
    (some : remaining ≠ 0) (now : Rat) :
    ∃ last stop, IsLast script turn remaining last ∧
      (retryFrom (config.retryConfig transient) method (postOnce body method) remaining turn).run
          (server script delays) none now (List.replicate turn body) =
        (.ended (outcomeOfPost method (.answer (script last))), stop,
          List.replicate (last + 1) body) := by
  induction remaining generalizing turn now with
  | zero => exact absurd rfl some
  | succ remaining ih =>
      have once : (postOnce body method).run (server script delays) none now
          (List.replicate turn body) = (.ended (outcomeOfPost method (.answer (script turn))),
            now + max (delays turn) 0, List.replicate (turn + 1) body) := by
        rw [run_postOnce, List.length_replicate, List.replicate_succ']
      rcases Nat.eq_zero_or_pos remaining with rfl | more
      · exact ⟨turn, _, .refl (Or.inl rfl), once⟩
      rw [retryFrom_succ more, Activity.handle, run_andThen _ once]
      have concludes : Concludes (script turn) (outcomeOfPost method (.answer (script turn))) :=
        concludes_outcomeOfPost
      generalize ends : outcomeOfPost method (.answer (script turn)) = outcome at concludes
      cases outcome with
      | ok value =>
          refine ⟨turn, now + max (delays turn) 0, .refl (Or.inr concludes.not_isTransient), ?_⟩
          rw [ends]
          rfl
      | error failure =>
          have passes := concludes.isRetryable_iff config (foreign turn)
          by_cases transient : IsTransient (script turn)
          · obtain ⟨delay, waits⟩ := inRange turn le_rfl (by omega)
            have others : ∀ later, turn + 1 ≤ later → later + 1 < turn + 1 + remaining →
                ∃ delay, (config.retryConfig Http.transient).calculateDelay later = .ok delay :=
              fun later reached less => inRange later (by omega) (by omega)
            rcases ih others more.ne'
              (now + max (delays turn) 0 + max (max (secondsOf delay) 0) 0) with
              ⟨last, stop, isLast, run⟩
            refine ⟨last, stop, isLast.next transient, ?_⟩
            rw [← run]
            simp only [passes.mpr transient, waits]
            exact run_pause _
          · refine ⟨turn, now + max (delays turn) 0, .refl (Or.inr transient), ?_⟩
            rw [ends]
            simp only [Bool.eq_false_iff.mpr (transient ∘ passes.mp)]
            rfl

/-- What a post leaves behind stays as it is if nothing is asked after it. -/
theorem run_quiet {α : Type} {activity : Activity α} (quiet : activity.Asks fun _ => False)
    (now : Rat) (posted : List Value) :
    (activity.run (server script delays) none now posted).2.2 = posted := by
  induction activity generalizing now with
  | done outcome => rfl
  | suspended => rfl
  | tell event rest ih => exact ih quiet now
  | clock resume ih => exact ih now (quiet now) now
  | ask query deadline resume ih => exact quiet.1.elim

/-- Nothing is posted by what goes on with a result without asking. -/
theorem run_bind_quiet {α β : Type} {activity : Activity α} {next : α → Activity β}
    {outcome : Outcome α} {now stop : Rat} {posted : List Value}
    (quiet : ∀ value, (next value).Asks fun _ => False)
    (first : activity.run (server script delays) none now [] = (.ended outcome, stop, posted)) :
    ((activity >>= next).run (server script delays) none now []).2.2 = posted := by
  have sequence : (activity >>= next).run (server script delays) none now [] = _ :=
    run_andThen _ first
  rw [sequence]
  apply run_quiet
  cases outcome with
  | ok value => exact quiet value
  | error failure => trivial

/-- Whatever a server does with posts, there is a last one, and the server's script and the number
of attempts say which one it is. Up to it the same body is posted, and what the server does with it
decides how all of the posts end, be it for a request or for a batch. -/
theorem post_decided {config : TransportConfig} (some : config.maxAttempts ≠ 0)
    (inRange : ∀ attempt, attempt + 1 < config.maxAttempts →
      (config.retryConfig transient).StaysInRange attempt)
    (foreign : ∀ turn, IsForeign (script turn)) (delays : Nat → Rat) (now : Rat) :
    ∃ last, IsLast script 0 config.maxAttempts last ∧
      (∀ body method, Concludes (script last) (outcomeOfPost method (.answer (script last))) ∧
        ∃ stop, (post config body method).run (server script delays) none now [] =
          (.ended (outcomeOfPost method (.answer (script last))), stop,
            List.replicate (last + 1) body)) ∧
      (∀ request, ((send config request).run (server script delays) none now []).2.2 =
        List.replicate (last + 1) request.toValue) ∧
      (∀ requests, requests ≠ [] →
        ((sendBatch config requests).run (server script delays) none now []).2.2 =
          List.replicate (last + 1) (batchBody requests)) := by
  have waits : ∀ later, 0 ≤ later → later + 1 < 0 + config.maxAttempts →
      ∃ delay, (config.retryConfig transient).calculateDelay later = .ok delay :=
    fun later _ less => (inRange later (by omega)).exists_delay
  have each : ∀ body method, ∃ last stop, IsLast script 0 config.maxAttempts last ∧
      (post config body method).run (server script delays) none now [] =
        (.ended (outcomeOfPost method (.answer (script last))), stop,
          List.replicate (last + 1) body) :=
    fun body method => run_retryFrom foreign waits some now
  rcases each .null "" with ⟨last, _, isLast, _⟩
  have posts : ∀ body method, ∃ stop,
      (post config body method).run (server script delays) none now [] =
        (.ended (outcomeOfPost method (.answer (script last))), stop,
          List.replicate (last + 1) body) := by
    intro body method
    rcases each body method with ⟨other, stop, isOther, run⟩
    cases isLast.unique isOther
    exact ⟨stop, run⟩
  refine ⟨last, isLast, fun body method => ⟨concludes_outcomeOfPost, posts body method⟩, ?_, ?_⟩
  · intro request
    rcases posts request.toValue request.method with ⟨stop, run⟩
    exact run_bind_quiet quiet_answered run
  · intro requests some
    rcases posts (batchBody requests) "batch" with ⟨stop, run⟩
    rw [sendBatch_eq, if_neg (by simpa using some)]
    exact run_bind_quiet quiet_answeredBatch run

section Examples

/-- A server that is busy at first. -/
def busyScript : Nat → Outcome HttpReply
  | 0 => .ok ⟨503, []⟩
  | _ => .ok ⟨200, resultBody⟩

/-- A request is posted again while the server is busy. -/
theorem post_decided_busy :
    nearby.maxAttempts ≠ 0 ∧ (∀ turn, IsForeign (busyScript turn)) ∧
      (∀ attempt, attempt + 1 < nearby.maxAttempts →
        (nearby.retryConfig transient).StaysInRange attempt) ∧
      (∃ stop, (post nearby chainIdRequest.toValue "eth_chainId").run
          (server busyScript fun _ => 0) none 0 [] =
        (.ended (.ok resultReply), stop, [chainIdRequest.toValue, chainIdRequest.toValue])) ∧
      ((send nearby chainIdRequest).run (server busyScript fun _ => 0) none 0 []).2.2 =
        [chainIdRequest.toValue, chainIdRequest.toValue] := by
  have some : nearby.maxAttempts ≠ 0 := by decide
  have foreign : ∀ turn, IsForeign (busyScript turn) := by
    intro turn
    cases turn <;> trivial
  have inRange : ∀ attempt, attempt + 1 < nearby.maxAttempts →
      (nearby.retryConfig transient).StaysInRange attempt := by
    intro attempt less
    have few : attempt = 0 ∨ attempt = 1 := by
      have most : attempt + 1 < 3 := less
      omega
    -- The share of a wait that is drawn is none of it here.
    rcases few with rfl | rfl <;>
      exact ⟨.zero, 0, Outcome.toOption_eq_some_iff.mp (by decide +kernel), by decide +kernel⟩
  rcases post_decided some inRange foreign (fun _ => 0) 0 with ⟨last, isLast, posts, requests, _⟩
  have passing : ∀ turn, 0 ≤ turn → turn < 1 → IsTransient (busyScript turn) := by
    intro turn _ earlier
    rw [Nat.lt_one_iff.mp earlier]
    exact Or.inr (by decide)
  have final : ¬IsTransient (busyScript 1) := mt isTransient_ok_iff.mp (by decide)
  have second : IsLast busyScript 0 nearby.maxAttempts 1 :=
    ⟨by decide, by decide, passing, Or.inr final⟩
  cases isLast.unique second
  have reads : outcomeOfPost "eth_chainId" (.answer (busyScript 1)) = .ok resultReply :=
    valueOfReply_of_read read_resultBody "eth_chainId"
  refine ⟨some, foreign, inRange, ?_, requests chainIdRequest⟩
  rcases posts chainIdRequest.toValue "eth_chainId" with ⟨_, stop, run⟩
  rw [reads] at run
  exact ⟨stop, run⟩

end Examples

end ContractClient.Http
