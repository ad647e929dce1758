import ContractClient.Proofs.Activity.Timely
import ContractClient.Proofs.Transaction.Confirmation
import ContractClient.Rpc.Http
import ContractClient.Rpc.Provider

/-!
# Deadlines of waits

A wait with a limit of time is over when the limit is reached, in every world and with every
transport whose calls can be cancelled at once: no question to a node and no sleep is open after
that (`Pipeline.wait_endsBy_timeout`). Each step of a wait ends by the deadline, if it starts before
it; the steps are the receipt, the heads, the replay of a failed transaction and the pause before
the next poll. Calls of a node, requests over HTTP with their repetitions and requests of a provider
can be cancelled at once, so a wait over any transport that is offered ends in time
(`Pipeline.wait_ends_of_isOffered`).
-/

namespace ContractClient

open Activity

/-- Every request of a transport can be cancelled at once. -/
def Transport.Interruptible (transport : Transport) : Prop :=
  ∀ method params, (transport.send method params).Interruptible

theorem Transport.interruptible_direct : Transport.direct.Interruptible :=
  fun _ _ => (Activity.Interruptible.perform _).settle

theorem interruptible_retryFrom {α : Type} {config : RetryConfig} {operation : String}
    {action : Activity α} (fatal : config.isRetryable .cancelled = false)
    (interruptible : action.Interruptible) (remaining attempt : Nat) :
    (retryFrom config operation action remaining attempt).Interruptible := by
  induction remaining generalizing attempt with
  | zero => trivial
  | succ remaining ih =>
      cases remaining with
      | zero => exact interruptible
      | succ remaining =>
          rw [retryFrom.eq_3 _ _ _ _ _ (Nat.succ_ne_zero remaining)]
          refine interruptible.handle (fun failure => ?_) ?_
          · split
            · trivial
            · refine Activity.Interruptible.bind trivial fun delay => ?_
              exact (Activity.Interruptible.sleep _).bind fun _ => ih (attempt + 1)
          · simp only [fatal]
            rfl

/-- A request over HTTP can be cancelled in every attempt and in the waits between them. -/
theorem Http.interruptible_send (config : TransportConfig) (request : RpcRequest) :
    (Http.send config request).Interruptible := by
  have once : (Http.postOnce request.toValue request.method).Interruptible := by
    refine (Activity.Interruptible.perform _).settle.andThen (fun outcome => ?_) ?_
    · cases outcome <;> trivial
    · rfl
  have posted : (Http.post config request.toValue request.method).Interruptible :=
    interruptible_retryFrom rfl once _ _
  refine posted.bind fun payload => ?_
  split
  · refine Activity.Interruptible.bind trivial fun response => ?_
    dsimp only
    split
    · exact Activity.Interruptible.bind trivial fun code => trivial
    · trivial
  · trivial

theorem Provider.interruptible_transport (provider : Provider) :
    provider.transport.Interruptible := by
  intro method params
  have requested : (Provider.request method params).Interruptible := by
    refine (Activity.Interruptible.perform _).settle.andThen (fun outcome => ?_) ?_
    · cases outcome <;> trivial
    · rfl
  refine requested.bind fun raw => ?_
  exact Activity.Interruptible.bind trivial fun response => trivial

/-- The transports that are offered: one asks a node directly, one posts every request to a server
under some number, and one hands it to a provider. -/
inductive Transport.IsOffered : Transport → Prop where
  | direct : IsOffered .direct
  | http {transport : Transport} {config : TransportConfig}
      (posts : ∀ method params, ∃ id,
        transport.send method params = Http.send config { id, method, params }) :
      IsOffered transport
  | provider (provider : Provider) : IsOffered provider.transport

theorem Transport.IsOffered.interruptible {transport : Transport} (offered : transport.IsOffered) :
    transport.Interruptible := by
  cases offered with
  | direct => exact Transport.interruptible_direct
  | http posts =>
      intro method params
      rcases posts method params with ⟨id, same⟩
      rw [same]
      exact Http.interruptible_send _ _
  | provider provider => exact Provider.interruptible_transport provider

namespace Pipeline

variable {α : Type} {pipeline : Pipeline} {pending : PendingTransaction} {bound : WaitBound}
  {limit now : Rat}

theorem endsBy_timeOut {timeout blocks : Option Value} :
    (timeOut pending timeout blocks : Activity α).EndsBy limit now :=
  trivial

section Steps

variable (interruptible : pipeline.transport.Interruptible) (due : bound.deadline = some limit)
  (inTime : now ≤ limit)

section Bounded

include due

theorem endsBy_bounded (inTime : now ≤ limit) {step : Activity α}
    (interruptible : step.Interruptible) : (bounded pending bound step).EndsBy limit now := by
  rw [bounded, due]
  refine interruptible.endsBy_boundedBy.handle inTime fun failure moment _ _ => ?_
  split <;> trivial

theorem endsBy_pause : (pause pending bound).EndsBy limit now := by
  rw [pause, due]
  change (ite _ _ _ : Activity Unit).EndsBy limit now
  split
  · exact endsBy_timeOut
  · next remains =>
      -- The pause is cut at what remains of the wait.
      have short : pauseWithin pending.policy.pollInterval (limit - now) ≤ limit - now := by
        unfold pauseWithin
        split <;> grind
      exact .sleep (by grind)

end Bounded

section Replay

include interruptible

theorem interruptible_headNumber : pipeline.headNumber.Interruptible :=
  (interruptible _ _).bind fun _ => trivial

theorem interruptible_replayCall : (pipeline.replayCall pending).Interruptible := by
  unfold replayCall
  split
  · trivial
  · refine (interruptible _ _).bind fun found => ?_
    dsimp only
    split
    · trivial
    · refine Activity.Interruptible.bind trivial fun sender => ?_
      refine Activity.Interruptible.bind trivial fun input => ?_
      refine Activity.Interruptible.bind trivial fun recipient => ?_
      refine Activity.Interruptible.bind trivial fun value => ?_
      exact Activity.Interruptible.bind trivial fun gas => trivial

theorem interruptible_replayReason {block : Int} :
    (pipeline.replayReason pending block).Interruptible := by
  have replays : (pipeline.replay pending block).Interruptible := by
    refine (interruptible_replayCall interruptible).bind fun call => ?_
    refine Activity.Interruptible.bind trivial fun blockText => ?_
    exact (interruptible _ _).bind fun answer => trivial
  refine replays.andThen (fun outcome => ?_) rfl
  split
  · trivial
  · split
    · exact Activity.Interruptible.bind trivial fun revert => trivial
    · trivial
  · trivial

include due inTime

theorem endsBy_revert {block : Int} :
    (pipeline.revert pending block bound : Activity α).EndsBy limit now := by
  refine EndsBy.bind trivial inTime fun _ moment _ before => ?_
  refine EndsBy.bind ?_ before fun reason _ _ _ => trivial
  rw [due]
  refine (interruptible_replayReason interruptible).endsBy_boundedBy.handle before
    fun failure _ _ _ => ?_
  split <;> trivial

theorem endsBy_headNumber : (bounded pending bound pipeline.headNumber).EndsBy limit now :=
  endsBy_bounded due inTime (interruptible_headNumber interruptible)

theorem endsBy_checkBlocks {firstHead : Option Int} :
    (pipeline.checkBlocks pending bound firstHead).EndsBy limit now := by
  rw [checkBlocks]
  split
  · trivial
  · refine (endsBy_headNumber interruptible due inTime).bind inTime fun head _ _ _ => ?_
    split
    · trivial
    · split <;> trivial

theorem endsBy_withReceipt {receipt : Value} :
    (pipeline.withReceipt pending receipt bound).EndsBy limit now := by
  unfold withReceipt
  refine EndsBy.bind trivial inTime fun number _ _ before => ?_
  refine EndsBy.bind trivial before fun block _ _ before => ?_
  refine EndsBy.bind ?_ before fun _ _ _ before => ?_
  · rw [noteMined]
    split <;> trivial
  · refine EndsBy.bind trivial before fun _ _ _ before => ?_
    refine EndsBy.bind trivial before fun word _ _ before => ?_
    refine EndsBy.bind trivial before fun status _ _ before => ?_
    split
    · exact endsBy_revert interruptible due before
    · trivial

theorem endsBy_poll {firstHead : Option Int} :
    (pipeline.poll bound pending firstHead).EndsBy limit now := by
  refine (endsBy_bounded due inTime (interruptible _ _)).bind inTime fun receipt _ _ before => ?_
  split
  · refine EndsBy.bind ?_ before fun later _ _ before => ?_
    · rw [withoutReceipt]
      split <;> trivial
    · exact (endsBy_checkBlocks interruptible due before).bind before fun _ _ _ _ => trivial
  · refine (endsBy_withReceipt interruptible due before).bind before fun mined _ _ before => ?_
    refine (endsBy_headNumber interruptible due before).bind before fun head _ _ before => ?_
    refine EndsBy.bind trivial before fun reached _ _ _ => ?_
    split <;> trivial

/-- Each round of a wait ends by the deadline, so the wait does. -/
theorem endsBy_watch {rounds : Nat} {firstHead : Option Int} :
    (pipeline.watch bound rounds pending firstHead).EndsBy limit now := by
  induction rounds generalizing pending firstHead now with
  | zero => trivial
  | succ rounds ih =>
      rw [watch]
      refine (endsBy_poll interruptible due inTime).bind inTime fun shown _ _ before => ?_
      cases shown with
      | confirmed later => trivial
      | unconfirmed later first =>
          exact (endsBy_pause due).bind before fun _ _ _ before => ih before

end Replay

end Steps

theorem endsBy_wait {rounds : Nat} (interruptible : pipeline.transport.Interruptible)
    (due : (WaitBound.start pending.policy.timeout now).deadline = some limit)
    (inTime : now ≤ limit) : (pipeline.wait pending rounds).EndsBy limit now :=
  EndsBy.within (endsBy_watch interruptible due inTime)

theorem deadline_start {timeout : Option Binary64} {limit : Binary64} {seconds : Rat}
    (limited : timeout = some limit) (finite : limit.toRat? = some seconds) (start : Rat) :
    (WaitBound.start timeout start).deadline = some (start + seconds) := by
  rw [limited]
  change (limit.toRat? >>= fun seconds => some (start + seconds)) = _
  rw [finite]
  rfl

/-- Over every transport that is offered a wait with a limit of time comes to its end in time,
whatever a world does. -/
theorem wait_ends_of_isOffered {State : Type} (world : World State) {timeout : Binary64}
    {seconds : Rat} (start : Rat) (cancelAt : Option Rat) (state : State) (rounds : Nat)
    (offered : pipeline.transport.IsOffered) (limited : pending.policy.timeout = some timeout)
    (finite : timeout.toRat? = some seconds) (ahead : 0 ≤ seconds) :
    ((pipeline.wait pending rounds).run world cancelAt start state).2.1 ≤ start + seconds ∧
      ((pipeline.wait pending rounds).run world cancelAt start state).1 ≠ .stuck := by
  have due := deadline_start limited finite start
  have inTime : start ≤ start + seconds := by grind
  exact ((endsBy_wait offered.interruptible due inTime).run world inTime cancelAt state).2

/-- Whatever a world does, a wait with a limit of time is over when the limit is reached: nothing
that it asks and no pause is open after that. An infinite limit is never reached. -/
theorem wait_endsBy_timeout {State : Type} (world : World State) {timeout : Binary64}
    {seconds : Rat} (start : Rat) (cancelAt : Option Rat) (state : State) (rounds : Nat)
    (interruptible : pipeline.transport.Interruptible)
    (limited : pending.policy.timeout = some timeout) (finite : timeout.toRat? = some seconds)
    (ahead : 0 ≤ seconds) :
    (∀ label ∈ (pipeline.wait pending rounds).trace world cancelAt start state,
        label.EndsBy (start + seconds)) ∧
      ((pipeline.wait pending rounds).run world cancelAt start state).2.1 ≤ start + seconds ∧
      ((pipeline.wait pending rounds).run world cancelAt start state).1 ≠ .stuck := by
  have due := deadline_start limited finite start
  have inTime : start ≤ start + seconds := by grind
  exact (endsBy_wait interruptible due inTime).run world inTime cancelAt state

section Examples

/-- A world in which nothing is ever answered. -/
def silentWorld : World Unit where
  respond _ _ query := {
    delay := none
    answer := match query with
      | .sleep _ => ()
      | .call _ _ | .sign _ | .provide _ _ | .provideBatch _ => .ok .null
      | .batch _ => .ok []
      | .post _ => .ok default
      | .disconnect => .ok ()
    next := () }
  observe _ _ := ()

/-- A transaction that is waited for for five seconds, and polled once only. -/
def hurried : PendingTransaction :=
  { txHash := .text "0x01"
    policy := { pollInterval := .infinite false, timeout := some (.ofInt 5) } }

theorem wait_endsBy_timeout_silent :
    let wait := plain.wait hurried 2
    plain.transport.Interruptible ∧ hurried.policy.timeout = some (.ofInt 5) ∧
      (Binary64.ofInt 5).toRat? = some 5 ∧ (0 : Rat) ≤ 5 ∧
      (∀ label ∈ wait.trace silentWorld none 1 (), label.EndsBy (1 + 5)) ∧
      (wait.run silentWorld none 1 ()).2.1 ≤ 1 + 5 ∧
      (wait.run silentWorld none 1 ()).1 ≠ .stuck := by
  have interruptible : plain.transport.Interruptible := Transport.interruptible_direct
  have finite : (Binary64.ofInt 5).toRat? = some 5 := by decide +kernel
  have ahead : (0 : Rat) ≤ 5 := by decide +kernel
  exact ⟨interruptible, rfl, finite, ahead,
    wait_endsBy_timeout silentWorld 1 none () 2 interruptible rfl finite ahead⟩

end Examples

end Pipeline

end ContractClient
