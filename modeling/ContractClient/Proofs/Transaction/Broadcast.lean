import ContractClient.Proofs.Signing.Agent
import ContractClient.Proofs.Transaction.Build

/-!
# Broadcasts

A transaction is handed to a node in one stage only, in one request, and what is handed over is what
the signer has returned for the request that was built. The other stages cannot do so, however they
end: a build fills gaps, a signer asks a node or an agent for a signature, and a wait asks for
receipts, for heads and for what becomes of a failed transaction when it is run again
(`Pipeline.broadcasts_once`).
-/

namespace ContractClient

open Activity

/-- What nodes are asked to broadcast, in order. -/
def broadcasts (labels : List Label) : List (List Value) :=
  ((requests labels).filter (·.1 = "eth_sendRawTransaction")).map Prod.snd

@[simp]
theorem broadcasts_append (before after : List Label) :
    broadcasts (before ++ after) = broadcasts before ++ broadcasts after := by
  rw [broadcasts, requests_append, List.filter_append, List.map_append, broadcasts, broadcasts]

/-- Nothing is broadcast by such a question. -/
def Query.IsHarmless (query : Query) : Prop :=
  ∀ request ∈ query.requests, request.1 ≠ "eth_sendRawTransaction"

theorem broadcasts_eq_nil {labels : List Label}
    (harmless : ∀ query ∈ queries labels, query.IsHarmless) : broadcasts labels = [] := by
  rw [broadcasts, List.map_eq_nil_iff, List.filter_eq_nil_iff]
  intro request member
  rcases List.mem_flatMap.mp member with ⟨query, asked, inQuery⟩
  simpa using harmless query asked request inQuery

theorem Query.IsCallOf.isHarmless {allowed : String → Prop} {query : Query}
    (call : query.IsCallOf allowed) (others : ¬allowed "eth_sendRawTransaction") :
    query.IsHarmless := by
  intro request member
  cases query with
  | call method params =>
      rw [List.mem_singleton.mp member]
      rintro rfl
      exact others call
  | sleep seconds => cases member
  | _ => exact call.elim

namespace Pipeline

variable {pipeline : Pipeline} {request built : TransactionRequest} {pending : PendingTransaction}
  {policy : Option ConfirmationPolicy} {bound : WaitBound} {rounds : Nat} {start stop : Rat}
  {labels : List Label}

/-- A question for a signature: a call of the node that manages the account, or a question to an
agent. -/
def IsSigning (query : Query) : Prop :=
  query.IsCallOf (· = "eth_signTransaction") ∨ ∃ digest, query = .sign digest

theorem IsSigning.isHarmless {query : Query} (signing : IsSigning query) : query.IsHarmless := by
  rcases signing with call | ⟨digest, rfl⟩
  · exact call.isHarmless (by decide)
  · exact fun _ => nofun

theorem asks_signOffline {address : Address} {unavailable : List FailureClass} {digest : Bytes} :
    (Signer.signOffline address unavailable digest).Asks IsSigning := by
  have asks : (Activity.perform (.sign digest)).Asks IsSigning :=
    Asks.perform (Or.inr ⟨digest, rfl⟩)
  have attempts : (Activity.perform (.sign digest)).settle.attempt.Asks IsSigning :=
    asks.settle.andThen fun outcome => Asks.lift (.ok outcome)
  refine (attempts.bind fun outcome => ?_).bind fun reply => Signer.asks_acceptReply reply
  cases outcome with
  | ok reply => trivial
  | error failure =>
      dsimp only
      split <;> trivial

theorem asks_signTransaction {signer : Signer} :
    (signer.signTransaction .direct request).Asks IsSigning := by
  unfold Signer.signTransaction
  refine (Asks.lift _).bind fun checked => ?_
  cases signer with
  | keyed key => exact (Asks.lift _).bind fun _ => (Asks.lift _).bind fun raw => trivial
  | nodeManaged address =>
      have asks : (Transport.direct.send "eth_signTransaction" [.dict checked.toRpc]).Asks
          IsSigning := Asks.settle (Asks.perform (Or.inl rfl))
      exact asks.bind fun reply => (Asks.lift _).bind fun raw => trivial
  | offline address unavailable =>
      exact (Asks.lift _).bind fun digest => asks_signOffline.bind fun signature => Asks.lift _

/-- The methods of a wait. -/
def watching : List String :=
  ["eth_getTransactionReceipt", "eth_blockNumber", "eth_getTransactionByHash", "eth_call"]

theorem mem_watching_of_isFollowUp {method : String} (followUp : IsFollowUp method) :
    method ∈ watching := by
  rcases followUp with rfl | rfl | rfl <;> decide

theorem callsOnly_poll {firstHead : Option Int} :
    (pipeline.onNode.poll bound pending firstHead).CallsOnly (· ∈ watching) := by
  have asks : (Transport.direct.send "eth_getTransactionReceipt" [pending.txHash]).CallsOnly
      (· ∈ watching) := CallsOnly.send _ (by decide)
  refine (callsOnly_bounded asks).bind fun receipt => ?_
  split
  · exact callsOnly_pollWithoutReceipt.mono fun _ => mem_watching_of_isFollowUp
  · exact callsOnly_pollWithReceipt.mono fun _ => mem_watching_of_isFollowUp

theorem callsOnly_watch {firstHead : Option Int} :
    (pipeline.onNode.watch bound rounds pending firstHead).CallsOnly (· ∈ watching) := by
  induction rounds generalizing pending firstHead with
  | zero => trivial
  | succ rounds ih =>
      rw [watch]
      refine callsOnly_poll.bind fun shown => ?_
      cases shown with
      | confirmed pending => trivial
      | unconfirmed pending firstHead =>
          exact (silent_pause.mono fun _ => False.elim).bind fun _ => ih

theorem callsOnly_wait :
    (pipeline.onNode.wait pending rounds).CallsOnly (· ∈ watching) := by
  have waits : (Activity.now >>= fun now => pipeline.onNode.watch
      (WaitBound.start pending.policy.timeout now) rounds pending none).CallsOnly (· ∈ watching) :=
    Asks.bind (fun now => trivial) fun now => callsOnly_watch
  exact Asks.within waits _

/-- A run hands at most one transaction over to nodes, after a run of the build and one of the
signer, and what it hands over is what the signer has returned for what was built. -/
structure BroadcastsSigned (pipeline : Pipeline) (request : TransactionRequest) (start : Rat)
    (labels : List Label) : Prop where
  once : (broadcasts labels).length ≤ 1
  signed : ∀ params ∈ broadcasts labels, ∃ built raw building ready signing handed rest,
    labels = building ++ signing ++ rest ∧ params ∈ broadcasts rest ∧
      Run (pipeline.onNode.build request) start building (.ended (.ok built)) ready ∧
      Run (pipeline.signer.signTransaction .direct built) ready signing (.ended (.ok raw)) handed ∧
      params = [.text (Data.ofBytes raw)]

theorem BroadcastsSigned.of_nil (nothing : broadcasts labels = []) :
    BroadcastsSigned pipeline request start labels where
  once := by simp [nothing]
  signed := by simp [nothing]

theorem broadcasts_build {ending : Ending TransactionRequest}
    (run : Run (pipeline.onNode.build request) start labels ending stop) :
    broadcasts labels = [] := by
  apply broadcasts_eq_nil
  intro query member
  apply (callsOnly_build.of_run run query member).isHarmless
  rintro ⟨gap, same⟩
  cases gap <;> simp [TransactionRequest.Gap.method] at same

theorem broadcasts_wait {ending : Ending PendingTransaction}
    (run : Run (pipeline.onNode.wait pending rounds) start labels ending stop) :
    broadcasts labels = [] := by
  apply broadcasts_eq_nil
  intro query member
  exact (callsOnly_wait.of_run run query member).isHarmless (by decide)

theorem broadcasts_sign {ending : Ending Bytes}
    (run : Run (pipeline.onNode.sign request) start labels ending stop) :
    broadcasts labels = [] := by
  have asks : (pipeline.onNode.sign request).Asks IsSigning :=
    asks_signTransaction.bind fun raw => trivial
  apply broadcasts_eq_nil
  intro query member
  exact (asks.of_run run query member).isHarmless

theorem broadcasts_send_raw {params : List Value} {ending : Ending Value}
    (run : Run (Transport.direct.send "eth_sendRawTransaction" params) start labels ending stop) :
    broadcasts labels = [params] := by
  have asks : (Transport.direct.send "eth_sendRawTransaction" params).CallsOnly
      (· = "eth_sendRawTransaction") := CallsOnly.send _ rfl
  rw [broadcasts, requests_eq_calls (asks.of_run run)]
  have sent := Run.send_inv run
  generalize calls labels = asked at sent ⊢
  cases sent <;> simp [NodeCall.request]

theorem broadcasts_submit {raw : Bytes} {kept : Option TransactionRequest}
    {ending : Ending PendingTransaction}
    (run : Run (pipeline.onNode.submit raw policy kept) start labels ending stop) :
    broadcasts labels = [[.text (Data.ofBytes raw)]] := by
  rcases Run.bind_inv run with ⟨txHash, before, _, after, sendRun, noteRun, rfl⟩ |
    ⟨_, sendRun, _⟩
  · rcases Run.emit_bind_inv noteRun with ⟨_, doneRun, rfl⟩
    rcases Run.done_inv doneRun with ⟨rfl, _⟩
    rw [broadcasts_append, broadcasts_send_raw sendRun]
    rfl
  · exact broadcasts_send_raw sendRun

/-- What is done with a signed transaction. -/
theorem broadcasts_submit_wait {raw : Bytes} {kept : Option TransactionRequest}
    {ending : Ending PendingTransaction}
    (run : Run (pipeline.onNode.submit raw policy kept >>= fun pending =>
      pipeline.onNode.wait pending rounds) start labels ending stop) :
    broadcasts labels = [[.text (Data.ofBytes raw)]] := by
  rcases Run.bind_inv run with ⟨pending, submitting, _, waiting, submitRun, waitRun, rfl⟩ |
    ⟨_, submitRun, _⟩
  · rw [broadcasts_append, broadcasts_submit submitRun, broadcasts_wait waitRun, List.append_nil]
  · exact broadcasts_submit submitRun

/-- A signature is noted when the signer has returned it. -/
theorem sign_inv {raw : Bytes}
    (run : Run (pipeline.onNode.sign built) start labels (.ended (.ok raw)) stop) :
    ∃ signing noted, Run (pipeline.signer.signTransaction .direct built) start signing
      (.ended (.ok raw)) stop ∧ labels = signing ++ noted := by
  rcases Run.bind_inv run with ⟨_, signing, _, noted, signingRun, noteRun, rfl⟩ |
    ⟨_, _, abandons⟩
  · rcases Run.emit_bind_inv noteRun with ⟨_, doneRun, rfl⟩
    rcases Run.done_inv doneRun with ⟨rfl, same, rfl⟩
    cases same
    exact ⟨signing, _, signingRun, rfl⟩
  · cases abandons

theorem broadcastsSigned_send {ending : Ending PendingTransaction}
    (run : Run (pipeline.onNode.send request policy rounds) start labels ending stop) :
    BroadcastsSigned pipeline request start labels := by
  rcases Run.bind_inv run with ⟨built, building, ready, _, buildRun, restRun, rfl⟩ |
    ⟨_, buildRun, _⟩
  · have noneBuilding := broadcasts_build buildRun
    rcases Run.bind_inv restRun with ⟨raw, signing, signed, handing, signRun, handRun, rfl⟩ |
      ⟨_, signRun, _⟩
    · -- Of all the stages only the one that hands over what was signed broadcasts.
      have handed :
          broadcasts (building ++ (signing ++ handing)) = [[.text (Data.ofBytes raw)]] := by
        rw [broadcasts_append, broadcasts_append, noneBuilding, broadcasts_sign signRun,
          broadcasts_submit_wait handRun]
        rfl
      refine ⟨by simp [handed], ?_⟩
      intro params member
      rw [handed, List.mem_singleton] at member
      rcases sign_inv signRun with ⟨own, noted, ownRun, rfl⟩
      have later : params ∈ broadcasts (noted ++ handing) := by
        rw [broadcasts_append, broadcasts_submit_wait handRun, member]
        simp
      exact ⟨built, raw, building, ready, own, signed, noted ++ handing, by simp, later, buildRun,
        ownRun, member⟩
    · refine .of_nil ?_
      rw [broadcasts_append, noneBuilding, broadcasts_sign signRun, List.append_nil]
  · exact .of_nil (broadcasts_build buildRun)

/-- A transaction is broadcast at most once, and only as it was signed. Nothing is broadcast or
signed by a wait, whether it is waited for or runs as a task. -/
theorem broadcasts_once (pipeline : Pipeline) :
    (∀ request policy rounds start labels ending stop,
        Run (pipeline.onNode.send request policy rounds) start labels ending stop →
          BroadcastsSigned pipeline request start labels) ∧
      (∀ pending rounds start labels ending stop,
        Run (pipeline.onNode.wait pending rounds) start labels ending stop →
          ∀ query ∈ queries labels, query.IsCallOf (· ∈ watching)) ∧
        ∀ pending rounds name task, pipeline.onNode.spawnWait pending rounds = .ok (name, task) →
          ∀ start labels ending stop, Run task start labels ending stop →
            ∀ query ∈ queries labels, query.IsCallOf (· ∈ watching) := by
  refine ⟨?_, ?_, ?_⟩
  · intro request policy rounds start labels ending stop run
    exact broadcastsSigned_send run
  · intro pending rounds start labels ending stop run
    exact callsOnly_wait.of_run run
  · intro pending rounds name task spawned start labels ending stop run
    rcases Outcome.bind_eq_ok_iff.mp spawned with ⟨_, _, same⟩
    cases same
    exact callsOnly_wait.of_run run

section Examples

/-- A request that can be signed as it is. -/
def prepared : TransactionRequest where
  sender := some plain.signer.address
  gas := some 21000
  gasPrice := some 1
  nonce := some 0
  chainId := some 1

/-- The node signs for the account and takes the transaction, which is soon confirmed. -/
def managed : List NodeCall :=
  [⟨"eth_signTransaction", [.dict prepared.toRpc], some (.ok (.text "0x05"))⟩,
    ⟨"eth_sendRawTransaction", [.text "0x05"], some (.ok patient.txHash)⟩,
    .receipt patient.txHash (.dict (receiptIn 10)), .head (.int 12)]

theorem broadcasts_once_managed :
    ∃ labels ending stop, Run (plain.onNode.send prepared none 1) 0 labels ending stop ∧
      calls labels = managed ∧ BroadcastsSigned plain prepared 0 labels := by
  have reaches : Reaches (plain.onNode.send prepared none 1) 0 managed (.ended (.ok
      { patient.confirmedAt 10 (receiptIn 10) with request := some prepared })) := by
    refine .tell (.call (.tell (.tell ?_)))
    refine .call (.tell (.clock ?_))
    refine .call (.tell (.tell ?_))
    exact .call (.tell (.tell .done))
  rcases reaches with ⟨labels, stop, run, asked⟩
  exact ⟨labels, _, stop, run, asked, (broadcasts_once plain).1 _ _ _ _ _ _ _ run⟩

end Examples

end Pipeline

end ContractClient
