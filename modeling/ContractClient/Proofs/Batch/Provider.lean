import ContractClient.Proofs.Batch.Answers

/-!
# Batches over a provider

A provider numbers its replies by a counter of its own, if at all; a flush compares their numbers
with those of the batch. `Batch.History.flush_delivers_iff` says when a flush over a provider
delivers the replies: exactly if each of them carries the number of its request or none, and no
error among them has a text that cannot be shown (`Provider.Fits`). The counters need not agree
(`Batch.History.not_delivers_ownNumber`).
-/

namespace ContractClient

namespace Batch

open Provider (Serves Conveys Numbers Fits Reads ReadsAll Hears)

section Conclusions

variable {requests : List SentRequest} {sent : SentRequest} {replies : List Dict} {reply : Dict}
  {responses : List RpcResponse} {response : RpcResponse} {batch : Batch}

theorem length_of_readsAll {requests : List RpcRequest}
    (reads : ReadsAll requests replies responses) :
    replies.length = requests.length ∧ responses.length = requests.length := by
  induction reads with
  | nil => exact ⟨rfl, rfl⟩
  | cons first rest ih => exact ⟨congrArg (· + 1) ih.1, congrArg (· + 1) ih.2⟩

theorem reportable_of_readsAll {requests : List RpcRequest}
    (reads : ReadsAll requests replies responses) :
    ∀ response ∈ responses, response.isError = true → response.error.IsReportable := by
  induction reads with
  | nil => exact List.forall_mem_nil _
  | cons first rest ih => exact List.forall_mem_cons.mpr ⟨first.reportable, ih⟩

theorem exists_response (reads : ReadsAll (requests.map Prod.snd) replies responses)
    (member : (sent, reply) ∈ requests.zip replies) :
    ∃ response, (sent, response) ∈ requests.zip responses ∧ Reads sent.2 reply response := by
  induction requests generalizing replies responses with
  | nil => simp at member
  | cons first requests ih =>
      cases reads with
      | cons read rest =>
          rw [List.zip_cons_cons, List.mem_cons, Prod.mk.injEq] at member
          rcases member with ⟨rfl, rfl⟩ | later
          · exact ⟨_, List.mem_cons_self, read⟩
          · rcases ih rest later with ⟨response, found, read⟩
            exact ⟨response, List.mem_cons_of_mem _ found, read⟩

theorem exists_reply (reads : ReadsAll (requests.map Prod.snd) replies responses)
    (member : (sent, response) ∈ requests.zip responses) :
    ∃ reply, (sent, reply) ∈ requests.zip replies ∧ Reads sent.2 reply response := by
  induction requests generalizing replies responses with
  | nil => simp at member
  | cons first requests ih =>
      cases reads with
      | cons read rest =>
          rw [List.zip_cons_cons, List.mem_cons, Prod.mk.injEq] at member
          rcases member with ⟨rfl, rfl⟩ | later
          · exact ⟨_, List.mem_cons_self, read⟩
          · rcases ih rest later with ⟨reply, found, read⟩
            exact ⟨reply, List.mem_cons_of_mem _ found, read⟩

theorem mem_zip_map_snd {α : Type} {request : RpcRequest} {others : List α} {other : α} :
    (request, other) ∈ (requests.map Prod.snd).zip others ↔
      ∃ handle, ((handle, request), other) ∈ requests.zip others := by
  rw [List.zip_map_left, List.mem_map]
  constructor
  · rintro ⟨⟨⟨handle, own⟩, found⟩, member, ⟨⟩⟩
    exact ⟨handle, member⟩
  · rintro ⟨handle, member⟩
    exact ⟨_, member, rfl⟩

theorem correlates_iff (reads : ReadsAll (requests.map Prod.snd) replies responses) :
    Correlates (requests.map Prod.snd) responses ↔
      ∀ sent reply, (sent, reply) ∈ requests.zip replies → Numbers sent.2 reply := by
  constructor
  · intro correlates sent reply member
    rcases exists_response reads member with ⟨response, found, read⟩
    exact read.echoes.mp (correlates.2 _ _ (mem_zip_map_snd.mpr ⟨sent.1, found⟩))
  · intro numbers
    refine ⟨(length_of_readsAll reads).2, fun request response member => ?_⟩
    rcases mem_zip_map_snd.mp member with ⟨handle, found⟩
    rcases exists_reply reads found with ⟨reply, here, read⟩
    exact read.echoes.mpr (numbers _ reply here)

theorem kind_of_desync {requests : List RpcRequest} {fault : Fault}
    (found : desync? requests responses = .ok (some fault)) : fault.kind = .batchDesync := by
  rw [desync?] at found
  split at found
  · cases found
    rfl
  · split at found
    · cases found
    · rcases Outcome.bind_eq_ok_iff.mp found with ⟨_, _, same⟩
      cases same
      rfl

theorem kind_of_conveys {request : RpcRequest} {fault : Fault}
    (conveys : Conveys request reply (.error (.fault fault))) : fault.kind = .rpc := by
  generalize same : (.error (.fault fault) : Outcome Value) = outcome at conveys
  cases conveys <;> cases same <;> rfl

/-- Every request has got what its own reply says. -/
structure DeliversReplies (requests : List SentRequest) (replies : List Dict) (batch : Batch) :
    Prop where
  complete : replies.length = requests.length
  own : ∀ sent reply, (sent, reply) ∈ requests.zip replies →
    ∃ outcome, Conveys sent.2 reply outcome ∧
      batch.handles[sent.1]? = some (.resolved outcome)

section Exchanges

open Activity

variable {resolutions : Resolutions} {size : Nat} {ending : Ending (Resolutions × Outcome Nat)}
  (waiting : ∀ sent ∈ requests, batch.handles[sent.1]? = some .waiting)
  (distinct : (requests.map Prod.fst).Nodup)

include waiting distinct

theorem getElem?_of_everyHandle (handles : resolutions.map Prod.fst = requests.map Prod.fst)
    (member : sent ∈ requests) {outcome : Outcome Value} (found : (sent.1, outcome) ∈ resolutions) :
    (batch.resolve resolutions).handles[sent.1]? = some (.resolved outcome) :=
  getElem?_resolve_of_mem (waiting sent member) (handles ▸ distinct) found

theorem deliversReplies_of_correlates
    (reads : ReadsAll (requests.map Prod.snd) replies responses)
    (correlates : Correlates (requests.map Prod.snd) responses) :
    ∃ resolutions, conclude requests (.ok responses) = (resolutions, .ok requests.length) ∧
      DeliversReplies requests replies (batch.resolve resolutions) := by
  have lengths := length_of_readsAll reads
  rw [List.length_map] at lengths
  refine ⟨_, conclude_of_correlates correlates (reportable_of_readsAll reads), lengths.1, ?_⟩
  intro sent reply member
  rcases exists_response reads member with ⟨response, found, read⟩
  refine ⟨ownReply sent.2 response, read.own, ?_⟩
  apply getElem?_of_everyHandle waiting distinct
  · rw [List.map_map]
    exact map_fst_zip_of_length lengths.2
  · exact (List.of_mem_zip found).1
  · exact List.mem_map.mpr ⟨(sent, response), found, rfl⟩

theorem correlates_of_deliversReplies
    (reads : ReadsAll (requests.map Prod.snd) replies responses)
    (concluded : conclude requests (.ok responses) = (resolutions, .ok size))
    (delivers : DeliversReplies requests replies (batch.resolve resolutions)) :
    Correlates (requests.map Prod.snd) responses := by
  apply (correlates_iff reads).mpr
  intro sent reply member
  rw [conclude] at concluded
  cases checked : desync? (requests.map Prod.snd) responses with
  | error failure => simp [checked] at concluded
  | ok desync =>
      cases desync with
      | none =>
          have correlates := desync?_eq_ok_none_iff.mp checked
          exact (correlates_iff reads).mp correlates sent reply member
      | some fault =>
          -- Responses that do not belong to the batch fail all handles alike.
          simp only [checked, Prod.mk.injEq] at concluded
          rcases concluded with ⟨rfl, _⟩
          rcases delivers.own sent reply member with ⟨outcome, conveys, resolved⟩
          have inRequests : sent ∈ requests := (List.of_mem_zip member).1
          have listed : (sent.1, .error (.fault fault)) ∈ failAll requests (.fault fault) :=
            List.mem_map.mpr ⟨sent, inRequests, rfl⟩
          have failed := getElem?_of_everyHandle waiting distinct map_fst_failAll inRequests listed
          have same : outcome = .error (.fault fault) := by simpa [resolved] using failed
          rw [same] at conveys
          have clash := (kind_of_conveys conveys).symm.trans (kind_of_desync checked)
          cases clash

theorem delivers_iff_of_hears {heard : Ending (List RpcResponse)}
    (hears : Hears (requests.map Prod.snd) replies heard)
    (concludes : Concludes requests heard ending) :
    (∃ resolutions, ending = .ended (.ok (resolutions, .ok requests.length)) ∧
        DeliversReplies requests replies (batch.resolve resolutions)) ↔
      ∀ sent reply, (sent, reply) ∈ requests.zip replies → Fits sent.2 reply := by
  cases hears with
  | silent member nothing =>
      rcases mem_zip_map_snd.mp member with ⟨handle, found⟩
      constructor
      · rintro ⟨_, _, delivers⟩
        rcases delivers.own _ _ found with ⟨outcome, conveys, _⟩
        exact absurd ⟨outcome, conveys⟩ nothing
      · intro fits
        exact absurd (fits _ _ found).conveys nothing
  | @all responses reads =>
      cases concludes
      constructor
      · rintro ⟨resolutions, ended, delivers⟩ sent reply member
        have concluded : conclude requests (.ok responses) =
            (resolutions, .ok requests.length) := by simpa using ended
        have correlates :=
          correlates_of_deliversReplies waiting distinct reads concluded delivers
        rcases delivers.own sent reply member with ⟨outcome, conveys, _⟩
        exact ⟨(correlates_iff reads).mp correlates sent reply member, outcome, conveys⟩
      · intro fits
        have correlates := (correlates_iff reads).mpr fun sent reply member =>
          (fits sent reply member).numbers
        rcases deliversReplies_of_correlates waiting distinct reads correlates with
          ⟨resolutions, concluded, delivers⟩
        exact ⟨resolutions, by rw [concluded], delivers⟩

/-- As long as the handles of requests wait, an exchange over a provider delivers the replies
exactly if each of them fits its request. -/
theorem exchange_delivers_iff {provider : Provider} {start stop : Rat} {labels : List Label}
    {served : List ((String × List Value) × Dict)}
    (run : Run (exchange provider.transport requests) start labels ending stop)
    (serves : Serves labels served) :
    ∃ replies, replies.length ≤ requests.length ∧
      served = (requests.map fun sent => sent.2.question).zip replies ∧
        ((∃ resolutions, ending = .ended (.ok (resolutions, .ok requests.length)) ∧
            DeliversReplies requests replies (batch.resolve resolutions)) ↔
          ∀ sent reply, (sent, reply) ∈ requests.zip replies → Fits sent.2 reply) := by
  rcases exchange_inv run with ⟨rfl, rfl, rfl⟩ |
    ⟨event, sent, notes, heard, sends, concludes, rfl, told⟩
  · cases serves
    refine ⟨[], Nat.le_refl 0, rfl, fun _ _ _ member => absurd member List.not_mem_nil, fun _ => ?_⟩
    exact ⟨[], rfl, rfl, fun _ _ member => absurd member List.not_mem_nil⟩
  · cases serves with
    | told rest =>
        rcases rest.append_inv with ⟨early, late, servesSent, servesNotes, rfl⟩
        cases servesNotes.eq_nil told
        rcases Provider.sendBatch_inv sends servesSent with ⟨replies, length, rfl, hears⟩
        rw [List.length_map] at length
        refine ⟨replies, length, ?_, delivers_iff_of_hears waiting distinct hears concludes⟩
        rw [List.append_nil, List.map_map]
        rfl

end Exchanges

end Conclusions

section Flushes

open Activity

variable {start stop : Rat} {labels : List Label} {ending : Ending (Batch × Outcome Nat)}

namespace History

theorem Slotted.distinct_pending {history : History} (slotted : Slotted history) :
    ((sentRequests history.batch.pending).map Prod.fst).Nodup := by
  have places := slotted.distinct_places
  rw [History.places, List.flatten_cons, List.map_append] at places
  exact map_fst_sentRequests_sublist.nodup places.of_append_left

theorem isPrefix_map_fst_zip {α β : Type} {left : List α} {right : List β} :
    (left.zip right).map Prod.fst <+: left := by
  induction left generalizing right with
  | nil => exact List.prefix_refl []
  | cons first left ih =>
      cases right with
      | nil => exact List.nil_prefix
      | cons other right => exact List.cons_prefix_cons.mpr ⟨rfl, ih⟩

/-- A provider is asked for the requests of a flush in their order, and the flush delivers its
replies exactly if each of them fits its request. -/
theorem flush_delivers_iff {actions : List Action} {provider : Provider}
    {served : List ((String × List Value) × Dict)}
    (flushes : Run ((run actions).batch.flush provider.transport) start labels ending stop)
    (serves : Serves labels served) :
    let requests := sentRequests (run actions).batch.pending
    let replies := served.map Prod.snd
    served.map Prod.fst <+: requests.map (fun sent => sent.2.question) ∧
      ((∃ after, ending = .ended (.ok (after, .ok requests.length)) ∧
          DeliversReplies requests replies after) ↔
        ∀ sent reply, (sent, reply) ∈ requests.zip replies → Fits sent.2 reply) := by
  intro requests replies
  rcases flush_inv flushes with ⟨exchanged, exchanges, follows⟩
  have waiting : ∀ sent ∈ requests, (run actions).batch.take.1.handles[sent.1]? = some .waiting :=
    (Settled.run actions).pending
  have distinct : (requests.map Prod.fst).Nodup := (Slotted.run actions).distinct_pending
  rcases exchange_delivers_iff waiting distinct exchanges serves with ⟨own, length, rfl, delivers⟩
  have sameReplies : replies = own := List.map_snd_zip (by simpa using length)
  rw [sameReplies]
  refine ⟨isPrefix_map_fst_zip, Iff.trans ⟨?_, ?_⟩ delivers⟩
  · rintro ⟨after, rfl, delivered⟩
    rcases follows with ⟨⟨resolutions, outcome⟩, rfl, ⟨⟩⟩ | abandons
    · exact ⟨resolutions, rfl, delivered⟩
    · cases abandons
  · rintro ⟨resolutions, rfl, delivered⟩
    rcases follows with ⟨result, ⟨⟩, rfl⟩ | abandons
    · exact ⟨_, rfl, delivered⟩
    · cases abandons

section Examples

theorem run_provide {α : Type} {method : String} {params : List Value}
    {resume : Reply (Outcome Value) → Activity α} {ending : Ending α} (outcome : Outcome Value)
    (next : Run (resume (.answer outcome)) start labels ending stop) :
    Run (.ask (.provide method params) none resume) start
      (.asked (.provide method params) start start (.answer outcome) :: labels) ending stop :=
  .ask (by simp) (.atOnce rfl) next

/-- A batch with an earlier flush, after which two requests wait. -/
def countedOn : List Action :=
  [.enqueue "eth_chainId" [], .beginFlush, .endFlush 0 (.ok [{ result := .text "0x1" }]),
    .enqueue "eth_blockNumber" [], .enqueue "eth_gasPrice" []]

/-- A reply with the number of its request, and an error without a number. -/
def numberedReplies : List Dict :=
  [[("id", .int 2), ("result", .text "0x10")],
    [("error", .dict [("code", .int (-32000)), ("message", .text "busy")])]]

theorem fits_numberedReplies :
    ∀ pair ∈ (sentRequests (run countedOn).batch.pending).zip numberedReplies,
      Fits pair.1.2 pair.2 := by
  refine List.forall_mem_cons.mpr ⟨⟨?_, _, .result rfl⟩, List.forall_mem_singleton.mpr ⟨nofun, _,
    .error rfl rfl⟩⟩
  rintro _ ⟨⟩
  exact Or.inr rfl

theorem flush_delivers_iff_numbered :
    let requests := sentRequests (run countedOn).batch.pending
    let served := (requests.map fun sent => sent.2.question).zip numberedReplies
    ∃ labels ending stop,
      Run ((run countedOn).batch.flush ({} : Provider).transport) 0 labels ending stop ∧
        Serves labels served ∧ ∃ after, ending = .ended (.ok (after, .ok 2)) ∧
          DeliversReplies requests numberedReplies after := by
  intro requests served
  obtain ⟨labels, ending, flushes, serves⟩ : ∃ labels ending,
      Run ((run countedOn).batch.flush ({} : Provider).transport) 0 labels ending 0 ∧
        Serves labels served :=
    ⟨_, _, .tell (.tell (run_provide (.ok (.dict numberedReplies[0]))
      (run_provide (.ok (.dict numberedReplies[1])) .done))), .told (.told (.one (.one .nil)))⟩
  have delivers := (flush_delivers_iff flushes serves).2.mpr fun sent reply member =>
    fits_numberedReplies (sent, reply) member
  exact ⟨labels, ending, 0, flushes, serves, delivers⟩

def onlyRequest : SentRequest :=
  (0, ⟨1, "eth_chainId", []⟩)

/-- The reply of a provider that counts from zero, and the response that is made of it. -/
def zerothReply : Dict :=
  [("jsonrpc", .text "2.0"), ("id", .int 0), ("result", .text "0x1")]

def zerothResponse : RpcResponse :=
  ⟨.int 0, .text "0x1", .null⟩

/-- A batch counts from one, and takes the number for that of another request. -/
theorem not_delivers_ownNumber :
    ¬∀ (actions : List Action) (provider : Provider) (start stop : Rat) (labels : List Label)
        (ending : Ending (Batch × Outcome Nat)) (served : List ((String × List Value) × Dict)),
      Run ((run actions).batch.flush provider.transport) start labels ending stop →
        Serves labels served →
          ∃ after, ending = .ended (.ok (after, .ok served.length)) ∧
            DeliversReplies (sentRequests (run actions).batch.pending) (served.map Prod.snd)
              after := by
  intro always
  obtain ⟨sent, sends, served⟩ : ∃ sent,
      Run (({} : Provider).transport.sendBatch ([onlyRequest].map Prod.snd)) 0 sent
          (.ended (.ok [zerothResponse])) 0 ∧
        Serves sent [(onlyRequest.2.question, zerothReply)] :=
    ⟨_, .tell (run_provide (.ok (.dict zerothReply)) .done), .told (.one .nil)⟩
  rcases exchange_run rfl sends .ended with ⟨event, notes, exchanges, told⟩
  rcases concluded : conclude [onlyRequest] (.ok [zerothResponse]) with ⟨resolutions, outcome⟩
  rw [concluded] at exchanges
  have serves : Serves (.told 0 event :: (sent ++ notes) ++ [])
      [(onlyRequest.2.question, zerothReply)] := by
    rw [List.append_nil]
    exact .told (served.append_told told)
  rcases always [.enqueue "eth_chainId" []] {} 0 0 _ _ _ (exchanges.andThen .done) serves with
    ⟨after, ended, delivers⟩
  cases ended
  have waiting : ∀ sent ∈ [onlyRequest],
      (run [.enqueue "eth_chainId" []]).batch.take.1.handles[sent.1]? = some .waiting :=
    List.forall_mem_singleton.mpr rfl
  have reads : ReadsAll ([onlyRequest].map Prod.snd) [zerothReply] [zerothResponse] :=
    .cons ⟨Provider.numbers_iff rfl (Or.inr rfl), .result rfl, nofun⟩ .nil
  have correlates := correlates_of_deliversReplies waiting (List.nodup_singleton _) reads
    concluded delivers
  cases correlates.2 onlyRequest.2 zerothResponse List.mem_cons_self

end Examples

end History

end Flushes

end Batch

end ContractClient
