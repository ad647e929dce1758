import ContractClient.Event.Stream
import ContractClient.Proofs.Activity.Call
import ContractClient.Proofs.Dict
import ContractClient.Proofs.Outcome
import ContractClient.Proofs.Text.Integer

/-!
# Rounds of following

Whoever follows events asks a node one question in every round: for the logs of the next page, if
its first block has settled, and for the head otherwise. `EventSource.Round` says what was asked and
answered in a round and where it has led, `EventSource.Broken` what was asked in a round that has
failed. `EventSource.Followed` puts rounds together: it says what was asked from a cursor on, and
how it has ended (`EventSource.followed_of_run`).

The blocks that a request for logs covers are read back from the request (`NodeCall.range?`).
-/

namespace ContractClient

/-- The first and the last block of a request for logs. -/
def LogFilter.rangeOf (request : Value) : Outcome (Int × Int) := do
  let first ← Quantity.toInt (← request.member "fromBlock")
  let last ← Quantity.toInt (← request.member "toBlock")
  return (first, last)

theorem LogFilter.rangeOf_toRpc {filter : LogFilter} {first last : Int} {request : Value}
    (written : (filter.withRange (.int first) (.int last)).toRpc = .ok request) :
    rangeOf request = .ok (first, last) := by
  simp only [toRpc, withRange, Outcome.bind_eq_ok_iff, Outcome.pure_eq_ok, Except.ok.injEq]
    at written
  rcases written with ⟨_, firstBound, _, lastBound, rfl⟩
  have readBound : ∀ {block : Int} {bound : Option Value}, blockBound (.int block) = .ok bound →
      ∃ text, bound = some text ∧ Quantity.toInt text = .ok block := by
    intro block bound written
    by_cases negative : block < 0
    · simp [blockBound, blockParam, Quantity.ofValue, negative, Outcome.fault, Except.map]
        at written
    · simp only [blockBound, blockParam, Quantity.ofValue, negative, if_false, Except.map,
        Except.ok.injEq] at written
      refine ⟨_, written.symm, ?_⟩
      rw [Quantity.toInt_ofNat, Int.toNat_of_nonneg (by omega)]
  rcases readBound firstBound with ⟨firstText, rfl, firstRead⟩
  rcases readBound lastBound with ⟨lastText, rfl, lastRead⟩
  have different : "fromBlock" ≠ "toBlock" := by decide
  simp [rangeOf, Value.member, Dict.setSome, Dict.get?_set_self, Dict.get?_set_of_ne different,
    firstRead, lastRead]

namespace EventSource

/-- The events in the logs that a node answers with. -/
def readLogs (event : ContractEvent) (answer : Value) : Outcome (List DecodedEvent) :=
  (if answer.isTruthy then answer.elements else .ok []) >>= decodeLogs event

end EventSource

namespace NodeCall

/-- What is read from the answer to a call, if it can be read. -/
def readAs {α : Type} (read : Value → Outcome α) (call : NodeCall) : Option α :=
  match call.answer with
  | some (.ok answer) => (read answer).toOption
  | _ => none

/-- The first and the last block of a request for logs. -/
def range? (call : NodeCall) : Option (Int × Int) :=
  if call.method = "eth_getLogs" then
    match call.params with
    | [request] => (LogFilter.rangeOf request).toOption
    | _ => none
  else none

/-- The events in the logs that a node was asked for, if they can be read. -/
def events? (event : ContractEvent) (call : NodeCall) : Option (List DecodedEvent) :=
  if call.method = "eth_getLogs" then call.readAs (EventSource.readLogs event) else none

/-- The number of the newest block that a node was asked for, if it can be read. -/
def head? (call : NodeCall) : Option Int :=
  if call.method = "eth_blockNumber" then call.readAs Quantity.toInt else none

theorem head?_eq_readAs {call : NodeCall} (asks : call.method = "eth_blockNumber") :
    call.head? = call.readAs Quantity.toInt :=
  if_pos asks

end NodeCall

/-- The cursor at a block, as following leaves it. -/
def Cursor.at (head next : Int) : Cursor where
  head := head
  next := next
  name := .int next

/-- An activity has failed, or waits for an answer that never comes. -/
def Ending.IsFailed {α : Type} (ending : Ending α) : Prop :=
  (∃ failure, ending = .ended (.error failure)) ∨ ending = .stuck

namespace EventSource

open Activity

variable {α : Type} {source : EventSource} {filter : LogFilter} {options : FollowOptions}
  {limit rounds : Nat} {start stop : Rat} {labels : List Label} {cursor : Cursor}

/-- What is asked by a question whose answer is read, and how it ends. -/
inductive Asked (method : String) (params : List Value) (read : Value → Outcome α) :
    List NodeCall → Ending α → Prop where
  | read {answer : Option (Outcome Value)} {value : α}
      (found : NodeCall.readAs read ⟨method, params, answer⟩ = some value) :
      Asked method params read [⟨method, params, answer⟩] (.ended (.ok value))
  | failed {answer : Option (Outcome Value)} {ending : Ending α}
      (unread : NodeCall.readAs read ⟨method, params, answer⟩ = none) (failed : ending.IsFailed) :
      Asked method params read [⟨method, params, answer⟩] ending

theorem asked_of_run {method : String} {params : List Value} {read : Value → Outcome α}
    {next : Value → Activity α} {ending : Ending α}
    (reads : ∀ {answer start labels ending stop}, Run (next answer) start labels ending stop →
      calls labels = [] ∧ ending = .ended (read answer))
    (run : Run (Transport.direct.send method params >>= next) start labels ending stop) :
    Asked method params read (calls labels) ending := by
  rcases run.bind_inv with ⟨value, before, _, after, first, second, rfl⟩ | ⟨early, first, abandons⟩
  · have sent := first.send_inv
    rcases reads second with ⟨silent, rfl⟩
    rw [calls_append, silent, List.append_nil]
    generalize calls before = asked at sent ⊢
    generalize same : Ending.ended (Except.ok value) = answered at sent
    cases sent with
    | answered outcome =>
        cases same
        cases found : read value with
        | ok result => exact .read (by simp [NodeCall.readAs, found, Except.toOption])
        | error failure =>
            exact .failed (by simp [NodeCall.readAs, found, Except.toOption]) (Or.inl ⟨_, rfl⟩)
    | cancelled => cases same
    | stuck => cases same
  · have sent := first.send_inv
    generalize calls labels = asked at sent ⊢
    cases sent with
    | answered outcome =>
        cases abandons
        exact .failed rfl (Or.inl ⟨_, rfl⟩)
    | cancelled =>
        cases abandons
        exact .failed rfl (Or.inl ⟨_, rfl⟩)
    | stuck =>
        cases abandons
        exact .failed rfl (Or.inr rfl)

theorem asked_head {ending : Ending Int}
    (run : Run (headNumber .direct) start labels ending stop) :
    Asked "eth_blockNumber" [] Quantity.toInt (calls labels) ending := by
  refine asked_of_run (fun read => ?_) run
  rcases Run.done_inv read with ⟨rfl, rfl, _⟩
  exact ⟨rfl, rfl⟩

theorem asked_logs {ending : Ending (List DecodedEvent)}
    (run : Run (source.query .direct filter) start labels ending stop) :
    (calls labels = [] ∧ ending.IsFailed) ∨
      ∃ request, filter.toRpc = .ok request ∧
        Asked "eth_getLogs" [request] (readLogs source.event) (calls labels) ending := by
  rcases Run.lift_bind_inv run with ⟨request, written, run⟩ | ⟨failure, _, rfl, rfl⟩
  · refine Or.inr ⟨request, written, asked_of_run (fun {answer} _ _ _ _ read => ?_) run⟩
    -- What follows the answer asks nothing more: the logs are read and their number is noted.
    have decoding : ∀ {raw : List Value} {start labels ending stop},
        Run (do
          let events ← (liftM (decodeLogs source.event raw) : Activity (List DecodedEvent))
          Activity.note .debug logger "Fetched logs"
            [("event", .text source.event.name), ("count", .int events.length)]
          return events) start labels ending stop →
        calls labels = [] ∧ ending = .ended (decodeLogs source.event raw) := by
      intro raw start labels ending stop read
      rcases Run.lift_bind_inv read with ⟨events, decoded, read⟩ | ⟨failure, decoded, rfl, rfl⟩
      · rcases Run.emit_bind_inv read with ⟨after, last, rfl⟩
        rcases Run.done_inv last with ⟨rfl, rfl, _⟩
        simp [decoded]
      · simp [decoded]
    rw [readLogs]
    dsimp only at read
    split at read
    · next present =>
      rcases Run.lift_bind_inv read with ⟨raw, found, read⟩ | ⟨failure, found, rfl, rfl⟩
      · simpa [present, found] using decoding read
      · simp [present, found]
    · next absent =>
      rw [pure_bind] at read
      simpa [absent] using decoding read
  · exact Or.inl ⟨rfl, Or.inl ⟨failure, rfl⟩⟩

section Rounds

variable (source filter options)

/-- The last block of the page that starts at a block. -/
def stopFrom (head next : Int) : Int :=
  source.pageEnd (head - options.confirmations) (lastBlock? filter) (Cursor.at head next)

/-- What is asked and answered in a round, where it leads, and the events that it finds. -/
inductive Round (head next : Int) : NodeCall → (head next : Int) → List DecodedEvent → Prop where
  | page {call : NodeCall} {events : List DecodedEvent}
      (settled : next ≤ head - options.confirmations)
      (range : call.range? = some (next, source.stopFrom filter options head next))
      (read : call.events? source.event = some events) :
      Round head next call head (source.stopFrom filter options head next + 1) events
  | poll {call : NodeCall} {newHead : Int} (unsettled : head - options.confirmations < next)
      (read : call.head? = some newHead) : Round head next call newHead next []

/-- What is asked in a round that fails. -/
inductive Broken (head next : Int) : List NodeCall → Prop where
  | early : Broken head next []
  | page {call : NodeCall} (settled : next ≤ head - options.confirmations)
      (range : call.range? = some (next, source.stopFrom filter options head next))
      (unread : call.events? source.event = none) : Broken head next [call]
  | poll {call : NodeCall} (unsettled : head - options.confirmations < next)
      (asks : call.method = "eth_blockNumber") (unread : call.head? = none) :
      Broken head next [call]

end Rounds

theorem isFailed_of_abandons {β : Type} {early : Ending α} {ending : Ending β}
    (abandons : Abandons early ending) (failed : early.IsFailed) : ending.IsFailed := by
  cases abandons with
  | failed => exact Or.inl ⟨_, rfl⟩
  | stuck => exact Or.inr rfl
  | unfinished => rcases failed with ⟨_, same⟩ | same <;> cases same

theorem sleep_inv {seconds : Rat} {ending : Ending Unit}
    (run : Run (Activity.sleep seconds) start labels ending stop) :
    calls labels = [] ∧ (ending = .ended (.ok ()) ∨ ending.IsFailed) := by
  cases run with
  | stuck endless => exact ⟨rfl, Or.inr (Or.inr rfl)⟩
  | @ask _ _ _ reply _ _ _ _ _ early closes next =>
      cases reply with
      | answer =>
          cases next
          exact ⟨rfl, Or.inl rfl⟩
      | expired | cancelled =>
          cases next
          exact ⟨rfl, Or.inr (Or.inl ⟨_, rfl⟩)⟩

section Steps

variable {head next : Int} {ending : Ending (Cursor × List DecodedEvent)}

/-- A round has led somewhere, or it has failed. -/
def Advances (source : EventSource) (filter : LogFilter) (options : FollowOptions)
    (head next : Int) (asked : List NodeCall) (ending : Ending (Cursor × List DecodedEvent)) :
    Prop :=
  (∃ call newHead newNext events,
    Round source filter options head next call newHead newNext events ∧
    asked = [call] ∧ ending = .ended (.ok (Cursor.at newHead newNext, events))) ∨
  (Broken source filter options head next asked ∧ ending.IsFailed)

theorem advances_of_page (settled : next ≤ head - options.confirmations)
    (run : Run (do
      let events ← source.query .direct (filter.withRange (.int next)
        (.int (source.stopFrom filter options head next)))
      return (Cursor.at head (source.stopFrom filter options head next + 1), events))
      start labels ending stop) :
    Advances source filter options head next (calls labels) ending := by
  rcases Run.bind_pure_inv run with ⟨early, asking, outcome⟩
  rcases asked_logs asking with ⟨silent, failed⟩ | ⟨request, written, asked⟩
  · rw [silent]
    rcases outcome with ⟨events, rfl, _⟩ | abandons
    · rcases failed with ⟨_, same⟩ | same <;> cases same
    · exact Or.inr ⟨.early, isFailed_of_abandons abandons failed⟩
  · have range : ∀ answer, NodeCall.range? ⟨"eth_getLogs", [request], answer⟩ =
        some (next, source.stopFrom filter options head next) := by
      intro answer
      simp [NodeCall.range?, LogFilter.rangeOf_toRpc written, Except.toOption]
    generalize calls labels = called at asked ⊢
    cases asked with
    | read found =>
        rcases outcome with ⟨events, same, rfl⟩ | abandons
        · cases same
          exact Or.inl ⟨_, _, _, _, .page settled (range _) (by simpa [NodeCall.events?]), rfl, rfl⟩
        · cases abandons
    | failed unread failed =>
        rcases outcome with ⟨events, rfl, _⟩ | abandons
        · rcases failed with ⟨_, same⟩ | same <;> cases same
        · exact Or.inr ⟨.page settled (range _) (by simpa [NodeCall.events?]),
            isFailed_of_abandons abandons failed⟩

theorem advances_of_poll (unsettled : head - options.confirmations < next) {seconds : Rat}
    (run : Run (do
      Activity.sleep seconds
      let newHead ← headNumber .direct
      return (Cursor.at newHead next, [])) start labels ending stop) :
    Advances source filter options head next (calls labels) ending := by
  rcases Run.bind_inv run with ⟨_, before, _, after, slept, polled, rfl⟩ | ⟨early, slept, abandons⟩
  · rcases Run.bind_pure_inv polled with ⟨early, asking, outcome⟩
    have asked := asked_head asking
    rw [calls_append, (sleep_inv slept).1, List.nil_append]
    generalize calls after = called at asked ⊢
    cases asked with
    | read found =>
        rcases outcome with ⟨newHead, same, rfl⟩ | abandons
        · cases same
          exact Or.inl ⟨_, _, _, _, .poll unsettled (by simpa [NodeCall.head?]), rfl, rfl⟩
        · cases abandons
    | failed unread failed =>
        rcases outcome with ⟨newHead, rfl, _⟩ | abandons
        · rcases failed with ⟨_, same⟩ | same <;> cases same
        · exact Or.inr ⟨.poll unsettled rfl (by simpa [NodeCall.head?]),
            isFailed_of_abandons abandons failed⟩
  · rcases sleep_inv slept with ⟨silent, rfl | failed⟩
    · cases abandons
    · rw [silent]
      exact Or.inr ⟨.early, isFailed_of_abandons abandons failed⟩

theorem advances_of_run
    (run : Run (source.advance .direct filter options (Cursor.at head next)) start labels ending
      stop) :
    Advances source filter options head next (calls labels) ending := by
  rw [advance] at run
  split at run
  · next settled => exact advances_of_page settled run
  · next unsettled => exact advances_of_poll (Int.not_le.mp unsettled) run

end Steps

/-- No block of the filter is left when the next page starts at a block. -/
def IsPassed (filter : LogFilter) (next : Int) : Prop :=
  ∃ last ∈ lastBlock? filter, last < next

/-- What is asked from a cursor on, and how it ends. The number of rounds is that which is followed;
some events were found before. -/
inductive Followed (source : EventSource) (filter : LogFilter) (options : FollowOptions)
    (limit : Nat) : (rounds : Nat) → (head next : Int) → (found : List DecodedEvent) →
      List NodeCall → Ending (List DecodedEvent × Option Failure) → Prop where
  | suspended {head next : Int} {found : List DecodedEvent} :
      Followed source filter options limit 0 head next found [] .unfinished
  | passed {rounds : Nat} {head next : Int} {found : List DecodedEvent}
      (passed : IsPassed filter next) :
      Followed source filter options limit (rounds + 1) head next found []
        (.ended (.ok (found, none)))
  | full {rounds : Nat} {head next newHead newNext : Int} {found events : List DecodedEvent}
      {call : NodeCall} (remains : ¬IsPassed filter next)
      (round : Round source filter options head next call newHead newNext events)
      (enough : limit ≤ (found ++ events).length) :
      Followed source filter options limit (rounds + 1) head next found [call]
        (.ended (.ok ((found ++ events).take limit, none)))
  | more {rounds : Nat} {head next newHead newNext : Int} {found events : List DecodedEvent}
      {call : NodeCall} {asked : List NodeCall}
      {ending : Ending (List DecodedEvent × Option Failure)} (remains : ¬IsPassed filter next)
      (round : Round source filter options head next call newHead newNext events)
      (room : (found ++ events).length < limit)
      (rest : Followed source filter options limit rounds newHead newNext (found ++ events) asked
        ending) :
      Followed source filter options limit (rounds + 1) head next found (call :: asked) ending
  | failed {rounds : Nat} {head next : Int} {found : List DecodedEvent} {asked : List NodeCall}
      {failure : Failure} (remains : ¬IsPassed filter next)
      (broken : Broken source filter options head next asked) :
      Followed source filter options limit (rounds + 1) head next found asked
        (.ended (.ok (found, some failure)))
  | stuck {rounds : Nat} {head next : Int} {found : List DecodedEvent} {asked : List NodeCall}
      (remains : ¬IsPassed filter next) (broken : Broken source filter options head next asked) :
      Followed source filter options limit (rounds + 1) head next found asked .stuck

theorem any_iff_isPassed {next : Int} :
    (lastBlock? filter).any (· < next) = true ↔ IsPassed filter next := by
  rw [IsPassed]
  cases lastBlock? filter with
  | none => simp
  | some last => simp

theorem followed_of_run {head next : Int} {found : List DecodedEvent}
    {ending : Ending (List DecodedEvent × Option Failure)}
    (run : Run (source.collect .direct filter options limit rounds (Cursor.at head next) found)
      start labels ending stop) :
    Followed source filter options limit rounds head next found (calls labels) ending := by
  induction rounds generalizing head next found start labels with
  | zero =>
      cases run
      exact .suspended
  | succ rounds ih =>
      rw [collect] at run
      split at run
      · next isPassed =>
        rcases Run.done_inv run with ⟨rfl, rfl, _⟩
        exact .passed (any_iff_isPassed.mp isPassed)
      · next isOpen =>
        have remains : ¬IsPassed filter next := fun passed => isOpen (any_iff_isPassed.mpr passed)
        rcases Run.andThen_inv run with ⟨first, before, middle, after, advanced, follows, rfl⟩
        rcases advances_of_run advanced with
          ⟨call, newHead, newNext, events, round, asked, rfl⟩ | ⟨broken, failed⟩
        · cases follows with
          | ended next =>
              rw [calls_append, asked]
              dsimp only at next
              split at next
              · next enough =>
                rcases Run.done_inv next with ⟨rfl, rfl, _⟩
                exact .full remains round enough
              · next room => exact .more remains round (by omega) (ih next)
        · cases follows with
          | @ended outcome _ _ _ _ next =>
              rcases failed with ⟨failure, same⟩ | same
              · cases same
                rcases Run.done_inv next with ⟨rfl, rfl, _⟩
                rw [calls_append, calls_nil, List.append_nil]
                exact .failed remains broken
              · cases same
          | stuck =>
              rw [calls_append, calls_nil, List.append_nil]
              exact .stuck remains broken
          | unfinished => rcases failed with ⟨_, same⟩ | same <;> cases same

/-- What is asked when the blocks of a filter are followed, and how it ends: the head is read first,
and the first block of the filter is found with it. -/
inductive Opened (source : EventSource) (filter : LogFilter) (options : FollowOptions)
    (limit rounds : Nat) :
    List NodeCall → Ending (List DecodedEvent × Option Failure) → Prop where
  | satisfied (nothing : limit = 0) :
      Opened source filter options limit rounds [] (.ended (.ok ([], none)))
  | failed {call : NodeCall} {failure : Failure} (asks : call.method = "eth_blockNumber")
      (unread : call.head? = none) :
      Opened source filter options limit rounds [call] (.ended (.ok ([], some failure)))
  | stuck {call : NodeCall} (asks : call.method = "eth_blockNumber") (unread : call.head? = none) :
      Opened source filter options limit rounds [call] .stuck
  | refused {call : NodeCall} {head : Int} {failure : Failure} (read : call.head? = some head)
      (refused : firstBlock head filter.fromBlock = .error failure) :
      Opened source filter options limit rounds [call] (.ended (.ok ([], some failure)))
  | followed {call : NodeCall} {head first : Int} {asked : List NodeCall}
      {ending : Ending (List DecodedEvent × Option Failure)} (room : 0 < limit)
      (read : call.head? = some head)
      (placed : firstBlock head filter.fromBlock = .ok (Cursor.at head first))
      (rest : Followed source filter options limit rounds head first [] asked ending) :
      Opened source filter options limit rounds (call :: asked) ending

/-- Wherever following starts, the cursor names the block by its number, unless the filter names it
by a flag. -/
theorem eq_at_of_firstBlock {bound : Value} {head : Int} (noFlag : ∀ flag, bound ≠ .bool flag)
    (placed : firstBlock head bound = .ok cursor) : ∃ first, cursor = Cursor.at head first := by
  have read {outcome : Outcome Int} (placed : outcome.map (firstBlock.atNumber head) = .ok cursor) :
      ∃ first, cursor = Cursor.at head first := by
    cases outcome with
    | ok number =>
        cases placed
        exact ⟨number, rfl⟩
    | error failure => cases placed
  unfold firstBlock at placed
  split at placed
  · cases placed
    exact ⟨head, rfl⟩
  · next number =>
      cases placed
      exact ⟨number, rfl⟩
  · next flag => exact absurd rfl (noFlag flag)
  · split at placed
    · cases placed
      exact ⟨head, rfl⟩
    · split at placed
      · cases placed
        exact ⟨0, rfl⟩
      · exact read placed
  · exact read placed

theorem opened_of_run {ending : Ending (List DecodedEvent × Option Failure)}
    (noFlag : ∀ flag, filter.fromBlock ≠ .bool flag)
    (run : Run (source.follow .direct filter options limit rounds) start labels ending stop) :
    Opened source filter options limit rounds (calls labels) ending := by
  rw [follow] at run
  split at run
  · next nothing =>
    rcases Run.done_inv run with ⟨rfl, rfl, _⟩
    exact .satisfied nothing
  · next room =>
    rcases Run.andThen_inv run with ⟨early, before, middle, after, started, follows, rfl⟩
    rcases Run.bind_inv started with
      ⟨head, reading, _, placing, asking, placed, rfl⟩ | ⟨answered, asking, abandons⟩
    · have asked := asked_head asking
      rcases Run.done_inv placed with ⟨rfl, rfl, _⟩
      rw [List.append_nil, calls_append]
      generalize calls reading = called at asked ⊢
      cases asked with
      | read found =>
          have read := (NodeCall.head?_eq_readAs rfl).trans found
          cases follows with
          | ended next =>
              cases placedAt : firstBlock head filter.fromBlock with
              | ok cursor =>
                  rcases eq_at_of_firstBlock noFlag placedAt with ⟨first, rfl⟩
                  rw [placedAt] at next
                  exact .followed (by omega) read placedAt (followed_of_run next)
              | error failure =>
                  rw [placedAt] at next
                  rcases Run.done_inv next with ⟨rfl, rfl, _⟩
                  exact .refused read placedAt
      | failed unread failed => rcases failed with ⟨_, same⟩ | same <;> cases same
    · have asked := asked_head asking
      rw [calls_append]
      generalize calls before = called at asked ⊢
      cases asked with
      | read found => cases abandons
      | failed unread failed =>
          have silent := (NodeCall.head?_eq_readAs rfl).trans unread
          rcases isFailed_of_abandons abandons failed with ⟨failure, rfl⟩ | rfl
          · cases follows with
            | ended next =>
                rcases Run.done_inv next with ⟨rfl, rfl, _⟩
                exact .failed rfl silent
          · cases follows
            exact .stuck rfl silent

/-- What is asked when the blocks from a number on are followed, and how it ends. -/
inductive Begun (source : EventSource) (filter : LogFilter) (options : FollowOptions)
    (limit rounds : Nat) (first : Int) :
    List NodeCall → Ending (List DecodedEvent × Option Failure) → Prop where
  | satisfied (nothing : limit = 0) :
      Begun source filter options limit rounds first [] (.ended (.ok ([], none)))
  | failed {call : NodeCall} {failure : Failure} (asks : call.method = "eth_blockNumber")
      (unread : call.head? = none) :
      Begun source filter options limit rounds first [call] (.ended (.ok ([], some failure)))
  | stuck {call : NodeCall} (asks : call.method = "eth_blockNumber") (unread : call.head? = none) :
      Begun source filter options limit rounds first [call] .stuck
  | followed {call : NodeCall} {head : Int} {asked : List NodeCall}
      {ending : Ending (List DecodedEvent × Option Failure)} (room : 0 < limit)
      (read : call.head? = some head)
      (rest : Followed source filter options limit rounds head first [] asked ending) :
      Begun source filter options limit rounds first (call :: asked) ending

theorem begun_of_run {first : Int} {ending : Ending (List DecodedEvent × Option Failure)}
    (fromBlock : filter.fromBlock = .int first)
    (run : Run (source.follow .direct filter options limit rounds) start labels ending stop) :
    Begun source filter options limit rounds first (calls labels) ending := by
  have opened := opened_of_run (by simp [fromBlock]) run
  generalize calls labels = asked at opened ⊢
  cases opened with
  | satisfied nothing => exact .satisfied nothing
  | failed asks unread => exact .failed asks unread
  | stuck asks unread => exact .stuck asks unread
  | refused _ refused =>
      rw [fromBlock] at refused
      cases refused
  | followed room read placed rest =>
      rw [fromBlock] at placed
      cases placed
      exact .followed room read rest

end EventSource

end ContractClient
