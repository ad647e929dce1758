import ContractClient.Proofs.Event.Coverage

/-!
# No block is skipped or repeated

If the node answers every request for logs with all logs of these blocks in order, following finds
every log up to the end of the last page once and in order (`EventSource.YieldsOnce`): the events of
a round are those of the blocks that it passes (`EventSource.Round.yields`), and the pages of all
rounds are consecutive. `EventSource.follow_covers_blocks` puts together what is known of a run.
-/

namespace ContractClient

namespace EventSource

open Activity

variable {source : EventSource} {filter : LogFilter} {options : FollowOptions}
  {limit rounds : Nat} {head next first : Int} {found : List DecodedEvent} {call : NodeCall}
  {asked : List NodeCall} {ending : Ending (List DecodedEvent × Option Failure)}

/-- The logs of the blocks from one number to another, in order. -/
def logsBetween (chain : Int → List Value) (first last : Int) : List Value :=
  (List.range (last - first + 1).toNat).flatMap fun offset : Nat => chain (first + offset)

/-- The logs that can be read and whose blocks are still part of the chain. -/
def liveLogs (logs : List Value) : List EventLog :=
  logs.filterMap fun raw => match EventLog.ofValue raw with
    | .ok log => if log.removed then none else some log
    | .error _ => none

/-- Whenever the node answers a request for logs, it does so with all logs of these blocks in
order. -/
def AnswersFrom (chain : Int → List Value) (asked : List NodeCall) : Prop :=
  ∀ call ∈ asked, ∀ range answer, call.range? = some range → call.answer = some (.ok answer) →
    answer = .list (logsBetween chain range.1 range.2)

/-- The ranges whose logs were read. -/
def fetchedRanges (event : ContractEvent) (asked : List NodeCall) : List (Int × Int) :=
  ranges (asked.filter fun call => (call.events? event).isSome)

/-- What following finds: the events in the logs of the blocks that were fetched, each log once and
in order, as many as are wanted. All ranges but the last are fetched, and so is the last one unless
something has failed. -/
structure YieldsOnce (source : EventSource) (limit : Nat) (first : Int) (asked : List NodeCall)
    (ending : Ending (List DecodedEvent × Option Failure)) : Prop where
  fetched : ∃ unread, ranges asked = fetchedRanges source.event asked ++ unread ∧
    unread.length ≤ 1 ∧ ∀ events, ending = .ended (.ok (events, none)) → unread = []
  yields : ∀ chain, AnswersFrom chain asked → ∀ events failure,
    ending = .ended (.ok (events, failure)) →
    ((liveLogs (logsBetween chain first
      (endOf first (fetchedRanges source.event asked)))).take limit).mapM
        (decodeLog source.event) = .ok events

section Logs

variable {chain : Int → List Value} {event : ContractEvent} {events : List DecodedEvent}

theorem logsBetween_empty : logsBetween chain next (next - 1) = [] := by
  have noBlocks : (next - 1 - next + 1).toNat = 0 := by omega
  rw [logsBetween, noBlocks]
  rfl

theorem logsBetween_append {middle last : Int} (before : first ≤ middle + 1)
    (behind : middle ≤ last) :
    logsBetween chain first middle ++ logsBetween chain (middle + 1) last =
      logsBetween chain first last := by
  have count : (last - first + 1).toNat =
      (middle - first + 1).toNat + (last - (middle + 1) + 1).toNat := by omega
  have shift : ∀ offset : Nat,
      middle + 1 + (offset : Int) = first + ((middle - first + 1).toNat + offset : Nat) := by
    intro offset
    omega
  rw [logsBetween, logsBetween, logsBetween, count, List.range_add, List.flatMap_append,
    List.flatMap_map]
  simp only [shift]

theorem liveLogs_append (first second : List Value) :
    liveLogs (first ++ second) = liveLogs first ++ liveLogs second :=
  List.filterMap_append

theorem liveLogs_removed {raw : Value} {log : EventLog} {logs : List Value}
    (read : EventLog.ofValue raw = .ok log) (removed : log.removed = true) :
    liveLogs (raw :: logs) = liveLogs logs :=
  List.filterMap_cons_none (by simp [read, removed])

theorem liveLogs_live {raw : Value} {log : EventLog} {logs : List Value}
    (read : EventLog.ofValue raw = .ok log) (live : log.removed = false) :
    liveLogs (raw :: logs) = log :: liveLogs logs :=
  List.filterMap_cons_some (by simp [read, live])

theorem mapM_liveLogs {logs : List Value} (decoded : decodeLogs event logs = .ok events) :
    (liveLogs logs).mapM (decodeLog event) = .ok events := by
  induction logs generalizing events with
  | nil => exact decoded
  | cons raw logs ih =>
      rcases Outcome.bind_eq_ok_iff.mp decoded with ⟨log, read, decoded⟩
      split at decoded
      · next removed =>
        rw [liveLogs_removed read removed]
        exact ih decoded
      · next live =>
        rcases Outcome.bind_eq_ok_iff.mp decoded with ⟨first, readFirst, decoded⟩
        rcases Outcome.bind_eq_ok_iff.mp decoded with ⟨others, readOthers, decoded⟩
        rw [liveLogs_live read (Bool.eq_false_iff.mpr live), List.mapM_cons, readFirst,
          Outcome.ok_bind, ih readOthers]
        exact decoded

theorem readLogs_list (logs : List Value) :
    readLogs event (.list logs) = decodeLogs event logs := by
  cases logs <;> rfl

/-- The events that were read from a page are those of the live logs of its blocks. -/
theorem mapM_liveLogs_of_events? {range : Int × Int}
    (answers : AnswersFrom chain (call :: asked)) (asksFor : call.range? = some range)
    (read : call.events? event = some events) :
    (liveLogs (logsBetween chain range.1 range.2)).mapM (decodeLog event) = .ok events := by
  rw [NodeCall.events?, if_pos (NodeCall.method_of_range? asksFor), NodeCall.readAs] at read
  split at read
  · next answer given =>
    have same := answers call List.mem_cons_self range answer asksFor given
    subst same
    apply mapM_liveLogs
    rw [readLogs_list] at read
    cases decoded : decodeLogs event (logsBetween chain range.1 range.2) with
    | ok result =>
        rw [decoded] at read
        exact congrArg Except.ok (Option.some.inj read)
    | error failure =>
        rw [decoded] at read
        cases read
  · cases read

theorem fetchedRanges_page {range : Int × Int} (asksFor : call.range? = some range)
    (read : call.events? event = some events) :
    fetchedRanges event (call :: asked) = range :: fetchedRanges event asked := by
  rw [fetchedRanges, List.filter_cons_of_pos (by simp [read]), ranges_page asksFor, fetchedRanges]

theorem fetchedRanges_unread (unread : call.events? event = none) :
    fetchedRanges event (call :: asked) = fetchedRanges event asked := by
  rw [fetchedRanges, List.filter_cons_of_neg (by simp [unread]), fetchedRanges]

theorem NodeCall.events?_of_asksHead (asks : call.method = "eth_blockNumber") :
    call.events? event = none := by
  simp [NodeCall.events?, asks]

end Logs

theorem Round.fetched {newHead newNext : Int} {events : List DecodedEvent}
    {unread : List (Int × Int)}
    (round : Round source filter options head next call newHead newNext events)
    (rest : ranges asked = fetchedRanges source.event asked ++ unread) :
    ranges (call :: asked) = fetchedRanges source.event (call :: asked) ++ unread := by
  cases round with
  | page _ range read =>
      rw [ranges_page range, fetchedRanges_page range read, rest, List.cons_append]
  | poll _ read =>
      have asks := NodeCall.method_of_head? read
      rw [ranges_head asks, fetchedRanges_unread (NodeCall.events?_of_asksHead asks), rest]

theorem Broken.fetched (broken : Broken source filter options head next asked) :
    ∃ unread, ranges asked = fetchedRanges source.event asked ++ unread ∧ unread.length ≤ 1 := by
  cases broken with
  | early => exact ⟨[], rfl, by simp⟩
  | page _ range unread =>
      refine ⟨[(next, source.stopFrom filter options head next)], ?_, le_refl 1⟩
      rw [ranges_page range, fetchedRanges_unread unread]
      rfl
  | poll _ asks _ =>
      refine ⟨[], ?_, by simp⟩
      rw [ranges_head asks, fetchedRanges_unread (NodeCall.events?_of_asksHead asks)]
      rfl

/-- All ranges are fetched but that of a failed round. -/
theorem Followed.fetched
    (followed : Followed source filter options limit rounds head next found asked ending) :
    ∃ unread, ranges asked = fetchedRanges source.event asked ++ unread ∧
      unread.length ≤ 1 ∧ ∀ events, ending = .ended (.ok (events, none)) → unread = [] := by
  induction followed with
  | suspended | passed => exact ⟨[], rfl, by simp, by simp⟩
  | full _ round _ => exact ⟨[], round.fetched rfl, by simp, by simp⟩
  | more _ round _ _ ih =>
      rcases ih with ⟨unread, same, single, nothing⟩
      exact ⟨unread, round.fetched same, single, nothing⟩
  | failed _ broken | stuck _ broken =>
      rcases broken.fetched with ⟨unread, same, single⟩
      exact ⟨unread, same, single, by simp⟩

/-- The events of a round are those of the blocks that it passes. -/
theorem Round.yields {chain : Int → List Value} {newHead newNext : Int}
    {events : List DecodedEvent} (pageSize : 1 ≤ source.pageSize) (remains : ¬IsPassed filter next)
    (round : Round source filter options head next call newHead newNext events)
    (answers : AnswersFrom chain (call :: asked)) :
    next ≤ newNext ∧
      (liveLogs (logsBetween chain next (newNext - 1))).mapM (decodeLog source.event) =
        .ok events ∧
      endOf next (fetchedRanges source.event (call :: asked)) =
        endOf newNext (fetchedRanges source.event asked) := by
  cases round with
  | page settled range read =>
      have forward := next_le_stopFrom pageSize settled remains
      refine ⟨by omega, ?_, ?_⟩
      · rw [Int.add_sub_cancel]
        exact mapM_liveLogs_of_events? answers range read
      · rw [fetchedRanges_page range read, endOf_cons]
  | poll _ read =>
      refine ⟨Int.le_refl next, ?_, ?_⟩
      · rw [logsBetween_empty]
        rfl
      · rw [fetchedRanges_unread (NodeCall.events?_of_asksHead (NodeCall.method_of_head? read))]

/-- A failed round fetches nothing. -/
theorem Broken.fetchedRanges_eq_nil (broken : Broken source filter options head next asked) :
    fetchedRanges source.event asked = [] := by
  cases broken with
  | early => rfl
  | page _ _ unread => exact fetchedRanges_unread unread
  | poll _ asks _ => exact fetchedRanges_unread (NodeCall.events?_of_asksHead asks)

/-- The events are those found before and then those in the logs of the fetched blocks, as many as
are wanted. -/
def Continues (chain : Int → List Value) (event : ContractEvent) (limit : Nat) (next : Int)
    (found : List DecodedEvent) (asked : List NodeCall) (events : List DecodedEvent) : Prop :=
  ∃ decoded, next - 1 ≤ endOf next (fetchedRanges event asked) ∧
    (liveLogs (logsBetween chain next (endOf next (fetchedRanges event asked)))).mapM
      (decodeLog event) = .ok decoded ∧
    events = (found ++ decoded).take limit

theorem continues_of_unfetched {chain : Int → List Value} {event : ContractEvent}
    (nothing : fetchedRanges event asked = []) (room : found.length ≤ limit) :
    Continues chain event limit next found asked found := by
  refine ⟨[], ?_, ?_, ?_⟩
  · have stays : endOf next (fetchedRanges event asked) = next - 1 := by rw [nothing, endOf_nil]
    exact Int.le_of_eq stays.symm
  · rw [nothing, endOf_nil, logsBetween_empty]
    rfl
  · rw [List.append_nil, List.take_of_length_le room]

theorem Followed.continues {chain : Int → List Value} {events : List DecodedEvent}
    {failure : Option Failure} (pageSize : 1 ≤ source.pageSize)
    (followed : Followed source filter options limit rounds head next found asked ending)
    (answers : AnswersFrom chain asked) (room : found.length < limit)
    (ended : ending = .ended (.ok (events, failure))) :
    Continues chain source.event limit next found asked events := by
  induction followed with
  | suspended | stuck => cases ended
  | passed =>
      cases ended
      exact continues_of_unfetched rfl (Nat.le_of_lt room)
  | failed _ broken =>
      cases ended
      exact continues_of_unfetched broken.fetchedRanges_eq_nil (Nat.le_of_lt room)
  | @full _ _ next _ newNext found roundEvents _ remains round _ =>
      cases ended
      rcases round.yields pageSize remains answers with ⟨forward, decoded, last⟩
      have stops : endOf newNext (fetchedRanges source.event []) = newNext - 1 := rfl
      rw [Continues, last, stops]
      exact ⟨roundEvents, by omega, decoded, rfl⟩
  | @more _ _ next _ newNext found roundEvents _ asked _ remains round roomBehind _ ih =>
      rcases round.yields pageSize remains answers with ⟨forward, decoded, last⟩
      have answersBehind := fun call member => answers call (List.mem_cons_of_mem _ member)
      rcases ih answersBehind roomBehind ended with ⟨others, behind, decodedOthers, rfl⟩
      have whole : logsBetween chain next (newNext - 1) ++ logsBetween chain (newNext - 1 + 1)
          (endOf newNext (fetchedRanges source.event asked)) =
          logsBetween chain next (endOf newNext (fetchedRanges source.event asked)) :=
        logsBetween_append (by omega) behind
      rw [Int.sub_add_cancel] at whole
      rw [Continues, last, ← whole, liveLogs_append, List.mapM_append, decoded, Outcome.ok_bind,
        decodedOthers]
      exact ⟨roundEvents ++ others, by omega, rfl, by rw [List.append_assoc]⟩

theorem Begun.fetched (begun : Begun source filter options limit rounds first asked ending) :
    ∃ unread, ranges asked = fetchedRanges source.event asked ++ unread ∧
      unread.length ≤ 1 ∧ ∀ events, ending = .ended (.ok (events, none)) → unread = [] := by
  cases begun with
  | satisfied => exact ⟨[], rfl, by simp, by simp⟩
  | failed asks _ | stuck asks _ =>
      refine ⟨[], ?_, by simp, by simp⟩
      rw [ranges_head asks, fetchedRanges_unread (NodeCall.events?_of_asksHead asks)]
      rfl
  | followed _ read rest =>
      have asks := NodeCall.method_of_head? read
      rw [ranges_head asks, fetchedRanges_unread (NodeCall.events?_of_asksHead asks)]
      exact rest.fetched

theorem Begun.continues {chain : Int → List Value} {events : List DecodedEvent}
    {failure : Option Failure} (pageSize : 1 ≤ source.pageSize)
    (begun : Begun source filter options limit rounds first asked ending)
    (answers : AnswersFrom chain asked) (ended : ending = .ended (.ok (events, failure))) :
    Continues chain source.event limit first [] asked events := by
  cases begun with
  | satisfied =>
      cases ended
      exact continues_of_unfetched rfl (Nat.zero_le limit)
  | failed asks _ =>
      cases ended
      exact continues_of_unfetched (fetchedRanges_unread (NodeCall.events?_of_asksHead asks))
        (Nat.zero_le limit)
  | stuck => cases ended
  | followed room read rest =>
      have answersBehind := fun call member => answers call (List.mem_cons_of_mem _ member)
      have asks := NodeCall.method_of_head? read
      rw [Continues, fetchedRanges_unread (NodeCall.events?_of_asksHead asks)]
      exact rest.continues pageSize answersBehind room ended

theorem Begun.yieldsOnce (pageSize : 1 ≤ source.pageSize)
    (begun : Begun source filter options limit rounds first asked ending) :
    YieldsOnce source limit first asked ending where
  fetched := begun.fetched
  yields := by
    intro chain answers events failure ended
    rcases begun.continues pageSize answers ended with ⟨decoded, _, all, rfl⟩
    exact Outcome.mapM_take all limit

/-- A stream of events skips no block and repeats none, whatever the node says about its head. -/
theorem follow_covers_blocks {labels : List Label} {start stop : Rat}
    (pageSize : 1 ≤ source.pageSize) (fromBlock : filter.fromBlock = .int first)
    (run : Activity.Run (source.follow .direct filter options limit rounds) start labels ending
      stop) :
    CoversBlocks source filter options none first (calls labels) ∧
      StopsAtLast source filter limit rounds first (calls labels) ending ∧
      YieldsOnce source limit first (calls labels) ending := by
  have begun := begun_of_run fromBlock run
  exact ⟨begun.coversBlocks pageSize, begun.stopsAtLast pageSize, begun.yieldsOnce pageSize⟩

section Ticking

/-- An event without parameters, whose blocks are asked for in pairs. -/
def tickSource : EventSource where
  event := { name := "Tick", params := [], anonymous := true }
  pageSize := 2

def fourBlocks : LogFilter where
  fromBlock := .int 1
  toBlock := .int 4

def tickLog : Value :=
  .dict [("address", .text "0x00000000000000000000000000000000000000aa")]

def tick : DecodedEvent where
  name := "Tick"
  fields := []
  values := []
  log := { address := ⟨List.replicate 19 0 ++ [0xaa]⟩, topics := [], data := [] }

/-- The logs of a block: the event happens in the second one. -/
def tickLogs (block : Int) : List Value :=
  if block = 2 then [tickLog] else []

def headIs (number : Int) : NodeCall :=
  ⟨"eth_blockNumber", [], some (.ok (.int number))⟩

def logsOf (first last : String) (logs : List Value) : NodeCall :=
  let request := .dict [("topics", .list []), ("fromBlock", .text first), ("toBlock", .text last)]
  ⟨"eth_getLogs", [request], some (.ok (.list logs))⟩

/-- The head stalls, goes back and comes far ahead between two pages. -/
def ticking : List NodeCall :=
  [headIs 2, logsOf "0x1" "0x2" [tickLog], headIs 2, headIs 1, headIs 9, logsOf "0x3" "0x4" []]

theorem ticking_answersFrom : AnswersFrom tickLogs ticking := by
  have head : ∀ {number : Int} {range : Int × Int} {answer : Value},
      (headIs number).range? = some range → (headIs number).answer = some (.ok answer) →
      answer = .list (logsBetween tickLogs range.1 range.2) := by
    intro number range answer asksFor
    cases asksFor
  simp only [AnswersFrom, ticking, List.forall_mem_cons]
  refine ⟨fun _ _ => head, ?_, fun _ _ => head, fun _ _ => head, fun _ _ => head, ?_, by simp⟩
  · intro range answer asksFor given
    cases asksFor
    cases given
    rfl
  · intro range answer asksFor given
    cases asksFor
    cases given
    rfl

theorem follow_covers_four_blocks :
    let ending := .ended (.ok ([tick], none))
    Reaches (tickSource.follow .direct fourBlocks {} 5 8) 0 ticking ending ∧
      ranges ticking = [(1, 2), (3, 4)] ∧ AnswersFrom tickLogs ticking ∧
      CoversBlocks tickSource fourBlocks {} none 1 ticking ∧
      StopsAtLast tickSource fourBlocks 5 8 1 ticking ending ∧
      YieldsOnce tickSource 5 1 ticking ending := by
  intro ending
  have reaches : Reaches (tickSource.follow .direct fourBlocks {} 5 8) 0 ticking ending := by
    refine .call (.call (.tell ?_))
    refine .sleep (.call (.sleep (.call (.sleep (.call ?_)))))
    exact .call (.tell .done)
  refine ⟨reaches, rfl, ticking_answersFrom, ?_⟩
  rcases reaches with ⟨labels, stop, run, asked⟩
  rw [← asked]
  exact follow_covers_blocks (by decide) rfl run

end Ticking

end EventSource

end ContractClient
