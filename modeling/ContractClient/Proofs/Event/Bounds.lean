import ContractClient.Proofs.Event.Following

/-!
# Bounds of filters that are followed

A filter names its first and its last block by numbers, by texts of numbers, or by tags. A request
for logs lets the node find out which blocks these are. Who follows a filter finds out alone:

- Of the first block every form is understood, but the tags `safe` and `finalized` are taken for the
  head (`EventSource.firstBlock`). Where these blocks lie behind the head (`NodeView.Lags`), blocks
  are skipped that a request for logs would have searched.
- Of the last block only numbers are understood (`EventSource.lastBlock?`). A filter whose last
  block is written as a text is followed as if it had none, and never comes to an end.

`EventSource.follow_bounds_iff` says so of every run.
-/

namespace ContractClient

/-- The newest blocks of a node at a moment, among them those that are safe or final. -/
structure NodeView where
  head : Int
  safe : Int
  finalized : Int
  safe_le : safe ≤ head
  finalized_le : finalized ≤ safe

namespace NodeView

variable (view : NodeView)

/-- The block at which a node starts to search for logs. -/
def denoted? : Value → Option Int
  | .null => some view.head
  | .int number => some number
  | .text tag =>
    if tag = "latest" then some view.head
    else if tag = "pending" then some (view.head + 1)
    else if tag = "safe" then some view.safe
    else if tag = "finalized" then some view.finalized
    else if tag = "earliest" then some 0
    else (Quantity.toInt (.text tag)).toOption
  | _ => none

/-- The first block of a filter is one of those that lie behind the head. -/
def Lags (bound : Value) : Prop :=
  (bound = .text "safe" ∧ view.safe < view.head) ∨
    (bound = .text "finalized" ∧ view.finalized < view.head)

/-- The node answers the first question for its head as it sees it. -/
def IsSeen (asked : List NodeCall) : Prop :=
  ∀ call ∈ asked.head?, ∀ number ∈ call.head?, number = view.head

end NodeView

/-- The number of a block that is given as a number or as its text. -/
def Value.blockNumber? : Value → Option Int
  | .int number => some number
  | .text characters => (Quantity.toInt (.text characters)).toOption
  | _ => none

namespace EventSource

open Activity

variable {source : EventSource} {filter : LogFilter} {options : FollowOptions}
  {limit rounds : Nat} {head first : Int} {bound : Value} {view : NodeView}
  {asked : List NodeCall} {ending : Ending (List DecodedEvent × Option Failure)}

/-- The first range starts no later than the first block of the filter. -/
def StartsInTime (view : NodeView) (filter : LogFilter) (asked : List NodeCall) : Prop :=
  ∀ range ∈ (ranges asked).head?, ∀ block ∈ view.denoted? filter.fromBlock, range.1 ≤ block

/-- No range ends behind the last block of the filter, and once it is reached, following is over. -/
structure StopsInTime (source : EventSource) (filter : LogFilter) (asked : List NodeCall)
    (ending : Ending (List DecodedEvent × Option Failure)) : Prop where
  inside : ∀ range ∈ ranges asked, ∀ last ∈ filter.toBlock.blockNumber?, range.2 ≤ last
  nothingMore : ∀ before call after begin, ∀ last ∈ filter.toBlock.blockNumber?,
    asked = before ++ call :: after → call.range? = some (begin, last) → after = []
  ends : ∀ before call after begin, ∀ last ∈ filter.toBlock.blockNumber?,
    asked = before ++ call :: after → call.range? = some (begin, last) →
    (call.events? source.event).isSome →
    ending = .unfinished ∨ ∃ events, ending = .ended (.ok (events, none))

/-- A bound by which following starts denotes a block of the node, and following starts there or
before unless that block lies behind the head. -/
theorem exists_denoted_of_firstBlock
    (placed : firstBlock view.head bound = .ok (Cursor.at view.head first))
    (noFlag : ∀ flag, bound ≠ .bool flag) :
    ∃ block, view.denoted? bound = some block ∧ (first ≤ block ↔ ¬view.Lags bound) := by
  have inTime {block : Int} (start : first ≤ block) (safe : bound ≠ .text "safe")
      (finalized : bound ≠ .text "finalized") : first ≤ block ↔ ¬view.Lags bound := by
    apply iff_of_true start
    rintro (⟨same, _⟩ | ⟨same, _⟩)
    · exact safe same
    · exact finalized same
  cases bound with
  | null =>
      cases placed
      exact ⟨view.head, rfl, inTime (Int.le_refl _) nofun nofun⟩
  | int number =>
      cases placed
      exact ⟨first, rfl, inTime (Int.le_refl _) nofun nofun⟩
  | bool flag => exact absurd rfl (noFlag flag)
  | text tag =>
      by_cases latest : tag = "latest"
      · subst latest
        cases placed
        exact ⟨view.head, rfl, inTime (Int.le_refl _) (by simp) (by simp)⟩
      by_cases pending : tag = "pending"
      · subst pending
        cases placed
        exact ⟨view.head + 1, rfl, inTime (by omega) (by simp) (by simp)⟩
      by_cases safe : tag = "safe"
      · subst safe
        cases placed
        refine ⟨view.safe, rfl, ?_⟩
        simp [NodeView.Lags]
      by_cases finalized : tag = "finalized"
      · subst finalized
        cases placed
        refine ⟨view.finalized, rfl, ?_⟩
        simp [NodeView.Lags]
      by_cases earliest : tag = "earliest"
      · subst earliest
        cases placed
        exact ⟨0, rfl, inTime (Int.le_refl _) (by simp) (by simp)⟩
      · have noTag : headTags.contains tag = false := by
          simp [headTags, latest, pending, safe, finalized]
        simp only [firstBlock, noTag, Bool.false_eq_true, if_false, earliest] at placed
        cases read : Quantity.toInt (.text tag) with
        | ok number =>
            rw [read] at placed
            cases placed
            refine ⟨first, ?_, inTime (Int.le_refl _) (by simp [safe]) (by simp [finalized])⟩
            simp [NodeView.denoted?, latest, pending, safe, finalized, earliest, read,
              Except.toOption]
        | error failure =>
            rw [read] at placed
            cases placed
  | _ => cases placed

/-- Following asks for consecutive pages from the block on at which it starts. -/
theorem Opened.coversBlocks (pageSize : 1 ≤ source.pageSize)
    (opened : Opened source filter options limit rounds asked ending) :
    ∃ first, CoversBlocks source filter options none first asked ∧
      (ranges asked ≠ [] → ∃ call head, asked.head? = some call ∧ call.head? = some head ∧
        firstBlock head filter.fromBlock = .ok (Cursor.at head first)) := by
  have silent {call : NodeCall} (asks : call.method = "eth_blockNumber") :
      CoversBlocks source filter options none 0 [call] := coversBlocks_nil.poll asks
  cases opened with
  | satisfied => exact ⟨0, coversBlocks_nil, fun found => absurd rfl found⟩
  | failed asks | stuck asks =>
      exact ⟨0, silent asks, fun found => absurd (ranges_head asks) found⟩
  | refused read =>
      have asks := NodeCall.method_of_head? read
      exact ⟨0, silent asks, fun found => absurd (ranges_head asks) found⟩
  | followed room read placed rest =>
      have begun : Begun source filter options limit rounds _ _ ending := .followed room read rest
      exact ⟨_, begun.coversBlocks pageSize, fun _ => ⟨_, _, rfl, read, placed⟩⟩

theorem Opened.startsInTime_iff (pageSize : 1 ≤ source.pageSize)
    (noFlag : ∀ flag, filter.fromBlock ≠ .bool flag) (seen : view.IsSeen asked)
    (opened : Opened source filter options limit rounds asked ending) :
    StartsInTime view filter asked ↔ ranges asked = [] ∨ ¬view.Lags filter.fromBlock := by
  rcases opened.coversBlocks pageSize with ⟨first, covers, starts⟩
  cases covered : ranges asked with
  | nil =>
      apply iff_of_true _ (Or.inl rfl)
      intro range found
      rw [covered] at found
      cases found
  | cons range others =>
      rw [covered] at starts
      rcases starts (List.cons_ne_nil range others) with ⟨call, head, isFirst, read, placed⟩
      have same := seen call isFirst head read
      subst same
      rcases exists_denoted_of_firstBlock placed noFlag with ⟨block, denotes, inTime⟩
      have start : range.1 = first := covers.pages.start range (by rw [covered]; rfl)
      simp only [StartsInTime, covered, denotes, List.head?_cons, Option.mem_def, Option.some.injEq,
        forall_eq', start, inTime, reduceCtorEq, false_or]

theorem stopsInTime_of_silent (silent : ∀ call ∈ asked, call.range? = none) :
    StopsInTime source filter asked ending := by
  have noRange {before after : List NodeCall} {call : NodeCall} {range : Int × Int}
      (split : asked = before ++ call :: after) (found : call.range? = some range) : False := by
    rw [silent call (by simp [split])] at found
    cases found
  refine ⟨?_, ?_, ?_⟩
  · intro range found
    rcases List.mem_filterMap.mp found with ⟨call, member, isRange⟩
    rw [silent call member] at isRange
    cases isRange
  · exact fun _ _ _ _ _ _ split found => (noRange split found).elim
  · exact fun _ _ _ _ _ _ split found _ => (noRange split found).elim

/-- Where the last block is known by its number, following ends with it. -/
theorem Opened.stopsInTime (pageSize : 1 ≤ source.pageSize)
    (known : filter.toBlock.blockNumber? = lastBlock? filter)
    (opened : Opened source filter options limit rounds asked ending) :
    StopsInTime source filter asked ending := by
  have silent {call : NodeCall} (asks : call.method = "eth_blockNumber") :
      StopsInTime source filter [call] ending := by
    apply stopsInTime_of_silent
    intro other member
    rw [List.mem_singleton.mp member]
    exact NodeCall.range?_of_asksHead asks
  cases opened with
  | satisfied => exact stopsInTime_of_silent (by simp)
  | failed asks | stuck asks => exact silent asks
  | refused read => exact silent (NodeCall.method_of_head? read)
  | followed room read placed rest =>
      have begun : Begun source filter options limit rounds _ _ ending := .followed room read rest
      have stops := begun.stopsAtLast pageSize
      refine ⟨?_, ?_, ?_⟩
      · rw [known]
        exact (begun.coversBlocks pageSize).pages.inside
      · rw [known]
        exact stops.nothingMore
      · rw [known]
        exact stops.ends

theorem blockNumber?_of_noText (noText : ∀ text, filter.toBlock ≠ .text text) :
    filter.toBlock.blockNumber? = lastBlock? filter := by
  unfold lastBlock?
  cases written : filter.toBlock with
  | text text => exact absurd written (noText text)
  | _ => rfl

theorem lastBlock?_of_text {text : String} (written : filter.toBlock = .text text) :
    lastBlock? filter = none := by
  rw [lastBlock?, written]

/-- A filter without its last block. -/
def withoutEnd (filter : LogFilter) : LogFilter :=
  filter.withRange filter.fromBlock .null

/-- If the last block of a filter is not known by its number, every page is the same as without. -/
theorem advance_withoutEnd {transport : Transport} {cursor : Cursor}
    (unknown : lastBlock? filter = none) :
    source.advance transport (withoutEnd filter) options cursor =
      source.advance transport filter options cursor := by
  simp only [advance, unknown]
  rfl

theorem collect_withoutEnd {transport : Transport} {cursor : Cursor} {found : List DecodedEvent}
    (unknown : lastBlock? filter = none) :
    source.collect transport (withoutEnd filter) options limit rounds cursor found =
      source.collect transport filter options limit rounds cursor found := by
  have unknownToo : lastBlock? (withoutEnd filter) = none := rfl
  induction rounds generalizing cursor found with
  | zero => rfl
  | succ rounds ih => simp only [collect, advance_withoutEnd unknown, unknown, unknownToo, ih]

theorem follow_withoutEnd {transport : Transport} (unknown : lastBlock? filter = none) :
    source.follow transport (withoutEnd filter) options limit rounds =
      source.follow transport filter options limit rounds := by
  simp only [follow, collect_withoutEnd unknown]
  rfl

/-- Following does not end by itself if the last block of the filter is not known by its number. -/
theorem Opened.limit_le_of_ended {events : List DecodedEvent} (unknown : lastBlock? filter = none)
    (opened : Opened source filter options limit rounds asked ending)
    (ended : ending = .ended (.ok (events, none))) : limit ≤ events.length := by
  cases opened with
  | satisfied nothing => omega
  | failed | stuck | refused => cases ended
  | followed room read placed rest =>
      apply Nat.le_of_not_lt
      intro less
      rcases rest.isPassed_of_ended ended less with ⟨last, named, _⟩
      rw [unknown] at named
      cases named

/-- **Bounds.** Following covers consecutive pages. They start in time exactly if none is asked for
or the first block of the filter does not lag behind the head. They stop in time if the last block
is no text; if it is one, following is the same as without a last block and never ends by itself. -/
theorem follow_bounds_iff {labels : List Label} {start stop : Rat}
    (pageSize : 1 ≤ source.pageSize) (noFlag : ∀ flag, filter.fromBlock ≠ .bool flag)
    (run : Run (source.follow .direct filter options limit rounds) start labels ending stop)
    (seen : view.IsSeen (calls labels)) :
    (∃ first, CoversBlocks source filter options none first (calls labels)) ∧
    (StartsInTime view filter (calls labels) ↔
      ranges (calls labels) = [] ∨ ¬view.Lags filter.fromBlock) ∧
    ((∀ text, filter.toBlock ≠ .text text) →
      StopsInTime source filter (calls labels) ending) ∧
    ∀ text, filter.toBlock = .text text →
      (∀ transport, source.follow transport (withoutEnd filter) options limit rounds =
        source.follow transport filter options limit rounds) ∧
      ∀ events, ending = .ended (.ok (events, none)) → limit ≤ events.length := by
  have opened := opened_of_run noFlag run
  refine ⟨?_, opened.startsInTime_iff pageSize noFlag seen, ?_, ?_⟩
  · rcases opened.coversBlocks pageSize with ⟨first, covers, _⟩
    exact ⟨first, covers⟩
  · intro noText
    exact opened.stopsInTime pageSize (blockNumber?_of_noText noText)
  · intro text written
    have unknown := lastBlock?_of_text written
    refine ⟨fun transport => follow_withoutEnd unknown, ?_⟩
    intro events ended
    exact opened.limit_le_of_ended unknown ended

section Ticking

/-- A node whose newest block is the fourth one, and of which two are safe and one is final. -/
def fourthBlock : NodeView where
  head := 4
  safe := 2
  finalized := 1
  safe_le := by decide
  finalized_le := by decide

def hexStart : LogFilter where
  fromBlock := .text "0x1"
  toBlock := .int 2

def hexStartAsked : List NodeCall :=
  [headIs 4, logsOf "0x1" "0x2" [tickLog]]

/-- The first block is understood when it is written as a text. -/
theorem follow_bounds_hexStart :
    let ending := .ended (.ok ([tick], none))
    Reaches (tickSource.follow .direct hexStart {} 5 8) 0 hexStartAsked ending ∧
      ranges hexStartAsked = [(1, 2)] ∧ fourthBlock.IsSeen hexStartAsked ∧
      StartsInTime fourthBlock hexStart hexStartAsked ∧
      StopsInTime tickSource hexStart hexStartAsked ending := by
  intro ending
  have reaches : Reaches (tickSource.follow .direct hexStart {} 5 8) 0 hexStartAsked ending :=
    .call (.call (.tell .done))
  have seen : fourthBlock.IsSeen hexStartAsked := by
    intro call isFirst number read
    cases isFirst
    cases read
    rfl
  refine ⟨reaches, rfl, seen, ?_⟩
  rcases reaches with ⟨labels, stop, run, asked⟩
  rw [← asked] at seen
  have bounds := follow_bounds_iff (by decide) (by simp [hexStart]) run seen
  rw [← asked]
  refine ⟨bounds.2.1.mpr (Or.inr ?_), bounds.2.2.1 (by simp [hexStart])⟩
  simp [NodeView.Lags, hexStart]

def hexEnd : LogFilter where
  fromBlock := .int 1
  toBlock := .text "0x2"

def hexEndAsked : List NodeCall :=
  [headIs 4, logsOf "0x1" "0x2" [], logsOf "0x3" "0x4" [tickLog]]

def safeStart : LogFilter where
  fromBlock := .text "safe"

def safeStartAsked : List NodeCall :=
  [headIs 4, logsOf "0x4" "0x4" [tickLog]]

/-- Behind the second block the next page is asked for. -/
theorem hexEnd_goes_on {start : Rat} :
    Reaches (tickSource.collect .direct hexEnd {} 1 2 (Cursor.at 4 3) []) start
      [logsOf "0x3" "0x4" [tickLog]] (.ended (.ok ([tick], none))) :=
  .call (.tell .done)

theorem hexEnd_reaches :
    Reaches (tickSource.follow .direct hexEnd {} 1 3) 0 hexEndAsked (.ended (.ok ([tick], none))) :=
  .call (.call (.tell hexEnd_goes_on))

/-- A filter up to the second block yields an event of the fourth one, and a filter from the safe
block on skips the second and the third one. -/
theorem not_follow_bounds_text :
    let ending := .ended (.ok ([tick], none))
    Reaches (tickSource.follow .direct hexEnd {} 1 3) 0 hexEndAsked ending ∧
      hexEnd.toBlock.blockNumber? = some 2 ∧ ¬StopsInTime tickSource hexEnd hexEndAsked ending ∧
    Reaches (tickSource.follow .direct safeStart {} 1 8) 0 safeStartAsked ending ∧
      fourthBlock.IsSeen safeStartAsked ∧ ¬StartsInTime fourthBlock safeStart safeStartAsked := by
  intro ending
  refine ⟨hexEnd_reaches, rfl, ?_, .call (.call (.tell .done)), ?_, ?_⟩
  · intro stops
    have covered : ranges hexEndAsked = [(1, 2), (3, 4)] := rfl
    have inside := stops.inside (3, 4) (by simp [covered]) 2 rfl
    revert inside
    decide
  · intro call isFirst number read
    cases isFirst
    cases read
    rfl
  · intro starts
    have inTime := starts (4, 4) rfl 2 rfl
    revert inTime
    decide

end Ticking

end EventSource

end ContractClient
