import ContractClient.Proofs.Event.Round
import Mathlib.Data.List.Chain

/-!
# The blocks that are followed

Whoever follows events asks for the logs of consecutive ranges of blocks, from the first block on
(`EventSource.CoversBlocks`): each range starts right after the end of the one before, has no more
blocks than a page, and ends neither behind the last block of the filter nor so close to the newest
head that its blocks have not settled. Every round keeps these properties
(`EventSource.CoversBlocks.page`, `EventSource.CoversBlocks.poll`), whatever the head does.

Following ends by itself when the last block of the filter has been passed, and only then
(`EventSource.StopsAtLast`).
-/

namespace ContractClient

/-- The ranges of blocks whose logs were asked for. -/
def ranges (asked : List NodeCall) : List (Int × Int) :=
  asked.filterMap NodeCall.range?

/-- The head that was read last, if one was known before or has been read since. -/
def newestHead (known : Option Int) (asked : List NodeCall) : Option Int :=
  asked.foldl (fun newest call => call.head?.or newest) known

section Calls

variable {call : NodeCall} {asked : List NodeCall} {range : Int × Int} {number : Int}

theorem NodeCall.method_of_range? (found : call.range? = some range) :
    call.method = "eth_getLogs" := by
  rw [NodeCall.range?] at found
  split at found
  · next asks => exact asks
  · cases found

theorem NodeCall.method_of_head? (found : call.head? = some number) :
    call.method = "eth_blockNumber" := by
  rw [NodeCall.head?] at found
  split at found
  · next asks => exact asks
  · cases found

theorem NodeCall.range?_of_asksHead (asks : call.method = "eth_blockNumber") :
    call.range? = none := by
  simp [NodeCall.range?, asks]

theorem NodeCall.head?_of_range? (found : call.range? = some range) : call.head? = none := by
  simp [NodeCall.head?, NodeCall.method_of_range? found]

theorem ranges_page (found : call.range? = some range) :
    ranges (call :: asked) = range :: ranges asked :=
  List.filterMap_cons_some found

theorem ranges_head (asks : call.method = "eth_blockNumber") :
    ranges (call :: asked) = ranges asked :=
  List.filterMap_cons_none (NodeCall.range?_of_asksHead asks)

end Calls

namespace EventSource

variable {source : EventSource} {filter : LogFilter} {options : FollowOptions}
  {limit rounds : Nat} {head next first : Int} {known : Option Int}
  {found : List DecodedEvent} {call : NodeCall} {asked : List NodeCall}
  {ending : Ending (List DecodedEvent × Option Failure)}

/-- Ranges are consecutive pages of blocks from a block on, up to the last block of a filter. -/
structure ConsecutivePages (source : EventSource) (filter : LogFilter) (first : Int)
    (covered : List (Int × Int)) : Prop where
  start : ∀ range ∈ covered.head?, range.1 = first
  consecutive : covered.IsChain fun earlier later => later.1 = earlier.2 + 1
  nonempty : ∀ range ∈ covered, range.1 ≤ range.2
  paged : ∀ range ∈ covered, range.2 - range.1 + 1 ≤ source.pageSize
  inside : ∀ range ∈ covered, ∀ last ∈ lastBlock? filter, range.2 ≤ last

/-- What was asked covers consecutive pages of settled blocks from a block on. -/
structure CoversBlocks (source : EventSource) (filter : LogFilter) (options : FollowOptions)
    (known : Option Int) (first : Int) (asked : List NodeCall) : Prop where
  readable : ∀ call ∈ asked, call.method = "eth_getLogs" → call.range?.isSome
  pages : ConsecutivePages source filter first (ranges asked)
  settled : ∀ before call after range, asked = before ++ call :: after →
    call.range? = some range →
    ∃ newest ∈ newestHead known before, range.2 ≤ newest - options.confirmations

theorem coversBlocks_nil : CoversBlocks source filter options known first [] where
  readable := by simp
  pages := ⟨by simp [ranges], .nil, by simp [ranges], by simp [ranges], by simp [ranges]⟩
  settled := by simp

theorem stopFrom_le_settled :
    source.stopFrom filter options head next ≤ head - options.confirmations := by
  simp only [stopFrom, pageEnd]
  split <;> omega

theorem stopFrom_le_page :
    source.stopFrom filter options head next ≤ next + source.pageSize - 1 := by
  simp only [stopFrom, pageEnd, Cursor.at]
  split <;> omega

theorem stopFrom_le_last {last : Int} (named : last ∈ lastBlock? filter) :
    source.stopFrom filter options head next ≤ last := by
  simp only [stopFrom, pageEnd, Option.mem_def.mp named]
  omega

theorem next_le_stopFrom (pageSize : 1 ≤ source.pageSize)
    (settled : next ≤ head - options.confirmations) (remains : ¬IsPassed filter next) :
    next ≤ source.stopFrom filter options head next := by
  simp only [stopFrom, pageEnd, Cursor.at]
  cases named : lastBlock? filter with
  | none => simp only; omega
  | some last =>
      have notPassed : ¬last < next := fun passed => remains ⟨last, named, passed⟩
      simp only
      omega

/-- A page of settled blocks is followed by the pages that start behind it. -/
theorem ConsecutivePages.page {covered : List (Int × Int)} (pageSize : 1 ≤ source.pageSize)
    (settled : next ≤ head - options.confirmations) (remains : ¬IsPassed filter next)
    (rest : ConsecutivePages source filter (source.stopFrom filter options head next + 1) covered) :
    ConsecutivePages source filter next
      ((next, source.stopFrom filter options head next) :: covered) where
  start := by simp
  consecutive := List.isChain_cons.mpr ⟨rest.start, rest.consecutive⟩
  nonempty :=
    List.forall_mem_cons.mpr ⟨next_le_stopFrom pageSize settled remains, rest.nonempty⟩
  paged := by
    have bound : source.stopFrom filter options head next ≤ next + source.pageSize - 1 :=
      stopFrom_le_page
    exact List.forall_mem_cons.mpr ⟨by dsimp only; omega, rest.paged⟩
  inside := List.forall_mem_cons.mpr ⟨fun last named => stopFrom_le_last named, rest.inside⟩

theorem CoversBlocks.page (pageSize : 1 ≤ source.pageSize)
    (settled : next ≤ head - options.confirmations) (remains : ¬IsPassed filter next)
    (range : call.range? = some (next, source.stopFrom filter options head next))
    (rest : CoversBlocks source filter options (some head)
      (source.stopFrom filter options head next + 1) asked) :
    CoversBlocks source filter options (some head) next (call :: asked) where
  readable := by
    rw [List.forall_mem_cons]
    exact ⟨fun _ => by simp [range], rest.readable⟩
  pages := by
    rw [ranges_page range]
    exact rest.pages.page pageSize settled remains
  settled := by
    intro before other after otherRange split found
    cases before with
    | nil =>
        cases split
        rw [range] at found
        cases found
        exact ⟨head, rfl, stopFrom_le_settled⟩
    | cons first before =>
        cases split
        have later := rest.settled before other after otherRange rfl found
        simpa [newestHead, NodeCall.head?_of_range? range] using later

/-- The pages that start at a block stay the same when the head is asked for. -/
theorem CoversBlocks.poll (asks : call.method = "eth_blockNumber")
    (rest : CoversBlocks source filter options (call.head?.or known) first asked) :
    CoversBlocks source filter options known first (call :: asked) where
  readable := by
    rw [List.forall_mem_cons]
    exact ⟨fun other => absurd (asks.symm.trans other) (by decide), rest.readable⟩
  pages := by
    rw [ranges_head asks]
    exact rest.pages
  settled := by
    intro before other after range split found
    cases before with
    | nil =>
        cases split
        rw [NodeCall.range?_of_asksHead asks] at found
        cases found
    | cons first before =>
        cases split
        exact rest.settled before other after range rfl found

theorem Round.coversBlocks {newHead newNext : Int} {events : List DecodedEvent}
    (pageSize : 1 ≤ source.pageSize) (remains : ¬IsPassed filter next)
    (round : Round source filter options head next call newHead newNext events)
    (rest : CoversBlocks source filter options (some newHead) newNext asked) :
    CoversBlocks source filter options (some head) next (call :: asked) := by
  cases round with
  | page settled range _ => exact rest.page pageSize settled remains range
  | poll _ read =>
      apply CoversBlocks.poll (NodeCall.method_of_head? read)
      rwa [read, Option.some_or]

theorem Broken.coversBlocks (pageSize : 1 ≤ source.pageSize) (remains : ¬IsPassed filter next)
    (broken : Broken source filter options head next asked) :
    CoversBlocks source filter options (some head) next asked := by
  cases broken with
  | early => exact coversBlocks_nil
  | page settled range _ => exact coversBlocks_nil.page pageSize settled remains range
  | poll _ asks _ => exact coversBlocks_nil.poll asks

theorem Followed.coversBlocks (pageSize : 1 ≤ source.pageSize)
    (followed : Followed source filter options limit rounds head next found asked ending) :
    CoversBlocks source filter options (some head) next asked := by
  induction followed with
  | suspended => exact coversBlocks_nil
  | passed => exact coversBlocks_nil
  | full remains round _ => exact round.coversBlocks pageSize remains coversBlocks_nil
  | more remains round _ _ ih => exact round.coversBlocks pageSize remains ih
  | failed remains broken => exact broken.coversBlocks pageSize remains
  | stuck remains broken => exact broken.coversBlocks pageSize remains

theorem Begun.coversBlocks (pageSize : 1 ≤ source.pageSize)
    (begun : Begun source filter options limit rounds first asked ending) :
    CoversBlocks source filter options none first asked := by
  cases begun with
  | satisfied => exact coversBlocks_nil
  | failed asks _ => exact coversBlocks_nil.poll asks
  | stuck asks _ => exact coversBlocks_nil.poll asks
  | followed _ read rest =>
      apply CoversBlocks.poll (NodeCall.method_of_head? read)
      rw [read, Option.some_or]
      exact rest.coversBlocks pageSize

/-- The end of the last of some ranges that start at a block, or the block before where there are no
ranges. -/
def endOf (next : Int) (covered : List (Int × Int)) : Int :=
  (covered.getLast?.map Prod.snd).getD (next - 1)

theorem endOf_nil : endOf next [] = next - 1 :=
  rfl

theorem endOf_cons (range : Int × Int) (covered : List (Int × Int)) :
    endOf next (range :: covered) = endOf (range.2 + 1) covered := by
  rw [endOf, endOf, List.getLast?_cons]
  cases covered.getLast? with
  | none => simp
  | some last => simp

/-- How following ends as far as the last block of the filter decides it. -/
structure StopsAtLast (source : EventSource) (filter : LogFilter) (limit rounds : Nat)
    (first : Int) (asked : List NodeCall)
    (ending : Ending (List DecodedEvent × Option Failure)) : Prop where
  reached : ∀ events, ending = .ended (.ok (events, none)) → events.length < limit →
    ∃ last ∈ lastBlock? filter,
      (∃ range ∈ (ranges asked).getLast?, range.2 = last) ∨ (ranges asked = [] ∧ last < first)
  nothingMore : ∀ before call after begin, ∀ last ∈ lastBlock? filter,
    asked = before ++ call :: after → call.range? = some (begin, last) → after = []
  ends : ∀ before call after begin, ∀ last ∈ lastBlock? filter,
    asked = before ++ call :: after → call.range? = some (begin, last) →
    (call.events? source.event).isSome →
    ending = .unfinished ∨ ∃ events, ending = .ended (.ok (events, none))
  atOnce : ∀ last ∈ lastBlock? filter, last < first →
    ranges asked = [] ∧ ∀ call ∈ asked, call.head?.isSome →
      asked = [call] ∧ (ending = .unfinished ∨ ending = .ended (.ok ([], none)))
  unfinished : ending = .unfinished → asked.length = rounds + 1

theorem Followed.of_isPassed (passed : IsPassed filter next)
    (followed : Followed source filter options limit rounds head next found asked ending) :
    asked = [] ∧ (ending = .unfinished ∨ ending = .ended (.ok (found, none))) := by
  cases followed with
  | suspended => exact ⟨rfl, Or.inl rfl⟩
  | passed => exact ⟨rfl, Or.inr rfl⟩
  | full remains | more remains | failed remains | stuck remains => exact absurd passed remains

theorem Followed.length_of_unfinished
    (followed : Followed source filter options limit rounds head next found asked ending)
    (unfinished : ending = .unfinished) : asked.length = rounds := by
  induction followed with
  | suspended => rfl
  | more _ _ _ _ ih => rw [List.length_cons, ih unfinished]
  | _ => cases unfinished

/-- A round that asks for a range leads to the block behind it. -/
theorem Round.next_of_range {newHead newNext begin last : Int} {events : List DecodedEvent}
    (round : Round source filter options head next call newHead newNext events)
    (range : call.range? = some (begin, last)) : newNext = last + 1 := by
  cases round with
  | page _ found _ =>
      rw [range] at found
      cases found
      rfl
  | poll _ read =>
      rw [NodeCall.range?_of_asksHead (NodeCall.method_of_head? read)] at range
      cases range

theorem isPassed_behind {last : Int} (named : last ∈ lastBlock? filter) :
    IsPassed filter (last + 1) :=
  ⟨last, named, by omega⟩

/-- Nothing is asked after a page that ends at the last block, and if its logs can be read following
ends. -/
theorem Followed.stops {before after : List NodeCall} {begin last : Int}
    (followed : Followed source filter options limit rounds head next found asked ending)
    (named : last ∈ lastBlock? filter) (split : asked = before ++ call :: after)
    (range : call.range? = some (begin, last)) :
    after = [] ∧ ((call.events? source.event).isSome →
      ending = .unfinished ∨ ∃ events, ending = .ended (.ok (events, none))) := by
  induction followed generalizing before with
  | suspended | passed => simp at split
  | full _ _ _ =>
      rcases List.append_eq_singleton_iff.mp split.symm with ⟨rfl, same⟩ | ⟨_, absent⟩
      · cases same
        exact ⟨rfl, fun _ => Or.inr ⟨_, rfl⟩⟩
      · cases absent
  | more _ round _ rest ih =>
      cases before with
      | nil =>
          cases split
          rw [round.next_of_range range] at rest
          rcases rest.of_isPassed (isPassed_behind named) with ⟨nothing, rfl | rfl⟩
          · exact ⟨nothing, fun _ => Or.inl rfl⟩
          · exact ⟨nothing, fun _ => Or.inr ⟨_, rfl⟩⟩
      | cons first before =>
          cases split
          exact ih rfl
  | failed _ broken | stuck _ broken =>
      cases broken with
      | early => simp at split
      | page _ _ unread =>
          rcases List.append_eq_singleton_iff.mp split.symm with ⟨rfl, same⟩ | ⟨_, absent⟩
          · cases same
            exact ⟨rfl, fun read => by simp [unread] at read⟩
          · cases absent
      | poll _ asks _ =>
          rcases List.append_eq_singleton_iff.mp split.symm with ⟨rfl, same⟩ | ⟨_, absent⟩
          · cases same
            rw [NodeCall.range?_of_asksHead asks] at range
            cases range
          · cases absent

theorem Round.endOf_ranges {newHead newNext : Int} {events : List DecodedEvent}
    (round : Round source filter options head next call newHead newNext events) :
    endOf next (ranges (call :: asked)) = endOf newNext (ranges asked) := by
  cases round with
  | page _ range _ => rw [ranges_page range, endOf_cons]
  | poll _ read => rw [ranges_head (NodeCall.method_of_head? read)]

/-- Following ends by itself only when the last block of the filter has been passed. -/
theorem Followed.isPassed_of_ended {events : List DecodedEvent}
    (followed : Followed source filter options limit rounds head next found asked ending)
    (ended : ending = .ended (.ok (events, none))) (room : events.length < limit) :
    IsPassed filter (endOf next (ranges asked) + 1) := by
  induction followed with
  | passed passed =>
      rw [ranges, List.filterMap_nil, endOf_nil]
      simpa using passed
  | full _ _ enough =>
      cases ended
      rw [List.length_take] at room
      omega
  | more _ round _ _ ih =>
      rw [round.endOf_ranges]
      exact ih ended
  | suspended | failed | stuck => cases ended

/-- Without an answer from the node about its head nothing else is asked, and nothing is decided. -/
theorem stopsAtLast_of_unread (asks : call.method = "eth_blockNumber") (unread : call.head? = none)
    (failed : (∃ failure, ending = .ended (.ok ([], some failure))) ∨ ending = .stuck) :
    StopsAtLast source filter limit rounds first [call] ending := by
  have noRange := NodeCall.range?_of_asksHead asks
  have only : ∀ {before after : List NodeCall} {other : NodeCall},
      [call] = before ++ other :: after → other = call := by
    intro before after other split
    have member : other ∈ [call] := by simp [split]
    exact List.mem_singleton.mp member
  refine ⟨?_, ?_, ?_, ?_, ?_⟩
  · rintro events rfl
    rcases failed with ⟨_, same⟩ | same <;> cases same
  · intro before other after begin last _ split range
    rw [only split, noRange] at range
    cases range
  · intro before other after begin last _ split range
    rw [only split, noRange] at range
    cases range
  · intro last _ _
    refine ⟨ranges_head asks, fun other member read => ?_⟩
    rw [List.mem_singleton.mp member, unread] at read
    cases read
  · rintro rfl
    rcases failed with ⟨_, same⟩ | same <;> cases same

/-- Following that ends by itself has reached the last block of the filter, or has started behind
it. -/
theorem Followed.reached {events : List DecodedEvent}
    (followed : Followed source filter options limit rounds head next found asked ending)
    (inside : ∀ range ∈ ranges asked, ∀ last ∈ lastBlock? filter, range.2 ≤ last)
    (ended : ending = .ended (.ok (events, none))) (room : events.length < limit) :
    ∃ last ∈ lastBlock? filter,
      (∃ range ∈ (ranges asked).getLast?, range.2 = last) ∨ (ranges asked = [] ∧ last < next) := by
  rcases followed.isPassed_of_ended ended room with ⟨last, named, passed⟩
  refine ⟨last, named, ?_⟩
  cases final : (ranges asked).getLast? with
  | none =>
      rw [endOf, final] at passed
      refine Or.inr ⟨List.getLast?_eq_none_iff.mp final, ?_⟩
      simpa using passed
  | some range =>
      have bound := inside range (List.mem_of_getLast? final) last named
      rw [endOf, final, Option.map_some, Option.getD_some] at passed
      exact Or.inl ⟨range, rfl, by omega⟩

/-- A request for logs stands behind a question for the head. -/
theorem exists_split_behind_head {before after : List NodeCall} {first : NodeCall}
    {range : Int × Int} (asks : first.method = "eth_blockNumber")
    (split : first :: asked = before ++ call :: after) (asksFor : call.range? = some range) :
    ∃ earlier, asked = earlier ++ call :: after := by
  cases before with
  | nil =>
      cases split
      rw [NodeCall.range?_of_asksHead asks] at asksFor
      cases asksFor
  | cons other before =>
      cases split
      exact ⟨before, rfl⟩

theorem Begun.stopsAtLast (pageSize : 1 ≤ source.pageSize)
    (begun : Begun source filter options limit rounds first asked ending) :
    StopsAtLast source filter limit rounds first asked ending := by
  have covers := begun.coversBlocks pageSize
  cases begun with
  | satisfied nothing =>
      subst nothing
      refine ⟨?_, ?_, ?_, ?_, ?_⟩
      · intro events _ room
        omega
      · simp
      · simp
      · simp [ranges]
      · nofun
  | failed asks unread => exact stopsAtLast_of_unread asks unread (Or.inl ⟨_, rfl⟩)
  | stuck asks unread => exact stopsAtLast_of_unread asks unread (Or.inr rfl)
  | followed room read rest =>
      have asks := NodeCall.method_of_head? read
      have inside := covers.pages.inside
      rw [ranges_head asks] at inside
      refine ⟨?_, ?_, ?_, ?_, ?_⟩
      · intro events ended room
        rw [ranges_head asks]
        exact rest.reached inside ended room
      · intro before call after begin last named split range
        rcases exists_split_behind_head asks split range with ⟨earlier, rfl⟩
        exact (rest.stops named rfl range).1
      · intro before call after begin last named split range
        rcases exists_split_behind_head asks split range with ⟨earlier, rfl⟩
        exact (rest.stops named rfl range).2
      · intro last named before
        rcases rest.of_isPassed ⟨last, named, before⟩ with ⟨rfl, ended⟩
        refine ⟨ranges_head asks, fun call member _ => ?_⟩
        rw [List.mem_singleton.mp member]
        exact ⟨rfl, ended⟩
      · intro unfinished
        rw [List.length_cons, rest.length_of_unfinished unfinished]

end EventSource

end ContractClient
