import ContractClient.Proofs.Transaction.Expiry
import Mathlib.Data.List.DropRight

/-!
# Bounds by blocks

A wait with a limit of blocks ends at the first poll without a receipt at which so many blocks have
passed since the first such poll of the wait (`Pipeline.blockBound_wait`). A receipt in between does
not start the count anew. So a wait may end early when a receipt was found and is lost again, as it
counts the blocks with a receipt, too; otherwise it ends as if it counted from the last receipt on
(`Pipeline.counts_blocks`).

What a part of a wait counts is followed poll by poll (`Pipeline.Counts`): the wait goes on with a
head from which it counts, or the part is the last one and the bound is kept.
-/

namespace ContractClient

/-- What an answer shows to a wait that counts blocks. -/
inductive Sight where
  | missing
  | found
  | height (number : Int)
  deriving DecidableEq

namespace NodeCall

/-- What a call shows: that there is a receipt or none, or the height of the chain. -/
def sight? (call : NodeCall) : Option Sight :=
  match call.answer with
  | some (.ok answer) =>
    if call.method = "eth_getTransactionReceipt" then
      some (if answer matches .null then .missing else .found)
    else if call.method = "eth_blockNumber" then
      (Quantity.toInt answer).toOption.map .height
    else none
  | _ => none

theorem sight?_eq_missing_iff {call : NodeCall} : call.sight? = some .missing ↔
    call.method = "eth_getTransactionReceipt" ∧ call.answer = some (.ok .null) := by
  unfold sight?
  split
  · next answer answered =>
      rw [answered]
      split
      · next method => cases answer <;> simp [method]
      · next method => split <;> simp [method]
  · next unanswered =>
      refine iff_of_false nofun fun missing => ?_
      exact unanswered _ missing.2

end NodeCall

def sights (asked : List NodeCall) : List Sight :=
  asked.filterMap NodeCall.sight?

/-- The head that was seen by the first poll without a receipt. -/
def firstHead : List Sight → Option Int
  | .missing :: .height number :: _ => some number
  | _ :: rest => firstHead rest
  | [] => none

/-- The same, where only the polls after the last receipt count. -/
def firstHeadSinceFound (seen : List Sight) : Option Int :=
  firstHead (seen.rtakeWhile (· ≠ .found))

theorem firstHead_append {seen rest : List Sight} (noMissing : .missing ∉ seen) :
    firstHead (seen ++ rest) = firstHead rest := by
  induction seen with
  | nil => rfl
  | cons sight seen ih =>
      rcases not_or.mp (List.mem_cons.not.mp noMissing) with ⟨different, others⟩
      cases sight with
      | missing => exact absurd rfl different
      | found => exact ih others
      | height number => exact ih others

/-- As long as no receipt is found after a poll without one, all such polls count. -/
theorem firstHeadSinceFound_eq {seen : List Sight} (kept : ¬[.missing, .found].Sublist seen) :
    firstHeadSinceFound seen = firstHead seen := by
  have parts : seen.rdropWhile (· ≠ .found) ++ seen.rtakeWhile (· ≠ .found) = seen :=
    List.rdropWhile_append_rtakeWhile ..
  -- What does not count ends with a receipt, so no poll without one stands before that.
  have noMissing : .missing ∉ seen.rdropWhile (· ≠ .found) := by
    intro member
    have nonempty := List.ne_nil_of_mem member
    have split := List.dropLast_append_getLast nonempty
    have last := List.rdropWhile_last_not (fun sight => decide (sight ≠ .found)) seen nonempty
    have isFound : (seen.rdropWhile (· ≠ .found)).getLast nonempty = .found := by simpa using last
    rw [isFound] at split
    rw [← split, List.mem_append] at member
    rcases member with earlier | same
    · apply kept
      rw [← parts, ← split, List.append_assoc]
      exact (List.singleton_sublist.mpr earlier).append (by simp)
    · simp at same
  rw [firstHeadSinceFound, ← firstHead_append noMissing, parts]

/-- So many blocks have passed since the head that counts. -/
def Passed (reference : List Sight → Option Int) (blocks : Int) (before : List NodeCall)
    (answer : Value) : Prop :=
  ∃ first height, reference (sights before) = some first ∧ Quantity.toInt answer = .ok height ∧
    first + blocks ≤ height

/-- At no poll without a receipt so many blocks have passed. -/
def Unpassed (reference : List Sight → Option Int) (txHash : Value) (blocks : Int)
    (asked : List NodeCall) : Prop :=
  ∀ before answer after, asked = before ++ .receipt txHash .null :: .head answer :: after →
    ¬Passed reference blocks before answer

/-- The bound is reported at the first poll without a receipt at which so many blocks have passed,
and at no other, and the wait is over then. -/
structure BlockBound (reference : List Sight → Option Int) (txHash : Value) (blocks : Int)
    (asked : List NodeCall) (reported : Prop) : Prop where
  sound : reported → ∃ before answer,
    asked = before ++ [.receipt txHash .null, .head answer] ∧ Passed reference blocks before answer
  prompt : ∀ before answer after,
    asked = before ++ .receipt txHash .null :: .head answer :: after →
      Passed reference blocks before answer → after = [] ∧ reported

section Polls

variable {reference : List Sight → Option Int} {txHash : Value} {blocks : Int}
  {asked : List NodeCall}

/-- Without the number of a head nothing says how many blocks have passed. -/
theorem unpassed_of_unread
    (unread : ∀ answer height, Quantity.toInt answer = .ok height → .head answer ∉ asked) :
    Unpassed reference txHash blocks asked := by
  rintro before answer after rfl ⟨_, height, _, number, _⟩
  exact unread answer height number (by simp)

theorem unpassed_of_found (found : .missing ∉ sights asked) :
    Unpassed reference txHash blocks asked := by
  rintro before answer after rfl _
  exact found (List.mem_filterMap.mpr ⟨.receipt txHash .null, by simp, rfl⟩)

theorem unpassed_of_pair {answer : Value} (ahead : ¬Passed reference blocks [] answer) :
    Unpassed reference txHash blocks [.receipt txHash .null, .head answer] := by
  intro before other after split
  rcases neighbours_of_pair split with ⟨rfl, _, same, _⟩
  cases NodeCall.answer_of_head_eq same
  exact ahead

end Polls

namespace BlockBound

variable {reference later : List Sight → Option Int} {txHash : Value} {blocks : Int}
  {asked before : List NodeCall} {reported : Prop}

theorem of_unpassed (unpassed : Unpassed reference txHash blocks asked)
    (unreported : ¬reported) :
    BlockBound reference txHash blocks asked reported where
  sound isReported := absurd isReported unreported
  prompt before answer after split passed := absurd passed (unpassed before answer after split)

theorem of_passed {answer : Value} (passed : Passed reference blocks [] answer)
    (isReported : reported) :
    BlockBound reference txHash blocks [.receipt txHash .null, .head answer] reported where
  sound _ := ⟨[], answer, rfl, passed⟩
  prompt := by
    intro before other after split _
    rcases neighbours_of_pair split with ⟨_, _, _, rfl⟩
    exact ⟨rfl, isReported⟩

/-- A part of a wait in which not so many blocks have passed may stand before the rest. -/
theorem append (unpassed : Unpassed reference txHash blocks before)
    (closed : before.getLast? ≠ some (.receipt txHash .null))
    (shift : ∀ seen, reference (sights before ++ seen) = later seen)
    (rest : BlockBound later txHash blocks asked reported) :
    BlockBound reference txHash blocks (before ++ asked) reported := by
  have shifted : ∀ middle answer, Passed reference blocks (before ++ middle) answer ↔
      Passed later blocks middle answer := by
    intro middle answer
    rw [Passed, Passed, sights, List.filterMap_append]
    simp only [← shift, sights]
  refine ⟨?_, ?_⟩
  · intro isReported
    rcases rest.sound isReported with ⟨middle, answer, rfl, passed⟩
    exact ⟨before ++ middle, answer, by simp, (shifted middle answer).mpr passed⟩
  · intro earlier answer after split passed
    rcases neighbours_of_append split closed with ⟨middle, rfl, found⟩ | ⟨middle, found⟩
    · exact rest.prompt middle answer after found ((shifted middle answer).mp passed)
    · exact absurd passed (unpassed earlier answer middle found)

/-- Where one reference bounds a wait, another one does exactly if both agree at every poll. -/
theorem congr_iff (bound : BlockBound reference txHash blocks asked reported) :
    BlockBound later txHash blocks asked reported ↔ ∀ before answer after,
      asked = before ++ .receipt txHash .null :: .head answer :: after →
        (Passed reference blocks before answer ↔ Passed later blocks before answer) := by
  have implies : ∀ {one other : List Sight → Option Int},
      BlockBound one txHash blocks asked reported → BlockBound other txHash blocks asked reported →
        ∀ before answer after, asked = before ++ .receipt txHash .null :: .head answer :: after →
          Passed one blocks before answer → Passed other blocks before answer := by
    intro one other first second before answer after split passed
    -- A poll at which the bound is reported is the last one, so both references report it there.
    rcases first.prompt before answer after split passed with ⟨rfl, isReported⟩
    rcases second.sound isReported with ⟨others, last, same, passedThere⟩
    rw [split] at same
    rcases List.append_inj' same rfl with ⟨rfl, sameLast⟩
    rw [List.cons.injEq, List.cons.injEq] at sameLast
    cases NodeCall.answer_of_head_eq sameLast.2.1
    exact passedThere
  constructor
  · intro other before answer after split
    exact ⟨implies bound other before answer after split,
      implies other bound before answer after split⟩
  · intro agree
    refine ⟨?_, ?_⟩
    · intro isReported
      rcases bound.sound isReported with ⟨before, answer, split, passed⟩
      exact ⟨before, answer, split, (agree before answer [] split).mp passed⟩
    · intro before answer after split passed
      exact bound.prompt before answer after split ((agree before answer after split).mpr passed)

/-- The polls before a receipt count only if there is a poll without one before it and another one
after it. -/
theorem sinceFound (bound : BlockBound firstHead txHash blocks asked reported)
    (kept : ¬[.missing, .found, .missing].Sublist (sights asked)) :
    BlockBound firstHeadSinceFound txHash blocks asked reported := by
  apply bound.congr_iff.mpr
  rintro before answer after rfl
  have keptBefore : ¬[.missing, .found].Sublist (sights before) := by
    intro lost
    apply kept
    rw [sights, List.filterMap_append]
    exact lost.append (List.singleton_sublist.mpr
      (List.mem_filterMap.mpr ⟨.receipt txHash .null, List.mem_cons_self, rfl⟩))
  rw [Passed, Passed, firstHeadSinceFound_eq keptBefore]

end BlockBound

namespace Pipeline

variable {α β : Type} {pipeline : Pipeline} {pending : PendingTransaction} {bound : WaitBound}
  {txHash : Value} {blocks : Int} {start stop : Rat} {labels before after : List Label}

open Activity PendingTransaction

/-- Nothing says that the wait has expired. -/
def Lasting (labels : List Label) : Prop :=
  ∀ known ∈ progress labels, known.state ≠ .timedOut

/-- A run sets the state to expired and ends with the fault that names the bound by blocks. -/
structure ReportsBlockBound (txHash : Value) (blocks : Int) (labels : List Label)
    (ending : Ending α) : Prop where
  expired : ∃ known ∈ progress labels, known.state = .timedOut
  raised : ending =
    .ended (.error (.fault (.confirmationTimeout txHash none (some (.int blocks)))))

theorem ReportsBlockBound.not_lasting {ending : Ending α}
    (reports : ReportsBlockBound txHash blocks labels ending) : ¬Lasting labels := by
  intro lasting
  rcases reports.expired with ⟨known, member, expired⟩
  exact lasting known member expired

theorem lasting_append : Lasting (before ++ after) ↔ Lasting before ∧ Lasting after := by
  rw [Lasting, progress_append]
  exact List.forall_mem_append

/-- The state is set in the last part of a run. -/
theorem reportsBlockBound_append {ending : Ending α} (lasting : Lasting before) :
    ReportsBlockBound txHash blocks (before ++ after) ending ↔
      ReportsBlockBound txHash blocks after ending := by
  constructor
  · rintro ⟨⟨known, member, expired⟩, raised⟩
    rw [progress_append, List.mem_append] at member
    exact ⟨⟨known, member.resolve_left fun early => lasting known early expired, expired⟩, raised⟩
  · rintro ⟨⟨known, member, expired⟩, raised⟩
    exact ⟨⟨known, by simp [member], expired⟩, raised⟩

theorem reportsBlockBound_of_abandons {early : Ending α} {ending : Ending β}
    (abandons : Abandons early ending) :
    ReportsBlockBound txHash blocks labels early ↔
      ReportsBlockBound txHash blocks labels ending := by
  constructor <;> (rintro ⟨expired, rfl⟩; cases abandons; exact ⟨expired, rfl⟩)

/-- A step sets the state to expired only if it ends with a fault that names no blocks. -/
def ExpiresByTime (txHash : Value) (step : Activity α) : Prop :=
  ∀ start labels ending stop, Run step start labels ending stop → Lasting labels ∨
    ∃ limit, ending = .ended (.error (.fault (.confirmationTimeout txHash limit)))

namespace ExpiresByTime

theorem lasting {step : Activity α} {result : α} (expires : ExpiresByTime txHash step)
    (run : Run step start labels (.ended (.ok result)) stop) : Lasting labels := by
  rcases expires _ _ _ _ run with lasting | ⟨limit, same⟩
  · exact lasting
  · cases same

theorem not_reports {step : Activity α} {ending : Ending α} (expires : ExpiresByTime txHash step)
    (run : Run step start labels ending stop) : ¬ReportsBlockBound txHash blocks labels ending := by
  intro reports
  rcases expires _ _ _ _ run with lasting | ⟨limit, same⟩
  · exact reports.not_lasting lasting
  · rw [reports.raised] at same
    simp [confirmationTimeout_ne] at same

theorem bind_of_run {step : Activity α} {next : α → Activity β}
    (first : ExpiresByTime txHash step)
    (second : ∀ value start labels stop, Run step start labels (.ended (.ok value)) stop →
      ExpiresByTime txHash (next value)) : ExpiresByTime txHash (step >>= next) := by
  intro start labels ending stop run
  rcases Run.bind_inv run with ⟨value, before, _, after, stepRun, nextRun, rfl⟩ |
    ⟨early, stepRun, abandons⟩
  · have lastingBefore := first.lasting stepRun
    refine (second value _ _ _ stepRun _ _ _ _ nextRun).imp_left fun lastingAfter => ?_
    exact lasting_append.mpr ⟨lastingBefore, lastingAfter⟩
  · refine (first _ _ _ _ stepRun).imp_right ?_
    rintro ⟨limit, rfl⟩
    cases abandons
    exact ⟨limit, rfl⟩

theorem bind {step : Activity α} {next : α → Activity β} (first : ExpiresByTime txHash step)
    (second : ∀ value, ExpiresByTime txHash (next value)) :
    ExpiresByTime txHash (step >>= next) :=
  bind_of_run first fun value _ _ _ _ => second value

theorem of_unpublished {step : Activity α}
    (unpublished : ∀ start labels ending stop, Run step start labels ending stop →
      progress labels = []) : ExpiresByTime txHash step := by
  intro start labels ending stop run
  exact Or.inl (by simp [Lasting, unpublished _ _ _ _ run])

theorem done (outcome : Outcome α) : ExpiresByTime txHash (Activity.done outcome) := by
  apply of_unpublished
  intro start labels ending stop run
  rw [(Run.done_inv run).1, progress_nil]

theorem note {severity : Severity} {logger message : String} {fields : Dict} :
    ExpiresByTime txHash (Activity.note severity logger message fields) := by
  apply of_unpublished
  intro start labels ending stop run
  rcases Run.tell_inv run with ⟨_, doneRun, rfl⟩
  rw [(Run.done_inv doneRun).1]
  rfl

theorem publish {known : PendingTransaction} (lasting : known.state ≠ .timedOut) :
    ExpiresByTime txHash (Activity.publish known) := by
  intro start labels ending stop run
  rcases Run.tell_inv run with ⟨_, doneRun, rfl⟩
  rw [(Run.done_inv doneRun).1]
  exact Or.inl (by simpa [Lasting] using lasting)

theorem timeOut {limit : Option Value} :
    ExpiresByTime pending.txHash (timeOut pending limit : Activity α) := by
  intro start labels ending stop run
  rcases (reported_timeOut run).1 with ⟨_⟩
  exact Or.inr ⟨limit, rfl⟩

end ExpiresByTime

theorem progress_question {method : String} {params : List Value} {read : Value → Outcome α}
    {deadline : Option Rat} {ending : Ending α}
    (run : Run ((question method params read).bounded deadline) start labels ending stop) :
    progress labels = [] := by
  rw [question_bounded] at run
  cases run with
  | late passed next => rw [(Run.done_inv next).1, progress_nil]
  | stuck endless => rfl
  | ask early closes next =>
      rw [(Run.done_inv next).1]
      rfl

theorem expires_question {method : String} {params : List Value} {read : Value → Outcome α} :
    ExpiresByTime pending.txHash (bounded pending bound (question method params read)) := by
  intro start labels ending stop run
  rcases Run.andThen_inv run with ⟨first, before, middle, after, stepRun, follows, rfl⟩
  have unpublished := progress_question stepRun
  cases follows with
  | stuck => exact Or.inl (by simp [Lasting, unpublished])
  | unfinished => exact Or.inl (by simp [Lasting, unpublished])
  | @ended outcome _ _ _ _ next =>
      cases outcome with
      | ok result =>
          rw [(Run.done_inv next).1]
          exact Or.inl (by simp [Lasting, unpublished])
      | error failure =>
          dsimp only at next
          split at next
          · next limit _ _ =>
              rcases (reported_timeOut next).1 with ⟨_⟩
              exact Or.inr ⟨_, rfl⟩
          · rw [(Run.done_inv next).1]
            exact Or.inl (by simp [Lasting, unpublished])

theorem expires_withReceipt {receipt : Value} :
    ExpiresByTime txHash (pipeline.onNode.withReceipt pending receipt bound) := by
  have reverts : ∀ (known : PendingTransaction) (block : Int), ExpiresByTime txHash
      (pipeline.onNode.revert known block bound : Activity (PendingTransaction × Int)) := by
    intro known block
    rw [revert_eq]
    refine .bind (.publish nofun) fun _ => ?_
    refine .bind (.of_unpublished fun _ _ _ _ => progress_reasonInTime) fun reason => ?_
    exact .bind (.publish nofun) fun _ => .bind .note fun _ => .done _
  unfold withReceipt
  refine .bind (.done _) fun number => .bind (.done _) fun block => ?_
  refine .bind ?_ fun _ => .bind (.publish nofun) fun _ => ?_
  · rw [noteMined]
    split
    · exact .note
    · exact .done _
  · refine .bind (.done _) fun word => .bind (.done _) fun status => ?_
    split
    · exact reverts _ block
    · exact .done _

theorem expires_pollWithReceipt {receipt : Value} {known : Option Int} :
    ExpiresByTime pending.txHash
      (pipeline.onNode.pollWithReceipt bound pending receipt known) := by
  refine .bind_of_run expires_withReceipt fun mined _ _ _ run => ?_
  rcases withReceipt_inv run with ⟨entries, block, _, _, _, same⟩ | ⟨noResult, _⟩
  · cases same
    have asksHead : ExpiresByTime (pending.minedAt block entries).txHash
        (bounded (pending.minedAt block entries) bound pipeline.onNode.headNumber) :=
      expires_question
    refine .bind asksHead fun head => .bind (.done _) fun reached => ?_
    split
    · exact .bind (.publish (by simp)) fun _ => .bind .note fun _ => .done _
    · exact .done _
  · exact absurd rfl (noResult mined)

theorem expires_withoutReceipt : ExpiresByTime pending.txHash (withoutReceipt pending) := by
  have publishes : ExpiresByTime pending.txHash
      (Activity.publish pending.unmined >>= fun _ => pure pending.unmined) :=
    .bind (.publish nofun) fun _ => .done _
  rw [withoutReceipt]
  split
  · exact .bind .note fun _ => publishes
  · exact publishes

theorem expires_pause : ExpiresByTime pending.txHash (pause pending bound) := by
  have sleeps : ∀ seconds, ExpiresByTime pending.txHash (Activity.sleep seconds) :=
    fun seconds => .of_unpublished fun _ _ _ _ => progress_sleep
  rw [pause]
  split
  · exact sleeps _
  · intro start labels ending stop run
    cases run with
    | clock run =>
        change Run (ite _ _ _) _ _ _ _ at run
        split at run
        · exact ExpiresByTime.timeOut _ _ _ _ run
        · exact sleeps _ _ _ _ _ run

theorem reportsBlockBound_timeOut {ending : Ending α}
    (run : Run (timeOut pending none (some (.int blocks))) start labels ending stop) :
    ReportsBlockBound pending.txHash blocks labels ending := by
  rcases (reported_timeOut run).1 with ⟨expired⟩
  exact ⟨⟨_, by simp, expired⟩, rfl⟩

/-- The head from which blocks are counted: the one that is known, or else the first one. -/
def countedFrom (known : Option Int) (seen : List Sight) : Option Int :=
  known <|> firstHead seen

/-- A part of a wait after which the wait goes on with another head from which it counts. -/
structure GoesOn (txHash : Value) (blocks : Int) (known first : Option Int)
    (asked : List NodeCall) (labels : List Label) : Prop where
  unpassed : Unpassed (countedFrom known) txHash blocks asked
  closed : asked.getLast? ≠ some (.receipt txHash .null)
  shift : ∀ seen, countedFrom known (sights asked ++ seen) = countedFrom first seen
  lasting : Lasting labels

/-- How a part of a wait counts blocks: the wait goes on with what is counted then, or the part is
the last one. -/
inductive Counts (txHash : Value) (blocks : Int) (known : Option Int) (first : α → Option Int)
    (asked : List NodeCall) : List Label → Ending α → Prop where
  | goesOn {labels : List Label} {result : α}
      (goesOn : GoesOn txHash blocks known (first result) asked labels) :
      Counts txHash blocks known first asked labels (.ended (.ok result))
  | last {labels : List Label} {ending : Ending α} (noResult : ending.NoResult)
      (bounds : BlockBound (countedFrom known) txHash blocks asked
        (ReportsBlockBound txHash blocks labels ending)) :
      Counts txHash blocks known first asked labels ending

section Polls

variable {known : Option Int} {asked : List NodeCall}

theorem Counts.of_unread {first : α → Option Int} {ending : Ending α} (noResult : ending.NoResult)
    (unread : ∀ answer height, Quantity.toInt answer = .ok height → .head answer ∉ asked)
    (unreported : ¬ReportsBlockBound txHash blocks labels ending) :
    Counts txHash blocks known first asked labels ending :=
  .last noResult (.of_unpassed (unpassed_of_unread unread) unreported)

theorem Counts.prepend {first : α → Option Int} {ending : Ending α} (lasting : Lasting before)
    (counts : Counts txHash blocks known first asked after ending) :
    Counts txHash blocks known first asked (before ++ after) ending := by
  cases counts with
  | goesOn goesOn =>
      exact .goesOn { goesOn with lasting := lasting_append.mpr ⟨lasting, goesOn.lasting⟩ }
  | last noResult bounds =>
      rw [← reportsBlockBound_append lasting] at bounds
      exact .last noResult bounds

theorem Counts.abandon {first : α → Option Int} {second : β → Option Int} {early : Ending α}
    {ending : Ending β} (counts : Counts txHash blocks known first asked labels early)
    (abandons : Abandons early ending) : Counts txHash blocks known second asked labels ending := by
  cases counts with
  | goesOn goesOn => cases abandons
  | last noResult bounds =>
      rw [reportsBlockBound_of_abandons abandons] at bounds
      exact .last abandons.noResult bounds

/-- Where a receipt is found nothing is counted. -/
theorem goesOn_of_found (found : .missing ∉ sights asked) (lasting : Lasting labels) :
    GoesOn txHash blocks known known asked labels where
  unpassed := unpassed_of_found found
  closed last := by
    have member := List.mem_of_getLast? last
    exact found (List.mem_filterMap.mpr ⟨_, member, rfl⟩)
  shift seen := by rw [countedFrom, countedFrom, firstHead_append found]
  lasting := lasting

section Head

variable {answer : Value} {height : Int} (number : Quantity.toInt answer = .ok height)

include number

theorem passed_known_iff : Passed (countedFrom known) blocks [] answer ↔
    ∃ first ∈ known, first + blocks ≤ height := by
  have start : countedFrom known (sights []) = known := by cases known <;> rfl
  rw [Passed, start]
  constructor
  · rintro ⟨first, other, counts, same, passed⟩
    rw [number] at same
    cases same
    exact ⟨first, counts, passed⟩
  · rintro ⟨first, counts, passed⟩
    exact ⟨first, height, counts, number, passed⟩

/-- The first head without a receipt is the one from which blocks are counted. -/
theorem goesOn_of_ahead (ahead : ∀ first ∈ known, ¬first + blocks ≤ height)
    (lasting : Lasting labels) :
    GoesOn txHash blocks known (known <|> some height)
      [.receipt txHash .null, .head answer] labels where
  unpassed := by
    refine unpassed_of_pair fun passed => ?_
    rcases (passed_known_iff number).mp passed with ⟨first, counts, reached⟩
    exact ahead first counts reached
  closed := by simp [NodeCall.receipt, NodeCall.head]
  shift seen := by
    have shown : sights [.receipt txHash .null, .head answer] = [.missing, .height height] := by
      simp [sights, NodeCall.sight?, NodeCall.receipt, NodeCall.head, number, Except.toOption]
    rw [shown]
    cases known <;> rfl
  lasting := lasting

end Head

theorem counts_checkBlocks {ending : Ending (Option Int)}
    (limited : pending.policy.timeoutBlocks = some blocks)
    (run : Run (pipeline.onNode.checkBlocks pending bound known) start labels ending stop) :
    Counts pending.txHash blocks known id (.receipt pending.txHash .null :: calls labels) labels
      ending := by
  rw [checkBlocks, limited] at run
  rcases Run.bind_inv run with ⟨height, before, _, after, headRun, restRun, rfl⟩ |
    ⟨early, headRun, abandons⟩
  · rcases (bounded_question_inv headRun).of_result with ⟨answer, number, asked⟩
    have lasting := expires_question.lasting headRun
    rw [calls_append, asked]
    split at restRun
    · rcases Run.done_inv restRun with ⟨rfl, rfl, _⟩
      rw [calls_nil, List.append_nil, List.append_nil]
      exact .goesOn (goesOn_of_ahead number (by simp) lasting)
    · next first =>
        split at restRun
        · next reached =>
            have reports := reportsBlockBound_timeOut restRun
            rw [calls_of_silent (silent_timeOut _ _) restRun, List.append_nil]
            refine .last ?_ (.of_passed ?_ ((reportsBlockBound_append lasting).mpr reports))
            · rw [reports.raised]
              exact Ending.noResult_error
            · exact (passed_known_iff number).mpr ⟨first, rfl, by omega⟩
        · next ahead =>
            rcases Run.done_inv restRun with ⟨rfl, rfl, _⟩
            rw [calls_nil, List.append_nil, List.append_nil]
            exact .goesOn (goesOn_of_ahead number (by simp; omega) lasting)
  · have questioned := bounded_question_inv headRun
    refine .of_unread abandons.noResult ?_ ?_
    · exact unread_of_noResult questioned abandons.noResult_early
    · rw [← reportsBlockBound_of_abandons abandons]
      exact expires_question.not_reports headRun

/-- The head from which blocks are counted after a poll. -/
def Poll.countsFrom (known : Option Int) : Poll → Option Int
  | .confirmed _ => known
  | .unconfirmed _ first => first

theorem counts_pollWithoutReceipt {ending : Ending Poll}
    (limited : pending.policy.timeoutBlocks = some blocks)
    (run : Run (pipeline.onNode.pollWithoutReceipt bound pending known) start labels ending stop) :
    Counts pending.txHash blocks known (Poll.countsFrom known)
      (.receipt pending.txHash .null :: calls labels) labels ending := by
  rcases Run.bind_inv run with ⟨later, before, _, after, withoutRun, checkRun, rfl⟩ |
    ⟨_, withoutRun, abandons⟩
  · have lasting := expires_withoutReceipt.lasting withoutRun
    rw [calls_append, calls_of_silent silent_withoutReceipt withoutRun, List.nil_append]
    cases withoutReceipt_inv withoutRun
    have limitedLater : pending.unmined.policy.timeoutBlocks = some blocks := limited
    apply Counts.prepend lasting
    rcases Run.bind_inv checkRun with ⟨first, heads, _, rest, headRun, lastRun, rfl⟩ |
      ⟨_, headRun, abandons⟩
    · have counts := counts_checkBlocks limitedLater headRun
      rcases Run.done_inv lastRun with ⟨rfl, rfl, _⟩
      rw [List.append_nil]
      cases counts with
      | goesOn goesOn => exact .goesOn goesOn
      | last noResult _ => exact absurd rfl (noResult first)
    · exact (counts_checkBlocks limitedLater headRun).abandon abandons
  · rw [withoutReceipt_inv withoutRun] at abandons
    cases abandons

theorem missing_not_mem_sights {receipt : Value} (found : receipt ≠ .null)
    (followUps : ∀ call ∈ asked, IsFollowUp call.method) :
    .missing ∉ sights (.receipt txHash receipt :: asked) := by
  intro member
  rcases List.mem_filterMap.mp member with ⟨call, inAsked, shown⟩
  rcases NodeCall.sight?_eq_missing_iff.mp shown with ⟨method, answer⟩
  rcases List.mem_cons.mp inAsked with rfl | later
  · exact found (by simpa [NodeCall.receipt] using answer)
  · rcases followUps call later with same | same | same <;> simp [method] at same

theorem counts_pollWithReceipt {receipt : Value} {ending : Ending Poll} (found : receipt ≠ .null)
    (run : Run (pipeline.onNode.pollWithReceipt bound pending receipt known) start labels ending
      stop) :
    Counts pending.txHash blocks known (Poll.countsFrom known)
      (.receipt pending.txHash receipt :: calls labels) labels ending := by
  have noMissing : .missing ∉ sights (.receipt pending.txHash receipt :: calls labels) :=
    missing_not_mem_sights found (callsOnly_pollWithReceipt.method_of_mem_calls run)
  by_cases result : ∃ shown, ending = .ended (.ok shown)
  · rcases result with ⟨shown, rfl⟩
    -- A receipt does not start the count anew.
    have kept : Poll.countsFrom known shown = known := by
      have polled := pollWithReceipt_inv run
      generalize shape : NodeCall.receipt pending.txHash receipt :: calls labels = asked at polled
      cases polled with
      | absent _ =>
          have same := NodeCall.answer_of_receipt_eq (List.cons.inj shape).1
          exact absurd same found
      | broken _ noResult => exact absurd rfl (noResult shown)
      | _ => rfl
    refine .goesOn ?_
    rw [kept]
    exact goesOn_of_found noMissing (expires_pollWithReceipt.lasting run)
  · refine .last (fun shown same => result ⟨shown, same⟩) (.of_unpassed ?_ ?_)
    · exact unpassed_of_found noMissing
    · exact expires_pollWithReceipt.not_reports run

theorem counts_poll {ending : Ending Poll} (limited : pending.policy.timeoutBlocks = some blocks)
    (run : Run (pipeline.onNode.poll bound pending known) start labels ending stop) :
    Counts pending.txHash blocks known (Poll.countsFrom known) (calls labels) labels ending := by
  rw [poll] at run
  rcases Run.bind_inv run with ⟨receipt, before, _, after, askRun, restRun, rfl⟩ |
    ⟨early, askRun, abandons⟩
  · change Run (bounded pending bound (Transport.direct.send _ _)) _ _ _ _ at askRun
    rw [send_eq_question] at askRun
    rcases (bounded_question_inv askRun).of_result with ⟨answer, same, asked⟩
    cases same
    rw [calls_append, asked]
    apply Counts.prepend (expires_question.lasting askRun)
    split at restRun
    · exact counts_pollWithoutReceipt limited restRun
    · next found => exact counts_pollWithReceipt found restRun
  · change Run (bounded pending bound (Transport.direct.send _ _)) _ _ _ _ at askRun
    rw [send_eq_question] at askRun
    refine .of_unread abandons.noResult ?_ ?_
    · intro answer height _ member
      have asksReceipt : (bounded pending bound (Transport.direct.send "eth_getTransactionReceipt"
          [pending.txHash])).CallsOnly (· = "eth_getTransactionReceipt") :=
        callsOnly_bounded (CallsOnly.send _ rfl)
      rw [send_eq_question] at asksReceipt
      exact absurd (asksReceipt.method_of_mem_calls askRun _ member) (by simp [NodeCall.head])
    · rw [← reportsBlockBound_of_abandons abandons]
      exact expires_question.not_reports askRun

end Polls

/-- After a poll that did not end the wait, the bound is kept if the rest keeps it. -/
theorem blockBound_rest {later : PendingTransaction} {next : Activity PendingTransaction}
    {known first : Option Int} {asked : List NodeCall} {polled : List Label}
    {ending : Ending PendingTransaction}
    (goesOn : GoesOn pending.txHash blocks known first asked polled)
    (same : later.unmined = pending.unmined)
    (rest : ∀ {start labels}, Run next start labels ending stop →
      BlockBound (countedFrom first) later.txHash blocks (calls labels)
        (ReportsBlockBound later.txHash blocks labels ending))
    (run : Run (pause later bound >>= fun _ => next) start labels ending stop) :
    BlockBound (countedFrom known) pending.txHash blocks (asked ++ calls labels)
      (ReportsBlockBound pending.txHash blocks labels ending) := by
  rw [← txHash_eq same] at goesOn ⊢
  rcases Run.bind_inv run with ⟨_, paused, _, after, pauseRun, nextRun, rfl⟩ |
    ⟨_, pauseRun, abandons⟩
  · have lasting := expires_pause.lasting pauseRun
    rw [calls_append, calls_of_silent silent_pause pauseRun, List.nil_append,
      reportsBlockBound_append lasting]
    exact .append goesOn.unpassed goesOn.closed goesOn.shift (rest nextRun)
  · rw [calls_of_silent silent_pause pauseRun, List.append_nil,
      ← reportsBlockBound_of_abandons abandons]
    exact .of_unpassed goesOn.unpassed (expires_pause.not_reports pauseRun)

theorem blockBound_watch {rounds : Nat} {known : Option Int} {ending : Ending PendingTransaction}
    (limited : pending.policy.timeoutBlocks = some blocks)
    (run : Run (pipeline.onNode.watch bound rounds pending known) start labels ending stop) :
    BlockBound (countedFrom known) pending.txHash blocks (calls labels)
      (ReportsBlockBound pending.txHash blocks labels ending) := by
  -- What is counted from changes with the polls, so the induction is for all heads.
  induction rounds generalizing pending known start labels with
  | zero =>
      cases run
      exact .of_unpassed (unpassed_of_unread (by simp)) (by rintro ⟨_, ⟨⟩⟩)
  | succ rounds ih =>
      rw [watch] at run
      rcases Run.bind_inv run with ⟨shown, polled, _, rest, pollRun, restRun, rfl⟩ |
        ⟨early, pollRun, abandons⟩
      · cases counts_poll limited pollRun with
        | last noResult _ => exact absurd rfl (noResult shown)
        | goesOn goesOn =>
            rw [calls_append, reportsBlockBound_append goesOn.lasting]
            cases shown with
            | confirmed later =>
                rcases Run.done_inv restRun with ⟨rfl, rfl, _⟩
                rw [calls_nil, List.append_nil]
                exact .of_unpassed goesOn.unpassed (by rintro ⟨_, ⟨⟩⟩)
            | unconfirmed later first =>
                have same := unmined_eq_of_polled (poll_inv pollRun)
                rw [← policy_eq same] at limited
                exact blockBound_rest goesOn same (ih limited) restRun
      · cases counts_poll limited pollRun with
        | last _ bounds =>
            rw [reportsBlockBound_of_abandons abandons] at bounds
            exact bounds
        | goesOn => cases abandons

theorem blockBound_wait {rounds : Nat} {ending : Ending PendingTransaction}
    (limited : pending.policy.timeoutBlocks = some blocks)
    (run : Run (pipeline.onNode.wait pending rounds) start labels ending stop) :
    BlockBound firstHead pending.txHash blocks (calls labels)
      (ReportsBlockBound pending.txHash blocks labels ending) := by
  rcases Run.within_map_inv run with ⟨own, waiting, rfl⟩
  cases waiting with
  | clock watching =>
      have bounds := blockBound_watch limited watching
      have sameReference : countedFrom none = firstHead := rfl
      have sameReport : ReportsBlockBound pending.txHash blocks
          (own.map (Label.within [("tx_hash", pending.txHash)])) ending ↔
            ReportsBlockBound pending.txHash blocks own ending := by
        constructor <;> (rintro ⟨expired, raised⟩; exact ⟨by simpa using expired, raised⟩)
      rw [calls_map_within, sameReport, ← sameReference]
      exact bounds

/-- A wait that ends with the fault that names the bound has reported it, unless it only passes the
fault on. -/
theorem reportsBlockBound_of_raised {rounds : Nat} {ending : Ending PendingTransaction}
    (run : Run (pipeline.onNode.wait pending rounds) start labels ending stop)
    (raised : ending =
      .ended (.error (.fault (.confirmationTimeout txHash none (some (.int blocks)))))) :
    ReportsBlockBound txHash blocks labels ending ∨
      pipeline.PassesOn (calls labels)
        (.fault (.confirmationTimeout txHash none (some (.int blocks)))) := by
  have upholds : Upholds Update (pipeline.PassesOn (calls labels)) Returns
      (pipeline.onNode.wait pending rounds) pending.reopened :=
    upholds_wait fun data failure failed => Or.inr ⟨data, failed⟩
  rcases upholds.of_run run fun call member failure refused => Or.inl ⟨call, member, refused⟩ with
    ⟨_, ends⟩
  rcases ends _ raised with passesOn | agrees
  · exact Or.inr passesOn
  · have expired := agrees.1 rfl
    rcases knownAfter_eq_or_mem pending.reopened labels with same | shown
    · rw [same] at expired
      cases expired
    · exact Or.inl ⟨⟨_, shown, expired⟩, raised⟩

/-- A wait reports its bound at the first poll without a receipt at which so many blocks have passed
since the first such poll, and at no other. Counted from the first such poll after the last receipt
this holds exactly if that makes no difference to any poll, as where no receipt is lost after a poll
without one. A wait that ends with the fault that names the bound has reported it, unless it only
passes the fault on. It goes on polling until it has a cause to end. -/
theorem counts_blocks {rounds : Nat} {ending : Ending PendingTransaction}
    (limited : pending.policy.timeoutBlocks = some blocks)
    (run : Run (pipeline.onNode.wait pending rounds) start labels ending stop) :
    let reported := ReportsBlockBound pending.txHash blocks labels ending
    let raised := Fault.confirmationTimeout pending.txHash none (some (.int blocks))
    BlockBound firstHead pending.txHash blocks (calls labels) reported ∧
    (BlockBound firstHeadSinceFound pending.txHash blocks (calls labels) reported ↔
      ∀ before answer after,
        calls labels = before ++ .receipt pending.txHash .null :: .head answer :: after →
          (Passed firstHead blocks before answer ↔
            Passed firstHeadSinceFound blocks before answer)) ∧
    (¬[.missing, .found, .missing].Sublist (sights (calls labels)) →
      BlockBound firstHeadSinceFound pending.txHash blocks (calls labels) reported) ∧
    (ending = .ended (.error (.fault raised)) →
      reported ∨ pipeline.PassesOn (calls labels) (.fault raised)) ∧
    Polling pending.txHash pending.policy (WaitBound.start pending.policy.timeout start) [] rounds
      labels stop ending := by
  intro reported raised
  have bounds := blockBound_wait limited run
  exact ⟨bounds, bounds.congr_iff, bounds.sinceFound, reportsBlockBound_of_raised run,
    polling_wait run⟩

section Examples

/-- A transaction that is waited for during five blocks. -/
def impatient : PendingTransaction :=
  { patient with
    policy := { requiredConfirmations := .int 5, timeout := none, timeoutBlocks := some 5 } }

/-- The receipt gets lost again after two of five blocks. -/
def foundBetween : List NodeCall :=
  [.receipt impatient.txHash .null, .head (.int 10),
    .receipt impatient.txHash (.dict (receiptIn 11)), .head (.int 12)]

theorem reaches_foundBetween : Reaches (plain.onNode.wait impatient 3) 0
    (foundBetween ++ [.receipt impatient.txHash .null, .head (.int 15)])
    (.ended (.error (.fault (.confirmationTimeout impatient.txHash none (some (.int 5)))))) := by
  apply Reaches.clock
  refine .call (.tell (.call (.sleep ?_)))
  refine .call (.tell (.tell (.call (.sleep ?_))))
  exact .call (.tell (.tell (.call (.tell (.tell .done)))))

theorem passed_foundBetween : Passed firstHead 5 foundBetween (.int 15) :=
  ⟨10, 15, rfl, rfl, by decide⟩

theorem counts_blocks_foundBetween : ∃ labels ending stop,
    Run (plain.onNode.wait impatient 3) 0 labels ending stop ∧
      impatient.policy.timeoutBlocks = some 5 ∧
        ReportsBlockBound impatient.txHash 5 labels ending := by
  rcases reaches_foundBetween with ⟨labels, stop, run, asked⟩
  rcases counts_blocks rfl run with ⟨bounds, _⟩
  exact ⟨labels, _, stop, run, rfl, (bounds.prompt _ _ _ asked passed_foundBetween).2⟩

/-- A wait may report its bound before so many blocks have passed since the last receipt. -/
theorem not_blockBound_of_foundBetween : ¬∀ (pipeline : Pipeline) (pending : PendingTransaction)
    (blocks : Int) (rounds : Nat) (start stop : Rat) (labels : List Label)
    (ending : Ending PendingTransaction), pending.policy.timeoutBlocks = some blocks →
      Run (pipeline.onNode.wait pending rounds) start labels ending stop →
        BlockBound firstHeadSinceFound pending.txHash blocks (calls labels)
          (ReportsBlockBound pending.txHash blocks labels ending) := by
  intro bounded
  rcases reaches_foundBetween with ⟨labels, stop, run, asked⟩
  have agree := (blockBound_wait rfl run).congr_iff.mp (bounded plain impatient 5 3 0 _ _ _ rfl run)
  rcases (agree _ _ _ asked).mp passed_foundBetween with ⟨first, _, isFirst, _⟩
  have noneSince : firstHeadSinceFound (sights foundBetween) = none := by decide
  rw [noneSince] at isFirst
  cases isFirst

end Examples

end Pipeline

end ContractClient
