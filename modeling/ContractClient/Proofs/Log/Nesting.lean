import ContractClient.Log.Task
import Mathlib.Tactic.SplitIfs

/-!
# Log contexts and their blocks

Fields are meant to be bound inside the block of their context only: `LogTask.confined` binds them
so, and a task is scoped in a scene (`LogTask.IsScoped`) if it sees, writes and leaves behind the
same, and the same fields are bound after each of its blocks as before.

A context remembers what was bound before only once. When it is entered again inside its own block,
the inner block forgets what the outer one has to restore (`LogScene.Changes`), and the fields stay
bound after the outer block. A task is thus scoped exactly if it is tidy: a context that is entered
again inside its own block binds nothing there (`LogTask.restores_iff_isTidy`).
-/

namespace ContractClient

/-- The failure with which a record is refused, in any context. -/
def LogSettings.refusal? (settings : LogSettings) (record : LogRecord) : Option Failure :=
  match settings.write record with
  | .ok _ => none
  | .error failure => some failure

theorem LogSettings.refusal?_context (settings : LogSettings) (record : LogRecord)
    (context : Dict) : settings.refusal? { record with context } = settings.refusal? record := by
  unfold refusal? write
  split_ifs <;> rfl

/-- How writing a record ends is known from the settings. Only lines are added. -/
inductive Journal.Writes (journal : Journal) (record : LogRecord) : Prop
  | refused {failure : Failure} (refusal : journal.settings.refusal? record = some failure)
      (failed : journal.write record = .error failure)
  | written {lines : List String} (accepted : journal.settings.refusal? record = none)
      (kept : journal.write record = .ok { journal with lines })

theorem Journal.writes (journal : Journal) (record : LogRecord) : journal.Writes record := by
  have refusal := journal.settings.refusal?_context record
    (Dict.merge journal.current record.context)
  rw [LogSettings.refusal?] at refusal
  cases outcome : journal.settings.write
      { record with context := Dict.merge journal.current record.context } with
  | error failure =>
      rw [outcome] at refusal
      refine .refused refusal.symm ?_
      rw [write, outcome]
      rfl
  | ok output =>
      rw [outcome] at refusal
      have kept : ∃ lines, journal.write record = .ok { journal with lines } := by
        rw [write, outcome]
        rcases output with _ | ⟨_ | _, line⟩
        all_goals exact ⟨_, rfl⟩
      rcases kept with ⟨_, kept⟩
      exact .written refusal.symm kept

namespace LogTask

section Definitions

/-- Does a task with the fields of a context bound inside its block and nowhere else. -/
def confined : LogTask → LogScene → LogScene × Option Failure
  | done, scene => (scene, none)
  | fail failure, scene => (scene, some failure)
  | look rest, scene => confined rest scene.look
  | note record rest, scene =>
    match scene.journal.write record with
    | .ok journal => confined rest { scene with journal }
    | .error failure => (scene, some failure)
  | attempt body rest, scene => confined rest (confined body scene).1
  | block number body rest, scene =>
    let inside := scene.bind (Dict.merge scene.journal.current (scene.contexts number).fields)
    let ended := confined body inside
    let left := ended.1.bind scene.journal.current
    match ended.2 with
    | none => confined rest left
    | some failure => (left, some failure)

/-- After each block the same fields are bound as before it. -/
def Restores : LogTask → LogScene → Prop
  | done, _ => True
  | fail _, _ => True
  | look rest, scene => Restores rest scene.look
  | note record rest, scene =>
    ∀ journal, scene.journal.write record = .ok journal → Restores rest { scene with journal }
  | attempt body rest, scene => Restores body scene ∧ Restores rest (run body scene).1
  | block number body rest, scene =>
    let ended := run body (scene.enter number)
    let left := ended.1.leave number
    Restores body (scene.enter number) ∧ left.journal.current = scene.journal.current ∧
      (ended.2 = none → Restores rest left)

/-- What is seen and what is written, but not the contexts, is the same. -/
structure LooksLike (scene other : LogScene) : Prop where
  journal : scene.journal = other.journal
  seen : scene.seen = other.seen
  fields (number : Nat) : (scene.contexts number).fields = (other.contexts number).fields

/-- A task binds the fields of a context inside its block and nowhere else. -/
structure IsScoped (task : LogTask) (scene : LogScene) : Prop where
  restores : task.Restores scene
  looksLike : LooksLike (task.run scene).1 (task.confined scene).1
  sameEnding : (task.run scene).2 = (task.confined scene).2

variable (settings : LogSettings)

/-- The failure that a task ends with. -/
def ending : LogTask → Option Failure
  | done => none
  | fail failure => some failure
  | look rest => ending rest
  | note record rest =>
    match settings.refusal? record with
    | none => ending rest
    | some failure => some failure
  | attempt _ rest => ending rest
  | block _ body rest =>
    match ending body with
    | none => ending rest
    | some failure => some failure

/-- The contexts that a task enters until it ends. -/
def entered : LogTask → List Nat
  | done => []
  | fail _ => []
  | look rest => entered rest
  | note record rest =>
    match settings.refusal? record with
    | none => entered rest
    | some _ => []
  | attempt body rest => entered body ++ entered rest
  | block number body rest =>
    match ending settings body with
    | none => (number :: entered body) ++ entered rest
    | some _ => number :: entered body

/-- A context that is entered again inside its own block does not change there what is bound. -/
def IsTidy (fields : Nat → Dict) : LogTask → Dict → Prop
  | done, _ => True
  | fail _, _ => True
  | look rest, current => IsTidy fields rest current
  | note record rest, current => settings.refusal? record = none → IsTidy fields rest current
  | attempt body rest, current => IsTidy fields body current ∧ IsTidy fields rest current
  | block number body rest, current =>
    let inside := Dict.merge current (fields number)
    IsTidy fields body inside ∧ (number ∈ entered settings body → inside = current) ∧
      (ending settings body = none → IsTidy fields rest current)

end Definitions

end LogTask

namespace LogScene

/-- What entering and leaving several contexts changes: these are not entered any more and have
forgotten what was bound before, and all others are as they were. -/
structure Changes (entered : List Nat) (scene last : LogScene) : Prop where
  settings : last.journal.settings = scene.journal.settings
  fields (number : Nat) : (last.contexts number).fields = (scene.contexts number).fields
  kept {number : Nat} (absent : number ∉ entered) :
    last.contexts number = scene.contexts number
  forgotten {number : Nat} (present : number ∈ entered) :
    (last.contexts number).outer? = none

variable {scene middle last : LogScene} {first second : List Nat} {number other : Nat}

theorem fields_leave : ((scene.leave number).contexts other).fields =
    (scene.contexts other).fields := by
  simp only [leave, change]
  split
  · next same =>
      subst same
      unfold LogContext.leave
      split <;> rfl
  · rfl

theorem fields_enter : ((scene.enter number).contexts other).fields =
    (scene.contexts other).fields := by
  simp only [enter, change]
  split
  · next same =>
      subst same
      rfl
  · rfl

theorem outer?_leave : ((scene.leave number).contexts number).outer? = none := by
  simp only [leave, change, if_true]
  unfold LogContext.leave
  split
  · rfl
  · next notEntered => exact notEntered

/-- Leaving a context binds what it remembers. -/
theorem current_leave {outer : Dict} (remembered : (scene.contexts number).outer? = some outer) :
    (scene.leave number).journal.current = outer := by
  simp only [leave, change, bind]
  rw [LogContext.leave, remembered]

/-- Leaving a context that has forgotten what was bound before changes nothing. -/
theorem current_leave_of_forgotten (forgotten : (scene.contexts number).outer? = none) :
    (scene.leave number).journal.current = scene.journal.current := by
  simp only [leave, change, bind]
  rw [LogContext.leave, forgotten]

namespace Changes

theorem refl (scene : LogScene) : Changes [] scene scene where
  settings := rfl
  fields _ := rfl
  kept _ := rfl
  forgotten := nofun

/-- Seeing and writing changes no context. -/
theorem of_sameContexts (changes : Changes first middle last)
    (contexts : middle.contexts = scene.contexts)
    (settings : middle.journal.settings = scene.journal.settings) : Changes first scene last where
  settings := changes.settings.trans settings
  fields number := (changes.fields number).trans (by rw [contexts])
  kept absent := (changes.kept absent).trans (by rw [contexts])
  forgotten := changes.forgotten

theorem trans (before : Changes first scene middle) (after : Changes second middle last) :
    Changes (first ++ second) scene last where
  settings := after.settings.trans before.settings
  fields number := (after.fields number).trans (before.fields number)
  kept absent := by
    rw [List.mem_append, not_or] at absent
    exact (after.kept absent.2).trans (before.kept absent.1)
  forgotten {number} present := by
    by_cases later : number ∈ second
    · exact after.forgotten later
    · rw [after.kept later]
      exact before.forgotten ((List.mem_append.mp present).resolve_right later)

/-- A block leaves its own context, too, without a memory. -/
theorem block (inside : Changes first (scene.enter number) middle) :
    Changes (number :: first) scene (middle.leave number) where
  settings := inside.settings
  fields other := by rw [fields_leave, inside.fields, fields_enter]
  kept {other} absent := by
    rw [List.mem_cons, not_or] at absent
    have kept := inside.kept absent.2
    simp only [enter, leave, change, if_neg absent.1] at kept ⊢
    exact kept
  forgotten {other} present := by
    by_cases same : other = number
    · rw [same]
      exact outer?_leave
    · have forgotten := inside.forgotten ((List.mem_cons.mp present).resolve_left same)
      simp only [leave, change, if_neg same]
      exact forgotten

end Changes

end LogScene

namespace LogTask

open LogScene

variable {settings : LogSettings} {fields : Nat → Dict} {scene other : LogScene} {number : Nat}

/-- How a task ends, and which contexts it enters until then, depends on the settings alone, since
nothing else refuses a record. -/
theorem changes_run (task : LogTask) (scene : LogScene)
    (sameSettings : scene.journal.settings = settings) :
    Changes (task.entered settings) scene (task.run scene).1 ∧
      (task.run scene).2 = task.ending settings := by
  induction task generalizing scene with
  | done | fail failure => exact ⟨.refl scene, rfl⟩
  | look rest ih =>
      rcases ih scene.look sameSettings with ⟨changes, ends⟩
      exact ⟨changes.of_sameContexts rfl rfl, ends⟩
  | note record rest ih =>
      rw [entered, ending, run]
      cases scene.journal.writes record with
      | refused refusal failed =>
          rw [← sameSettings, refusal, failed]
          exact ⟨.refl scene, rfl⟩
      | @written lines accepted kept =>
          rw [sameSettings] at accepted
          rw [accepted, kept]
          rcases ih { scene with journal := { scene.journal with lines } } sameSettings with
            ⟨changes, ends⟩
          exact ⟨changes.of_sameContexts rfl rfl, ends⟩
  | attempt body rest ihBody ihRest =>
      rcases ihBody scene sameSettings with ⟨before, _⟩
      rcases ihRest _ (before.settings.trans sameSettings) with ⟨after, ends⟩
      exact ⟨before.trans after, ends⟩
  | block number body rest ihBody ihRest =>
      rcases ihBody (scene.enter number) sameSettings with ⟨inside, endsBody⟩
      rw [entered, ending, run]
      simp only [endsBody]
      cases ending settings body with
      | none =>
          rcases ihRest _ (inside.block.settings.trans sameSettings) with ⟨after, ends⟩
          exact ⟨inside.block.trans after, ends⟩
      | some failure => exact ⟨inside.block, rfl⟩

/-- If all blocks of a task restore what was bound, the whole task does. -/
theorem current_run_of_restores {task : LogTask} (restores : task.Restores scene) :
    (task.run scene).1.journal.current = scene.journal.current := by
  induction task generalizing scene with
  | done | fail failure => rfl
  | look rest ih => exact ih restores
  | note record rest ih =>
      rw [run]
      cases scene.journal.writes record with
      | refused refusal failed => rw [failed]
      | written accepted kept =>
          rw [kept]
          exact ih (restores _ kept)
  | attempt body rest ihBody ihRest =>
      rw [run, ihRest restores.2, ihBody restores.1]
  | block number body rest ihBody ihRest =>
      rcases restores with ⟨inside, restored, others⟩
      rw [run]
      cases ended : (run body (scene.enter number)).2 with
      | none =>
          change (rest.run ((body.run (scene.enter number)).1.leave number)).1.journal.current = _
          rw [ihRest (others ended), restored]
      | some failure => exact restored

/-- A block restores what was bound unless its context is entered again inside it, and then only if
this context changes nothing. -/
theorem restored_iff {body : LogTask} (inside : body.Restores (scene.enter number)) :
    ((body.run (scene.enter number)).1.leave number).journal.current = scene.journal.current ↔
      (number ∈ body.entered scene.journal.settings →
        Dict.merge scene.journal.current (scene.contexts number).fields =
          scene.journal.current) := by
  have changes := (changes_run body (scene.enter number) rfl).1
  by_cases again : number ∈ body.entered scene.journal.settings
  · rw [current_leave_of_forgotten (changes.forgotten again), current_run_of_restores inside]
    exact ⟨fun restored _ => restored, fun idle => idle again⟩
  · have remembered : ((body.run (scene.enter number)).1.contexts number).outer? =
        some scene.journal.current := by
      rw [changes.kept again]
      simp only [enter, change, if_true]
      rfl
    rw [current_leave remembered]
    exact iff_of_true rfl fun present => absurd present again

theorem restores_iff_isTidy (task : LogTask) (scene : LogScene)
    (sameSettings : scene.journal.settings = settings)
    (sameFields : ∀ number, (scene.contexts number).fields = fields number) :
    task.Restores scene ↔ task.IsTidy settings fields scene.journal.current := by
  induction task generalizing scene with
  | done | fail failure => exact Iff.rfl
  | look rest ih => exact ih scene.look sameSettings sameFields
  | note record rest ih =>
      rw [Restores, IsTidy]
      cases scene.journal.writes record with
      | refused refusal failed =>
          rw [← sameSettings, refusal, failed]
          exact iff_of_true nofun nofun
      | @written lines accepted kept =>
          have next := ih { scene with journal := { scene.journal with lines } } sameSettings
            sameFields
          rw [sameSettings] at accepted
          rw [accepted, kept]
          constructor
          · exact fun restores _ => next.mp (restores _ rfl)
          · rintro tidy _ ⟨⟩
            exact next.mpr (tidy rfl)
  | attempt body rest ihBody ihRest =>
      have changes := (changes_run body scene sameSettings).1
      have next := ihRest _ (changes.settings.trans sameSettings)
        fun number => (changes.fields number).trans (sameFields number)
      rw [Restores, IsTidy, ← ihBody scene sameSettings sameFields]
      refine and_congr_right fun restores => ?_
      rw [next, current_run_of_restores restores]
  | block number body rest ihBody ihRest =>
      rcases changes_run body (scene.enter number) sameSettings with ⟨changes, ends⟩
      have inside := ihBody (scene.enter number) sameSettings
        fun other => fields_enter.trans (sameFields other)
      have next := ihRest ((body.run (scene.enter number)).1.leave number)
        (changes.block.settings.trans sameSettings)
        fun other => (changes.block.fields other).trans (sameFields other)
      rw [Restores, IsTidy, ← ends, ← sameFields number]
      have entry : (scene.enter number).journal.current =
          Dict.merge scene.journal.current (scene.contexts number).fields := rfl
      rw [entry] at inside
      simp only [← inside]
      refine and_congr_right fun restores => ?_
      rw [restored_iff restores, sameSettings]
      refine and_congr_right fun idle => ?_
      have restored := (restored_iff restores).mpr (sameSettings ▸ idle)
      rw [next, restored]

namespace LooksLike

/-- Leaving a context looks like binding what was bound before, if it restores this. -/
theorem leave {outer : Dict} (alike : LooksLike scene other)
    (restored : (scene.leave number).journal.current = outer) :
    LooksLike (scene.leave number) (other.bind outer) where
  journal := by
    rw [LogScene.bind, ← alike.journal, ← restored]
    rfl
  seen := alike.seen
  fields _ := fields_leave.trans (alike.fields _)

theorem enter (alike : LooksLike scene other) :
    LooksLike (scene.enter number)
      (other.bind (Dict.merge other.journal.current (other.contexts number).fields)) where
  journal := by
    rw [LogScene.bind, ← alike.journal, ← alike.fields]
    rfl
  seen := alike.seen
  fields _ := fields_enter.trans (alike.fields _)

theorem look (alike : LooksLike scene other) : LooksLike scene.look other.look where
  journal := alike.journal
  seen := by rw [LogScene.look, LogScene.look, alike.seen, alike.journal]
  fields := alike.fields

theorem write (alike : LooksLike scene other) (journal : Journal) :
    LooksLike { scene with journal } { other with journal } where
  journal := rfl
  seen := alike.seen
  fields := alike.fields

end LooksLike

/-- The induction is on the task: entering always looks like binding the fields of the context, and
leaving looks like binding what was bound before where the block restores this. -/
theorem looksLike_run_confined {task : LogTask} (restores : task.Restores scene)
    (alike : LooksLike scene other) :
    LooksLike (task.run scene).1 (task.confined other).1 ∧
      (task.run scene).2 = (task.confined other).2 := by
  induction task generalizing scene other with
  | done | fail failure => exact ⟨alike, rfl⟩
  | look rest ih => exact ih restores alike.look
  | note record rest ih =>
      rw [run, confined, ← alike.journal]
      cases outcome : scene.journal.write record with
      | error failure => exact ⟨alike, rfl⟩
      | ok journal => exact ih (restores journal outcome) (alike.write journal)
  | attempt body rest ihBody ihRest =>
      exact ihRest restores.2 (ihBody restores.1 alike).1
  | block number body rest ihBody ihRest =>
      rcases restores with ⟨inside, restored, others⟩
      rcases ihBody inside alike.enter with ⟨ended, sameEnding⟩
      have left := ended.leave (restored.trans (congrArg Journal.current alike.journal))
      rw [run, confined]
      simp only [← sameEnding]
      cases ending : (body.run (scene.enter number)).2 with
      | none => exact ihRest (others ending) left
      | some failure => exact ⟨left, rfl⟩

theorem isScoped_iff_restores {task : LogTask} : task.IsScoped scene ↔ task.Restores scene where
  mp isScoped := isScoped.restores
  mpr restores :=
    have ⟨looksLike, sameEnding⟩ := looksLike_run_confined restores ⟨rfl, rfl, fun _ => rfl⟩
    ⟨restores, looksLike, sameEnding⟩

end LogTask

/-- A new context is entered inside the others and left from them, unless it is refused. -/
def Journal.Nests (journal : Journal) (fields : Dict) : Prop :=
  ∃ inside, journal.enter fields = .ok inside ∧
    inside.current = Dict.merge journal.current fields ∧ inside.exit = journal

theorem Journal.nests_iff (journal : Journal) (fields : Dict) :
    journal.Nests fields ↔ Dict.get? fields LogContext.ownName = none := by
  rw [Nests, enter, LogContext.ofFields]
  cases Dict.get? fields LogContext.ownName with
  | none => exact iff_of_true ⟨_, rfl, rfl, rfl⟩ rfl
  | some value =>
      refine iff_of_false ?_ nofun
      rintro ⟨_, entered, _⟩
      cases entered

namespace LogTask

open LogScene

/-- A task binds the fields of its contexts in their blocks and nowhere else exactly if no context
that is entered again inside its own block changes there what is bound. A new context binds its
fields in its block and nowhere else exactly if none of them has the name by which it is given
itself. -/
theorem isScoped_iff_isTidy (task : LogTask) (scene : LogScene) (fields : Dict) :
    (task.IsScoped scene ↔
      task.IsTidy scene.journal.settings (fun number => (scene.contexts number).fields)
        scene.journal.current) ∧
      (scene.journal.Nests fields ↔ Dict.get? fields LogContext.ownName = none) :=
  ⟨isScoped_iff_restores.trans (restores_iff_isTidy task scene rfl fun _ => rfl),
    scene.journal.nests_iff fields⟩

/-- A context that is entered twice leaves its fields bound behind, and a field with the name by
which it is given itself cannot be bound. -/
theorem not_isScoped_again :
    let scene : LogScene :=
      { journal := {}, contexts := fun _ => { fields := [("tx_hash", .text "0x1")] } }
    let task := block 0 (block 0 done done) (look done)
    (task.run scene).1.seen = [[("tx_hash", .text "0x1")]] ∧ ¬ task.IsScoped scene ∧
      ¬ scene.journal.Nests [("self", .text "x")] := by
  refine ⟨rfl, ?_, ?_⟩
  · intro isScoped
    have restored := isScoped.restores.2.1
    cases restored
  · rw [Journal.nests_iff]
    nofun

end LogTask

end ContractClient
