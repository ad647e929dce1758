import ContractClient.Proofs.Activity.Run
import ContractClient.Rpc.Transport

/-!
# Calls of a node

`calls` lists what a node was asked during a run and what it answered. Notes and looks at the clock
are no calls, and a context changes notes only (`Activity.Run.within_inv`). An activity that calls
methods of one kind only (`Activity.CallsOnly`) does so in all of its runs
(`Activity.CallsOnly.method_of_mem_calls`), also behind a deadline.
-/

namespace ContractClient

/-- A question to a node, and the answer if there was one in time. -/
structure NodeCall where
  method : String
  params : List Value
  answer : Option (Outcome Value)

/-- The question to a node that a label shows. -/
def Label.call? : Label → Option NodeCall
  | asked (.call method params) _ _ (.answer outcome) => some ⟨method, params, some outcome⟩
  | asked (.call method params) _ _ _ => some ⟨method, params, none⟩
  | unanswered (.call method params) _ => some ⟨method, params, none⟩
  | _ => none

/-- What a node was asked, in order. -/
def calls (labels : List Label) : List NodeCall :=
  labels.filterMap Label.call?

@[simp]
theorem calls_nil : calls [] = [] :=
  rfl

@[simp]
theorem calls_append (before after : List Label) :
    calls (before ++ after) = calls before ++ calls after :=
  List.filterMap_append

@[simp]
theorem calls_told (now : Rat) (event : Event) (labels : List Label) :
    calls (.told now event :: labels) = calls labels :=
  rfl

@[simp]
theorem calls_map_within (context : Dict) (labels : List Label) :
    calls (labels.map (Label.within context)) = calls labels := by
  have same : Label.call? ∘ Label.within context = Label.call? :=
    funext fun label => by cases label <;> rfl
  rw [calls, List.filterMap_map, same, calls]

/-- The question that a label shows. -/
def Label.query? : Label → Option Query
  | asked query _ _ _ => some query
  | unanswered query _ => some query
  | told _ _ => none

/-- What is asked, in order. -/
def queries (labels : List Label) : List Query :=
  labels.filterMap Label.query?

/-- What a question asks a node to execute. -/
def Query.requests : Query → List (String × List Value)
  | call method params => [(method, params)]
  | batch requests => requests.map fun request => (request.method, request.params)
  | provide method params => [(method, params)]
  | provideBatch requests => requests
  | _ => []

/-- What nodes are asked to execute, in order, be it in single calls or in batches. -/
def requests (labels : List Label) : List (String × List Value) :=
  (queries labels).flatMap Query.requests

/-- What a node is asked, whatever it answers. -/
def NodeCall.request (call : NodeCall) : String × List Value :=
  (call.method, call.params)

/-- Nothing but single calls of some methods, or a pause. -/
def Query.IsCallOf (allowed : String → Prop) : Query → Prop
  | sleep _ => True
  | call method _ => allowed method
  | _ => False

@[simp]
theorem queries_append (before after : List Label) :
    queries (before ++ after) = queries before ++ queries after :=
  List.filterMap_append

@[simp]
theorem queries_map_within (context : Dict) (labels : List Label) :
    queries (labels.map (Label.within context)) = queries labels := by
  have same : Label.query? ∘ Label.within context = Label.query? :=
    funext fun label => by cases label <;> rfl
  rw [queries, List.filterMap_map, same, queries]

@[simp]
theorem requests_append (before after : List Label) :
    requests (before ++ after) = requests before ++ requests after := by
  rw [requests, queries_append, List.flatMap_append, requests, requests]

theorem queries_of_told {labels : List Label} (told : ∀ label ∈ labels, label.IsTold) :
    queries labels = [] := by
  rw [queries, List.filterMap_eq_nil_iff]
  intro label member
  rcases told label member with ⟨_, _, rfl⟩
  rfl

theorem query_of_mem_calls {labels : List Label} {call : NodeCall} (member : call ∈ calls labels) :
    .call call.method call.params ∈ queries labels := by
  rcases List.mem_filterMap.mp member with ⟨label, inLabels, shown⟩
  refine List.mem_filterMap.mpr ⟨label, inLabels, ?_⟩
  cases label with
  | told now event => cases shown
  | asked query start stop reply =>
      cases query with
      | call method params => cases reply <;> (cases shown; rfl)
      | _ => cases shown
  | unanswered query start =>
      cases query with
      | call method params => cases shown; rfl
      | _ => cases shown

/-- Where nodes are asked in single calls only, the calls show all that they are asked. -/
theorem requests_eq_calls {labels : List Label} {allowed : String → Prop}
    (single : ∀ query ∈ queries labels, query.IsCallOf allowed) :
    requests labels = (calls labels).map NodeCall.request := by
  induction labels with
  | nil => rfl
  | cons label labels ih =>
      rw [← List.singleton_append] at single ⊢
      rw [queries_append, List.forall_mem_append] at single
      have here : requests [label] = (calls [label]).map NodeCall.request := by
        have shown := single.1
        cases label with
        | told now event => rfl
        | asked query start stop reply =>
            cases query with
            | call method params => cases reply <;> rfl
            | sleep seconds => rfl
            | _ => exact (shown _ List.mem_cons_self).elim
        | unanswered query start =>
            cases query with
            | call method params => rfl
            | sleep seconds => rfl
            | _ => exact (shown _ List.mem_cons_self).elim
      rw [requests_append, calls_append, List.map_append, here, ih single.2]

namespace Activity

variable {α β γ : Type} {start stop : Rat} {labels : List Label}

namespace Run

/-- A node answers at once. -/
theorem call {method : String} {params : List Value}
    {resume : Reply (Outcome Value) → Activity α} {ending : Ending α} (outcome : Outcome Value)
    (next : Run (resume (.answer outcome)) start labels ending stop) :
    Run (Activity.ask (.call method params) none resume) start
      (.asked (.call method params) start start (.answer outcome) :: labels) ending stop :=
  .ask (by simp) (.atOnce rfl) next

theorem sleep {seconds : Rat} {resume : Reply Unit → Activity α} {ending : Ending α}
    (next : Run (resume (.answer ())) (start + max seconds 0) labels ending stop) :
    Run (Activity.ask (.sleep seconds) none resume) start
      (.asked (.sleep seconds) start (start + max seconds 0) (.answer ()) :: labels) ending stop :=
  have later : start ≤ start + max seconds 0 := by grind
  .ask (by simp) (.answered later (by simp [Query.duration?]) (by simp)) next

end Run

/-- What is asked and answered when a method is called, and how the call ends. -/
inductive Sent (method : String) (params : List Value) : List NodeCall → Ending Value → Prop where
  | answered (outcome : Outcome Value) :
      Sent method params [⟨method, params, some outcome⟩] (.ended outcome)
  | cancelled : Sent method params [⟨method, params, none⟩] (.ended (.error .cancelled))
  | stuck : Sent method params [⟨method, params, none⟩] .stuck

theorem Run.send_inv {method : String} {params : List Value} {ending : Ending Value}
    (run : Run (Transport.direct.send method params) start labels ending stop) :
    Sent method params (calls labels) ending := by
  cases run with
  | stuck endless => exact .stuck
  | @ask _ _ _ reply _ _ _ _ _ early closes next =>
      rcases reply with outcome | _ | _
      · cases outcome <;>
          (cases next
           exact .answered _)
      · cases next
        exact .cancelled
      · cases next
        exact .cancelled

/-- What an activity asks, when it ends and how: what another one asks, when that one ends, and as
`ends` says of its ending. -/
def Mirrors (activity : Activity α) (other : Activity β) (ends : Ending β → Ending α → Prop) :
    Prop :=
  ∀ start stop asked ending,
    (∃ labels, Run activity start labels ending stop ∧ queries labels = asked) ↔
      ∃ labels early, Run other start labels early stop ∧ queries labels = asked ∧ ends early ending

/-- A result that is changed afterwards. -/
theorem Mirrors.bind_pure {activity : Activity α} {other : Activity β}
    {ends : Ending β → Ending α → Prop} (mirrors : activity.Mirrors other ends) (change : α → γ) :
    (activity >>= fun value => pure (change value)).Mirrors other fun early ending =>
      ∃ middle, ends early middle ∧ ending = middle.map change := by
  intro start stop asked ending
  constructor
  · rintro ⟨labels, run, sameAsked⟩
    rcases Run.bind_pure_inv run with ⟨middle, first, changed⟩
    rcases (mirrors start stop asked middle).mp ⟨labels, first, sameAsked⟩ with
      ⟨sent, early, otherRun, otherAsked, related⟩
    refine ⟨sent, early, otherRun, otherAsked, middle, related, ?_⟩
    rcases changed with ⟨value, rfl, rfl⟩ | abandons
    · rfl
    · cases abandons <;> rfl
  · rintro ⟨sent, early, otherRun, otherAsked, middle, related, rfl⟩
    rcases (mirrors start stop asked middle).mpr ⟨sent, early, otherRun, otherAsked, related⟩ with
      ⟨labels, first, sameAsked⟩
    exact ⟨labels, first.bind_pure change, sameAsked⟩

/-- An activity asks questions of one kind only. -/
def Asks (allowed : Query → Prop) : Activity α → Prop
  | done _ => True
  | suspended => True
  | tell _ rest => rest.Asks allowed
  | clock resume => ∀ now, (resume now).Asks allowed
  | ask query _ resume => allowed query ∧ ∀ reply, (resume reply).Asks allowed

namespace Asks

variable {allowed permitted : Query → Prop} {activity : Activity α}

theorem andThen {next : Outcome α → Activity β} (first : activity.Asks allowed)
    (second : ∀ outcome, (next outcome).Asks allowed) : (activity.andThen next).Asks allowed := by
  induction activity with
  | done outcome => exact second outcome
  | suspended => trivial
  | tell event rest ih => exact ih first
  | clock resume ih => exact fun now => ih now (first now)
  | ask query deadline resume ih => exact ⟨first.1, fun reply => ih reply (first.2 reply)⟩

theorem bind {next : α → Activity β} (first : activity.Asks allowed)
    (second : ∀ value, (next value).Asks allowed) : (activity >>= next).Asks allowed := by
  apply andThen first
  intro outcome
  cases outcome with
  | ok value => exact second value
  | error failure => trivial

theorem mono (only : activity.Asks allowed) (weaker : ∀ query, allowed query → permitted query) :
    activity.Asks permitted := by
  induction activity with
  | done outcome => trivial
  | suspended => trivial
  | tell event rest ih => exact ih only
  | clock resume ih => exact fun now => ih now (only now)
  | ask query deadline resume ih =>
      exact ⟨weaker query only.1, fun reply => ih reply (only.2 reply)⟩

theorem expire (only : activity.Asks allowed) : activity.expire.Asks allowed := by
  apply andThen only
  intro outcome
  split <;> trivial

theorem boundedBy (only : activity.Asks allowed) (limit : Rat) :
    (activity.boundedBy limit).Asks allowed := by
  induction activity with
  | done outcome => trivial
  | suspended => trivial
  | tell event rest ih => exact ih only
  | clock resume ih => exact fun now => ih now (only now)
  | ask query deadline resume ih =>
      have resumed : ∀ reply, ((resume reply).boundedBy limit).Asks allowed :=
        fun reply => ih reply (only.2 reply)
      have expired : ((resume .cancelled).expire).Asks allowed := expire (only.2 .cancelled)
      cases deadline with
      | none =>
          rw [Activity.boundedBy]
          refine ⟨only.1, ?_⟩
          rintro (answer | _ | _)
          · exact resumed (.answer answer)
          · exact expired
          · exact resumed .cancelled
      | some own =>
          by_cases earlier : own ≤ limit
          · rw [Activity.boundedBy, if_pos earlier]
            exact ⟨only.1, resumed⟩
          · rw [Activity.boundedBy, if_neg earlier]
            refine ⟨only.1, ?_⟩
            rintro (answer | _ | _)
            · exact resumed (.answer answer)
            · exact expired
            · exact resumed .cancelled

theorem bounded (only : activity.Asks allowed) (deadline : Option Rat) :
    (activity.bounded deadline).Asks allowed := by
  cases deadline with
  | none => exact only
  | some limit => exact only.boundedBy limit

theorem within (only : activity.Asks allowed) (context : Dict) :
    (activity.within context).Asks allowed := by
  induction activity with
  | done outcome => trivial
  | suspended => trivial
  | tell event rest ih => exact ih only
  | clock resume ih => exact fun now => ih now (only now)
  | ask query deadline resume ih => exact ⟨only.1, fun reply => ih reply (only.2 reply)⟩

theorem lift (outcome : Outcome α) : (liftM outcome : Activity α).Asks allowed :=
  trivial

theorem mapM {items : List α} {step : α → Activity β} (each : ∀ item, (step item).Asks allowed) :
    (items.mapM step).Asks allowed := by
  induction items with
  | nil => trivial
  | cons item items ih =>
      rw [List.mapM_cons]
      exact bind (each item) fun _ => bind ih fun _ => trivial

theorem perform {query : Query} (member : allowed query) :
    (Activity.perform query).Asks allowed := by
  refine ⟨member, ?_⟩
  rintro (answer | _ | _) <;> trivial

theorem settle {activity : Activity (Outcome α)} (only : activity.Asks allowed) :
    activity.settle.Asks allowed := by
  apply only.andThen
  intro outcome
  cases outcome <;> trivial

theorem of_run {ending : Ending α} (only : activity.Asks allowed)
    (run : Run activity start labels ending stop) : ∀ query ∈ queries labels, allowed query := by
  induction run with
  | done => simp [queries]
  | suspended => simp [queries]
  | tell next ih => exact ih only
  | clock next ih => exact ih (only _)
  | late passed next ih => exact ih (only.2 _)
  | ask early closes next ih => exact List.forall_mem_cons.mpr ⟨only.1, ih (only.2 _)⟩
  | stuck endless => exact List.forall_mem_cons.mpr ⟨only.1, by simp⟩

end Asks

/-- An activity asks a node only, in single calls of methods of one kind. -/
def CallsOnly (allowed : String → Prop) (activity : Activity α) : Prop :=
  activity.Asks (Query.IsCallOf allowed)

namespace CallsOnly

variable {allowed : String → Prop} {activity : Activity α}

theorem mono {permitted : String → Prop} (only : activity.CallsOnly allowed)
    (weaker : ∀ method, allowed method → permitted method) : activity.CallsOnly permitted := by
  apply Asks.mono only
  intro query member
  cases query with
  | call method params => exact weaker method member
  | _ => exact member

theorem send {method : String} (params : List Value) (member : allowed method) :
    (Transport.direct.send method params).CallsOnly allowed :=
  (Asks.perform member).settle

theorem method_of_mem_calls {ending : Ending α} (only : activity.CallsOnly allowed)
    (run : Run activity start labels ending stop) : ∀ call ∈ calls labels, allowed call.method :=
  fun _ member => only.of_run run _ (query_of_mem_calls member)

end CallsOnly

/-- An activity may come to an ending when a node is asked and answers as a list says. -/
def Reaches (activity : Activity α) (start : Rat) (asked : List NodeCall) (ending : Ending α) :
    Prop :=
  ∃ labels stop, Run activity start labels ending stop ∧ calls labels = asked

namespace Reaches

variable {asked : List NodeCall} {ending : Ending α}

theorem done {outcome : Outcome α} : Reaches (done outcome) start [] (.ended outcome) :=
  ⟨[], start, .done, rfl⟩

/-- What follows a result may be reached whenever the result is there. -/
theorem bind {value : α} {next : α → Activity β} {activity : Activity α} {later : List NodeCall}
    {ending : Ending β} (first : Reaches activity start asked (.ended (.ok value)))
    (second : ∀ now, Reaches (next value) now later ending) :
    Reaches (activity >>= next) start (asked ++ later) ending := by
  rcases first with ⟨before, middle, firstRun, rfl⟩
  rcases second middle with ⟨after, stop, secondRun, rfl⟩
  exact ⟨before ++ after, stop, firstRun.andThen secondRun, calls_append before after⟩

theorem tell {event : Event} {rest : Activity α} (reaches : Reaches rest start asked ending) :
    Reaches (tell event rest) start asked ending := by
  rcases reaches with ⟨labels, stop, run, same⟩
  exact ⟨_, stop, .tell run, same⟩

theorem clock {resume : Rat → Activity α} (reaches : Reaches (resume start) start asked ending) :
    Reaches (clock resume) start asked ending := by
  rcases reaches with ⟨labels, stop, run, same⟩
  exact ⟨labels, stop, .clock run, same⟩

theorem call {method : String} {params : List Value} {answer : Outcome Value}
    {resume : Reply (Outcome Value) → Activity α}
    (reaches : Reaches (resume (.answer answer)) start asked ending) :
    Reaches (ask (.call method params) none resume) start
      (⟨method, params, some answer⟩ :: asked) ending := by
  rcases reaches with ⟨labels, stop, run, same⟩
  refine ⟨_, stop, .call answer run, ?_⟩
  rw [← same]
  rfl

theorem sleep {seconds : Rat} {resume : Reply Unit → Activity α}
    (reaches : Reaches (resume (.answer ())) (start + max seconds 0) asked ending) :
    Reaches (ask (.sleep seconds) none resume) start asked ending := by
  rcases reaches with ⟨labels, stop, run, same⟩
  exact ⟨_, stop, run.sleep, same⟩

end Reaches

end Activity

end ContractClient
