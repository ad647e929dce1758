import ContractClient.Proofs.Activity.Call
import ContractClient.Proofs.Retry.Delay

/-!
# Attempts

An action that is retried is run again and again until it does not fail for a passing reason, or was
run as often as the configuration allows. After each failure but the last there is one note and one
pause, as long as the configuration says, and the ending is the one of the last run
(`retry_disciplined`).
-/

namespace ContractClient

open Activity

variable {α : Type} {config : RetryConfig} {operation : String} {action : Activity α}
  {attempt remaining : Nat} {start stop : Rat} {labels : List Label} {failures : List Failure}
  {ending : Ending α}

/-- No pause was cancelled. -/
def Undisturbed (labels : List Label) : Prop :=
  ∀ seconds start stop, .asked (.sleep seconds) start stop .cancelled ∉ labels

theorem Undisturbed.mono {own : List Label} (undisturbed : Undisturbed labels)
    (part : own ⊆ labels) : Undisturbed own :=
  fun seconds start stop member => undisturbed seconds start stop (part member)

namespace RetryConfig

/-- What is noted before an action is tried again. -/
def record (config : RetryConfig) (operation : String) (attempt : Nat) (delay : Binary64)
    (failure : Failure) : LogRecord where
  severity := .warning
  logger := "ethcontract.utils.retry"
  message := "Retrying after transient failure"
  fields := [
    ("operation", .text operation), ("attempt", .int (attempt + 1)),
    ("max_attempts", .int config.maxAttempts),
    ("delay_s", .float (Numeral.roundPlaces delay 3)), ("error", .text failure.summary)]

/-- The attempts up to an ending: all but the last one fail for a passing reason, and the last one
does not, or no other one is left. -/
structure Stops (config : RetryConfig) (remaining : Nat) (failures : List Failure)
    (ending : Ending α) : Prop where
  passing : ∀ failure ∈ failures, config.isRetryable failure = true
  enough : failures.length < remaining
  last : failures.length + 1 = remaining ∨
    ∀ failure, ending = .ended (.error failure) → config.isRetryable failure = false

theorem Stops.cons {failure : Failure} (stops : config.Stops remaining failures ending)
    (passes : config.isRetryable failure = true) :
    config.Stops (remaining + 1) (failure :: failures) ending where
  passing := List.forall_mem_cons.mpr ⟨passes, stops.passing⟩
  enough := Nat.succ_lt_succ stops.enough
  last := stops.last.imp_left (congrArg (· + 1))

end RetryConfig

theorem retryFrom_succ (more : 0 < remaining) :
    retryFrom config operation action (remaining + 1) attempt = action.handle (fun failure => do
      if !config.isRetryable failure then Activity.fail failure
      else
        let delay ← config.calculateDelay attempt
        Activity.emit (.note (config.record operation attempt delay failure))
        Activity.sleep (secondsOf delay)
        retryFrom config operation action remaining (attempt + 1)) := by
  obtain ⟨others, rfl⟩ := Nat.exists_eq_succ_of_ne_zero (Nat.ne_of_gt more)
  rfl

/-- The runs of an action, and what happens between them: after each failure the next attempt is
noted, and waited for as long as the configuration says. -/
inductive Attempts (config : RetryConfig) (operation : String) (action : Activity α) :
    (attempt : Nat) → Rat → List Failure → Ending α → List Label → Rat → Prop where
  | last {attempt : Nat} {start stop : Rat} {ending : Ending α} {labels : List Label}
      (run : Run action start labels ending stop) :
      Attempts config operation action attempt start [] ending labels stop
  | again {attempt : Nat} {start middle stop : Rat} {failure : Failure} {failures : List Failure}
      {delay : Binary64} {pause : Rat} {ending : Ending α} {before after : List Label}
      (run : Run action start before (.ended (.error failure)) middle)
      (waits : config.calculateDelay attempt = .ok delay) (paused : pause = max (secondsOf delay) 0)
      (rest : Attempts config operation action (attempt + 1) (middle + pause) failures ending after
        stop) :
      Attempts config operation action attempt start (failure :: failures) ending
        (before ++ .told middle (.note (config.record operation attempt delay failure)) ::
          .asked (.sleep pause) middle (middle + pause) (.answer ()) :: after) stop

/-- What is done between two attempts. -/
theorem run_pause_inv {delay : Binary64} {failure : Failure} {next : Activity α}
    (undisturbed : Undisturbed labels)
    (run : Run (do
      Activity.emit (.note (config.record operation attempt delay failure))
      Activity.sleep (secondsOf delay)
      next) start labels ending stop) :
    ∃ pause after, pause = max (secondsOf delay) 0 ∧
      Run next (start + pause) after ending stop ∧
      labels = .told start (.note (config.record operation attempt delay failure)) ::
        .asked (.sleep pause) start (start + pause) (.answer ()) :: after := by
  rcases Run.emit_bind_inv run with ⟨labels, slept, rfl⟩
  cases slept with
  | @ask _ _ _ reply _ moment _ _ _ early closes next =>
      cases closes with
      | answered _ duration _ =>
          have once : max (max (secondsOf delay) 0) 0 = max (secondsOf delay) 0 := by grind
          obtain rfl : moment = start + max (secondsOf delay) 0 := once ▸ duration _ rfl
          exact ⟨_, _, rfl, next, rfl⟩
      | expired due => cases due
      | cancelled =>
          exact absurd (List.mem_cons_of_mem _ List.mem_cons_self) (undisturbed _ _ _)
  | stuck endless => cases endless

theorem run_sleep {seconds : Rat} {next : Activity α}
    (run : Run next (start + max seconds 0) labels ending stop) :
    Run (do Activity.sleep seconds; next) start
      (.asked (.sleep (max seconds 0)) start (start + max seconds 0) (.answer ()) :: labels)
      ending stop := by
  have once : max (max seconds 0) 0 = max seconds 0 := by grind
  have later : Run next (start + max (max seconds 0) 0) labels ending stop := by rwa [once]
  have slept : Run (do Activity.sleep seconds; next) start
      (.asked (.sleep (max seconds 0)) start (start + max (max seconds 0) 0) (.answer ()) :: labels)
      ending stop := Run.sleep later
  rwa [once] at slept

/-- Retrying runs the action until its attempts stop. -/
theorem attempts_of_run (inRange : ∀ later, attempt ≤ later → later + 1 < attempt + remaining →
      ∃ delay, config.calculateDelay later = .ok delay)
    (undisturbed : Undisturbed labels) (some : remaining ≠ 0)
    (run : Run (retryFrom config operation action remaining attempt) start labels ending stop) :
    ∃ failures, config.Stops remaining failures ending ∧
      Attempts config operation action attempt start failures ending labels stop := by
  induction remaining generalizing attempt start labels with
  | zero => exact absurd rfl some
  | succ remaining ih =>
      rcases Nat.eq_zero_or_pos remaining with rfl | more
      · exact ⟨[], ⟨by simp, by simp, Or.inl rfl⟩, .last run⟩
      rw [retryFrom_succ more, Run.handle_iff] at run
      rcases run with ⟨run, noFailure⟩ | ⟨failure, before, middle, after, first, next, rfl⟩
      · exact ⟨[], ⟨by simp, by simp, Or.inr fun failure same => absurd same (noFailure failure)⟩,
          .last run⟩
      have afterwards : Undisturbed after := undisturbed.mono (List.subset_append_right _ _)
      cases passes : config.isRetryable failure with
      | false =>
          rw [passes] at next
          rcases Run.done_inv next with ⟨rfl, rfl, rfl⟩
          rw [List.append_nil]
          refine ⟨[], ⟨by simp, by simp, Or.inr ?_⟩, .last first⟩
          rintro _ ⟨⟩
          exact passes
      | true =>
          rw [passes] at next
          obtain ⟨delay, waits⟩ := inRange attempt (Nat.le_refl _) (by omega)
          rcases Run.lift_bind_inv next with ⟨other, same, noted⟩ | ⟨_, failed, _⟩
          · cases waits.symm.trans same
            rcases run_pause_inv afterwards noted with ⟨pause, rest, paused, again, rfl⟩
            have later : Undisturbed rest := afterwards.mono fun _ member =>
              List.mem_cons_of_mem _ (List.mem_cons_of_mem _ member)
            have others : ∀ later, attempt + 1 ≤ later → later + 1 < attempt + 1 + remaining →
                ∃ delay, config.calculateDelay later = .ok delay :=
              fun later reached less => inRange later (by omega) (by omega)
            rcases ih others later (Nat.ne_of_gt more) again with ⟨failures, stops, attempts⟩
            exact ⟨failure :: failures, stops.cons passes, .again first waits paused attempts⟩
          · cases waits.symm.trans failed

/-- Attempts that stop are how an action may be retried. -/
theorem run_of_attempts (stops : config.Stops remaining failures ending)
    (attempts : Attempts config operation action attempt start failures ending labels stop) :
    Run (retryFrom config operation action remaining attempt) start labels ending stop := by
  induction attempts generalizing remaining with
  | @last attempt start stop ending labels run =>
      obtain ⟨others, rfl⟩ := Nat.exists_eq_succ_of_ne_zero (Nat.ne_of_gt stops.enough)
      rcases Nat.eq_zero_or_pos others with rfl | more
      · exact run
      rw [retryFrom_succ more, Run.handle_iff]
      by_cases failed : ∃ failure, ending = .ended (.error failure)
      · rcases failed with ⟨failure, rfl⟩
        have final : config.isRetryable failure = false := by
          rcases stops.last with same | final
          · exact absurd (Nat.succ.inj same) (Nat.ne_of_lt more)
          · exact final failure rfl
        refine Or.inr ⟨failure, _, _, [], run, ?_, (List.append_nil _).symm⟩
        rw [final]
        exact .done
      · exact Or.inl ⟨run, not_exists.mp failed⟩
  | @again attempt start middle stop failure failures delay pause ending before after first waits
      paused rest ih =>
      have enough : failures.length + 1 < remaining := stops.enough
      obtain ⟨others, rfl⟩ :=
        Nat.exists_eq_succ_of_ne_zero (Nat.ne_of_gt (Nat.zero_lt_of_lt enough))
      have more : 0 < others := Nat.zero_lt_of_lt (Nat.lt_of_succ_lt_succ enough)
      have passes := stops.passing failure List.mem_cons_self
      have restStops : config.Stops others failures ending :=
        { passing := fun _ member => stops.passing _ (List.mem_cons_of_mem _ member)
          enough := Nat.lt_of_succ_lt_succ enough
          last := stops.last.imp_left Nat.succ.inj }
      rw [retryFrom_succ more, Run.handle_iff]
      refine Or.inr ⟨failure, before, middle, _, first, ?_, rfl⟩
      rw [passes]
      subst paused
      exact Run.lift_bind waits (.tell (run_sleep (ih restStops)))

/-- Attempts end as the last run of the action does. -/
theorem Attempts.exists_run
    (attempts : Attempts config operation action attempt start failures ending labels stop) :
    ∃ moment own, Run action moment own ending stop := by
  induction attempts with
  | last run => exact ⟨_, _, run⟩
  | again run waits paused rest ih => exact ih

/-- Without jitter, and with waits in range, retrying runs the action until its attempts stop,
unless a pause is cancelled, and attempts that stop are how it may be retried. The waits between
them keep the limit. -/
theorem retry_disciplined {fields : Dict} {retryable : List FailureClass}
    (accepted : RetryConfig.ofFields fields retryable = .ok config) (steady : config.jitter = false)
    (inRange : ∀ attempt, attempt + 1 < config.maxAttempts.toNat → config.StaysInRange attempt)
    (operation : String) (action : Activity α) :
    (∀ start labels ending stop, Undisturbed labels →
        Run (retry config action operation) start labels ending stop →
        ∃ failures, config.Stops config.maxAttempts.toNat failures ending ∧
          Attempts config operation action 0 start failures ending labels stop) ∧
      (∀ start labels ending stop failures, config.Stops config.maxAttempts.toNat failures ending →
        Attempts config operation action 0 start failures ending labels stop →
        Run (retry config action operation) start labels ending stop) ∧
      (config.exponentialBase.lt (.int 0) = false →
        ∀ attempt, attempt + 1 < config.maxAttempts.toNat → config.KeepsLimit attempt) := by
  have sound := RetryConfig.isSound_of_ofFields accepted
  refine ⟨?_, ?_, ?_⟩
  · intro start labels ending stop undisturbed run
    have attempts := sound.attempts
    have waits : ∀ later, 0 ≤ later → later + 1 < 0 + config.maxAttempts.toNat →
        ∃ delay, config.calculateDelay later = .ok delay :=
      fun later _ less => (inRange later (by omega)).exists_delay
    exact attempts_of_run waits undisturbed (by omega) run
  · intro start labels ending stop failures stops attempts
    exact run_of_attempts stops attempts
  · intro nonneg attempt less
    exact RetryConfig.keepsLimit sound steady nonneg (inRange attempt less)

section Examples

/-- Three attempts, with waits from a second on. -/
def threeAttempts : RetryConfig where
  jitter := false
  retryable := [.fault .rpcTransport]

theorem threeAttempts_accepted :
    RetryConfig.ofFields [("jitter", .bool false)] [.fault .rpcTransport] = .ok threeAttempts :=
  rfl

/-- A call that fails for a passing reason is made again after a second. -/
theorem retry_disciplined_again :
    let failure := Failure.fault (.rpcTransport "HTTP 503 from node" "eth_chainId")
    RetryConfig.ofFields [("jitter", .bool false)] [.fault .rpcTransport] = .ok threeAttempts ∧
      Run (retry threeAttempts (Transport.direct.send "eth_chainId" []) "chain") 0
        [.asked (.call "eth_chainId" []) 0 0 (.answer (.error failure)),
          .told 0 (.note (threeAttempts.record "chain" 0 (Binary64.ofInt 1) failure)),
          .asked (.sleep 1) 0 1 (.answer ()),
          .asked (.call "eth_chainId" []) 1 1 (.answer (.ok (.text "0x1")))]
        (.ended (.ok (.text "0x1"))) 1 ∧
      threeAttempts.KeepsLimit 0 ∧ threeAttempts.KeepsLimit 1 := by
  intro failure
  have first : threeAttempts.calculateDelay 0 = .ok (Binary64.ofInt 1) :=
    Outcome.toOption_eq_some_iff.mp (by decide +kernel)
  have second : threeAttempts.calculateDelay 1 = .ok (Binary64.ofInt 2) :=
    Outcome.toOption_eq_some_iff.mp (by decide +kernel)
  have inRange : ∀ attempt, attempt + 1 < threeAttempts.maxAttempts.toNat →
      threeAttempts.StaysInRange attempt := by
    intro attempt less
    have few : attempt = 0 ∨ attempt = 1 := by
      have most : attempt + 1 < 3 := less
      omega
    rcases few with rfl | rfl
    · exact ⟨_, 1, first, by decide +kernel⟩
    · exact ⟨_, 2, second, by decide +kernel⟩
  have disciplined := retry_disciplined threeAttempts_accepted rfl inRange "chain"
    (Transport.direct.send "eth_chainId" [])
  refine ⟨threeAttempts_accepted, ?_, disciplined.2.2 (by decide +kernel) 0 (by decide),
    disciplined.2.2 (by decide +kernel) 1 (by decide)⟩
  have stops : threeAttempts.Stops threeAttempts.maxAttempts.toNat [failure]
      (.ended (.ok (.text "0x1")) : Ending Value) :=
    ⟨by decide +kernel, by decide, Or.inr nofun⟩
  refine disciplined.2.1 0 _ _ 1 [failure] stops ?_
  have fails : Run (Transport.direct.send "eth_chainId" []) 0
      [.asked (.call "eth_chainId" []) 0 0 (.answer (.error failure))]
      (.ended (.error failure)) 0 := .call _ .done
  have paused : (1 : Rat) = max (secondsOf (Binary64.ofInt 1)) 0 := by decide +kernel
  have rest : Attempts threeAttempts "chain" (Transport.direct.send "eth_chainId" []) 1 (0 + 1) []
      (.ended (.ok (.text "0x1")))
      [.asked (.call "eth_chainId" []) 1 1 (.answer (.ok (.text "0x1")))] 1 := by
    rw [zero_add]
    exact .last (.call _ .done)
  have attempts := Attempts.again fails first paused rest
  rw [zero_add] at attempts
  exact attempts

end Examples

end ContractClient
