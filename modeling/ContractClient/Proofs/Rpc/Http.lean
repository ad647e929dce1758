import ContractClient.Proofs.Activity.Call
import ContractClient.Proofs.Outcome
import ContractClient.Rpc.Http

/-!
# Replies over HTTP

A body is posted again only as long as a server fails for a passing reason. A reply that carries a
value decides: nothing is posted after it, and the post ends with the value (`Http.post_inv`). So a
request ends with what the value says (`Http.send_inv`), and so does a batch (`Http.sendBatch_inv`).
-/

namespace ContractClient.Http

open Activity Outcome

variable {config : TransportConfig} {body value : Value} {method : String} {reply : HttpReply}
  {start stop : Rat} {labels : List Label}

/-- A server replied so to a body. -/
def Posted (body : Value) (reply : HttpReply) (labels : List Label) : Prop :=
  ∃ start stop, .asked (.post body) start stop (.answer (.ok reply)) ∈ labels

@[simp]
theorem not_posted_nil : ¬Posted body reply [] := by
  simp [Posted]

theorem posted_append {before after : List Label} :
    Posted body reply (before ++ after) ↔ Posted body reply before ∨ Posted body reply after := by
  simp only [Posted, List.mem_append, exists_or]

theorem posted_told {now : Rat} {event : Event} :
    Posted body reply (.told now event :: labels) ↔ Posted body reply labels := by
  simp [Posted]

theorem Posted.mem_queries (posted : Posted body reply labels) : .post body ∈ queries labels := by
  rcases posted with ⟨start, stop, member⟩
  exact List.mem_filterMap.mpr ⟨_, member, rfl⟩

/-- How a single post ends. -/
def outcomeOfPost (method : String) : Reply (Outcome HttpReply) → Outcome Value
  | .answer (.ok reply) => valueOfReply method reply
  | .answer (.error failure) => .error (failureOfPost method failure)
  | _ => .error (failureOfPost method .cancelled)

theorem postOnce_eq :
    postOnce body method =
      ask (.post body) none fun reply => done (outcomeOfPost method reply) := by
  refine congrArg (ask (.post body) none) (funext fun reply => ?_)
  rcases reply with outcome | _ | _
  · cases outcome <;> rfl
  · rfl
  · rfl

theorem postOnce_inv {ending : Ending Value} (carries : valueOfReply method reply = .ok value)
    (run : Run (postOnce body method) start labels ending stop)
    (posted : Posted body reply labels) : ending = .ended (.ok value) := by
  rw [postOnce_eq] at run
  cases run with
  | stuck endless => simp [Posted] at posted
  | @ask _ _ _ answer _ _ _ _ _ early closes next =>
      rcases Run.done_inv next with ⟨rfl, rfl, _⟩
      obtain rfl : answer = .answer (.ok reply) := by
        simpa [Posted, eq_comm] using posted
      rw [outcomeOfPost, carries]

theorem not_posted_of_asks {α : Type} {activity : Activity α} {ending : Ending α}
    {allowed : Query → Prop} (asks : activity.Asks allowed) (other : ¬allowed (.post body))
    (run : Run activity start labels ending stop) : ¬Posted body reply labels :=
  fun posted => other (asks.of_run run _ posted.mem_queries)

theorem not_posted_sleep {seconds : Rat} {ending : Ending Unit}
    (run : Run (sleep seconds) start labels ending stop) : ¬Posted body reply labels := by
  have asks : (sleep seconds).Asks (· = .sleep (max seconds 0)) := Asks.perform rfl
  exact not_posted_of_asks asks (by simp) run

theorem retryFrom_inv {retries : RetryConfig} {operation : String} {remaining attempt : Nat}
    {ending : Ending Value} (carries : valueOfReply method reply = .ok value)
    (run : Run (retryFrom retries operation (postOnce body method) remaining attempt) start labels
      ending stop)
    (posted : Posted body reply labels) : ending = .ended (.ok value) := by
  induction remaining generalizing attempt start labels with
  | zero =>
      rcases Run.done_inv run with ⟨rfl, _⟩
      simp at posted
  | succ remaining ih =>
      cases remaining with
      | zero => exact postOnce_inv carries run posted
      | succ remaining =>
          rcases Run.handle_iff.mp run with ⟨once, _⟩ |
            ⟨failure, before, middle, after, once, next, rfl⟩
          · exact postOnce_inv carries once posted
          rcases posted_append.mp posted with now | later
          · cases postOnce_inv carries once now
          -- The attempt has failed, and there is another one after a pause.
          split at next
          · rcases Run.done_inv next with ⟨rfl, _⟩
            simp at later
          · rcases Run.lift_bind_inv next with ⟨_, _, noted⟩ | ⟨_, _, rfl, _⟩
            · rcases Run.emit_bind_inv noted with ⟨_, resumed, rfl⟩
              rw [posted_told] at later
              rcases Run.bind_inv resumed with ⟨_, _, _, _, pauses, again, rfl⟩ | ⟨_, pauses, _⟩
              · rcases posted_append.mp later with paused | later
                · exact absurd paused (not_posted_sleep pauses)
                · exact ih again later
              · exact absurd later (not_posted_sleep pauses)
            · simp at later

/-- A reply that carries a value ends a post. -/
theorem post_inv {ending : Ending Value} (carries : valueOfReply method reply = .ok value)
    (run : Run (post config body method) start labels ending stop)
    (posted : Posted body reply labels) : ending = .ended (.ok value) :=
  retryFrom_inv carries run posted

theorem post_run (attempts : config.maxAttempts ≠ 0)
    (carries : valueOfReply method reply = .ok value) (start : Rat) :
    Run (post config body method) start [.asked (.post body) start start (.answer (.ok reply))]
      (.ended (.ok value)) start := by
  have once : Run (postOnce body method) start
      [.asked (.post body) start start (.answer (.ok reply))] (.ended (.ok value)) start := by
    rw [postOnce_eq, ← carries]
    exact .ask (by simp) (.atOnce rfl) .done
  obtain ⟨others, same⟩ := Nat.exists_eq_succ_of_ne_zero attempts
  rw [post, retry, TransportConfig.retryConfig, same]
  cases others with
  | zero => exact once
  | succ others => exact once.andThen .done

/-- What comes after a post goes on with the value of the reply, if it asks nothing of its own. -/
theorem post_bind_inv {α : Type} {next : Value → Activity α} {ending : Ending α}
    (quiet : ∀ value, (next value).Asks fun _ => False)
    (carries : valueOfReply method reply = .ok value)
    (run : Run (post config body method >>= next) start labels ending stop)
    (posted : Posted body reply labels) :
    ∃ before middle after, labels = before ++ after ∧
      Run (next value) middle after ending stop := by
  rcases Run.bind_inv run with ⟨other, before, middle, after, posts, reads, rfl⟩ |
    ⟨_, posts, abandons⟩
  · have now : Posted body reply before :=
      (posted_append.mp posted).resolve_right (not_posted_of_asks (quiet other) id reads)
    cases post_inv carries posts now
    exact ⟨before, middle, after, rfl, reads⟩
  · cases post_inv carries posts posted
    cases abandons

end ContractClient.Http
