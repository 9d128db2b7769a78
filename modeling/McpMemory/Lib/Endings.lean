import McpMemory.Lib.Transaction

/-! What holds however a script ends: with an answer, with an exception of its own or with one of
a command. Each command and each check has the two cases. -/
namespace McpMemory.Transaction

variable {σ ε α β : Type} {C : Type} {R : C → Type} {perform : (command : C) → Tx σ ε (R command)}
variable {oracle : Oracle ε} {session : Session σ} {post : Except ε α → Session σ → Prop}

def Script.Ends (perform : (command : C) → Tx σ ε (R command)) (oracle : Oracle ε)
    (post : Except ε α → Session σ → Prop) (script : Script C R ε α) (session : Session σ) : Prop :=
  post (script.play perform oracle session).1 (script.play perform oracle session).2

theorem endsPure {a : α} (given : post (.ok a) session) : (pure a : Script C R ε α).Ends perform oracle post session :=
  given

theorem endsMono {stronger : Except ε α → Session σ → Prop} {script : Script C R ε α}
    (weaker : ∀ result after, stronger result after → post result after) (ends : script.Ends perform oracle stronger session) :
    script.Ends perform oracle post session := weaker _ _ ends

theorem endsThen {script : Script C R ε β} {next : β → Script C R ε α}
    (first : script.Ends perform oracle (fun result after => match result with
      | .ok b => (next b).Ends perform oracle post after
      | .error error => post (.error error) after) session) :
    (script >>= next).Ends perform oracle post session := by
  unfold Script.Ends at first ⊢
  rw [playBind,bindRuns]
  revert first
  rcases script.play perform oracle session with ⟨error | b,after⟩ <;> exact id

theorem endsCheck {value : Except ε β} {next : β → Script C R ε α}
    (raised : ∀ error, value = .error error → post (.error error) session)
    (given : ∀ b, value = .ok b → (next b).Ends perform oracle post session) :
    (check value >>= next).Ends perform oracle post session := by
  cases value with
  | error error => exact raised error rfl
  | ok b => exact given b rfl

/- What a script does with a reply it decides itself. -/
theorem endsCall {command : C} {next : Except ε (R command) → Script C R ε α}
    (raised : ∀ error after, perform command oracle session = (.error error,after) →
      (next (.error error)).Ends perform oracle post after)
    (given : ∀ reply after, perform command oracle session = (.ok reply,after) →
      (next (.ok reply)).Ends perform oracle post after) :
    (Script.call command next).Ends perform oracle post session := by
  unfold Script.Ends
  rw [Script.play]
  rcases ran : perform command oracle session with ⟨error | reply,after⟩
  all_goals
    dsimp only
    rw [ran]
  · exact raised error after ran
  · exact given reply after ran

theorem endsAsk {command : C} {next : R command → Script C R ε α}
    (raised : ∀ error after, perform command oracle session = (.error error,after) → post (.error error) after)
    (given : ∀ reply after, perform command oracle session = (.ok reply,after) →
      (next reply).Ends perform oracle post after) :
    (ask command >>= next).Ends perform oracle post session := by
  refine endsThen ?_
  rcases ran : perform command oracle session with ⟨error | reply,after⟩
  all_goals
    unfold Script.Ends ask
    rw [Script.play]
    dsimp only
    rw [ran]
  · exact raised error after ran
  · exact given reply after ran

end McpMemory.Transaction
