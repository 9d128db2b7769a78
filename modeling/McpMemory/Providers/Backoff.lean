import McpMemory.Providers.Admission

/-! The backoff of a provider, on the three paths that a call can take. A call of a session is admitted
and recorded like the others; it neither clears the admission state nor sets it. -/
namespace McpMemory.Providers.Backoffs
open Interleave

inductive Path where
  | askJson
  | runAgent
  | session
  deriving DecidableEq, Repr

/- A call has ended with an error that is classified as a backoff until this time. -/
structure Backed where
  providerKey : String
  modelName : String
  activeUntil : Int
  deriving DecidableEq, Repr

inductive Op where
  | call (path : Path) (p : Provider) (outcome : Outcome)
  | tick (seconds : Nat)
  deriving DecidableEq, Repr

inductive Call where
  | call (path : Path) (p : Provider) (outcome : Outcome) (stage : Stage)
  | tick (seconds : Nat)
  | finished
  deriving DecidableEq, Repr

/- `evaluate_provider_admission` -/
def evaluateProviderAdmission (p : Provider) (u : Usage) : Option ProviderAdmissionDecision :=
  (activeRefusal p u).or ((dailyRefusal p u).or (burstRefusal p u))

section
variable (p : Provider) (outcome : Outcome)

/- `run_agent` of a session, which is never clearing or backing. -/
def sessionStep (stage : Stage) (u : Usage) : Stage × Usage := match stage with
  | .calling => (.completing u.now,u)
  | .recording _ completedAt => (.finished,recordCall p (.ended outcome.status) completedAt u)
  | .clearing _ | .backing _ _ => (.finished,u)
  | stage => let after := callStep p outcome stage u
    (after.1,after.2.1)

def pathStep (path : Path) (stage : Stage) (u : Usage) : Stage × Usage := match path with
  | .askJson | .runAgent => let after := callStep p outcome stage u
    (after.1,after.2.1)
  | .session => sessionStep p outcome stage u

/- Where the error of a call counts: once its backoff is stored, or once a session has recorded it. -/
def backed (path : Path) (stage : Stage) : List Backed := match path,stage,outcome with
  | .askJson,.backing _ activeUntil,_ | .runAgent,.backing _ activeUntil,_ => [⟨p.providerKey,p.modelName,activeUntil⟩]
  | .session,.recording _ completedAt,.failed _ (some backoff) =>
    if 0 < backoff.retryDelaySeconds then [⟨p.providerKey,p.modelName,completedAt + backoff.retryDelaySeconds⟩] else []
  | _,_,_ => []

end

def enter : Op → Call
  | .call path p outcome => .call path p outcome .starting
  | .tick seconds => .tick seconds

def step : Call → Usage → Call × Usage × List Backed
  | .call path p outcome stage,u =>
    let after := pathStep p outcome path stage u
    (.call path p outcome after.1,after.2,backed p outcome path stage)
  | .tick seconds,u => (.finished,{ u with now := u.now + seconds },[])
  | .finished,u => (.finished,u,[])

def paths : Machine Op Call Usage Backed := ⟨enter,step⟩

/- Every admission check of the provider is refused until the backoff ends. -/
def Honoured (w : World Call Usage Backed) : Prop := ∀ told ∈ w.trace, w.store.now < told.activeUntil →
  ∀ p : Provider, p.providerKey = told.providerKey → p.modelName = told.modelName →
    (evaluateProviderAdmission p w.store).isSome

/- A success ends while no backoff of its provider is active, a new backoff does not end before the one
that is, and no session fails with a backoff. -/
def keeps (u : Usage) : Call → Bool
  | .call .session p outcome (.recording madeAt completedAt) =>
    (backed p outcome .session (.recording madeAt completedAt)).isEmpty
  | .call .session _ _ _ => true
  | .call _ p _ (.clearing _) => (getActiveAdmissionState p u).isNone
  | .call _ p _ (.backing _ activeUntil) => (getActiveAdmissionState p u).all fun state => decide (state.activeUntil ≤ activeUntil)
  | _ => true

def Keeps (w : World Call Usage Backed) : Event Op → Prop
  | .start _ => True
  | .advance index => ∀ call ∈ w.calls[index]?, keeps w.store call = true

instance (w : World Call Usage Backed) (event : Event Op) : Decidable (Keeps w event) := match event with
  | .start _ => .isTrue trivial
  | .advance index => inferInstanceAs (Decidable (∀ call ∈ w.calls[index]?, keeps w.store call = true))

/- The primary key of `provider_admission_state`. -/
def OnePerProvider (u : Usage) : Prop := ∀ state ∈ u.states, ∀ other ∈ u.states, state.providerKey = other.providerKey →
  state.modelName = other.modelName → state = other

/- A backoff that goes on is stored, or a longer one in its place. -/
structure Stored (u : Usage) (trace : List Backed) : Prop where
  live : ∀ told ∈ trace, u.now < told.activeUntil → ∃ state ∈ u.states,
    state.providerKey = told.providerKey ∧ state.modelName = told.modelName ∧ told.activeUntil ≤ state.activeUntil
  single : OnePerProvider u

variable {u : Usage} {trace : List Backed} {p : Provider}

theorem storedActive (stored : Stored u trace) {told : Backed} (member : told ∈ trace) (live : u.now < told.activeUntil)
    (key : p.providerKey = told.providerKey) (model : p.modelName = told.modelName) :
    ∃ state, getActiveAdmissionState p u = some state ∧ told.activeUntil ≤ state.activeUntil := by
  obtain ⟨state,listed,sameKey,sameModel,later⟩ := stored.live told member live
  have active : u.now < state.activeUntil := by omega
  have hit : (decide (u.now < state.activeUntil) && state.providerKey == p.providerKey && state.modelName == p.modelName) = true := by
    simp [active,sameKey,sameModel,key,model]
  unfold getActiveAdmissionState
  cases found : u.states.find? fun state =>
      decide (u.now < state.activeUntil) && state.providerKey == p.providerKey && state.modelName == p.modelName with
  | none => exact absurd hit (List.find?_eq_none.mp found state listed)
  | some other =>
    have matched := List.find?_some found
    simp only [Bool.and_eq_true,beq_iff_eq] at matched
    have same := stored.single state listed other (List.mem_of_find?_eq_some found)
      (by rw [sameKey,matched.1.2,key]) (by rw [sameModel,matched.2,model])
    exact ⟨other,rfl,same ▸ later⟩

/- Steps that leave the states and the clock as they are. -/
theorem storedSame {after : Usage} (states : after.states = u.states) (now : after.now = u.now) (stored : Stored u trace) :
    Stored after trace :=
  ⟨by rw [states,now]; exact stored.live,by unfold OnePerProvider; rw [states]; exact stored.single⟩

theorem storedTick (seconds : Nat) (stored : Stored u trace) : Stored { u with now := u.now + seconds } trace :=
  ⟨fun told member live => stored.live told member (by dsimp only at live; omega),stored.single⟩

theorem cleared {state : AdmissionState} : state ∈ (clearAdmissionState p u).states ↔
    state ∈ u.states ∧ ¬ (state.providerKey = p.providerKey ∧ state.modelName = p.modelName) := by
  simp [clearAdmissionState,-not_and,Decidable.not_and_iff_not_or_not]

theorem storedClear (idle : getActiveAdmissionState p u = none) (stored : Stored u trace) :
    Stored (clearAdmissionState p u) trace := by
  refine ⟨fun told member live => ?_,fun state here other there =>
    stored.single state ((cleared).mp here).1 other ((cleared).mp there).1⟩
  obtain ⟨state,listed,sameKey,sameModel,later⟩ := stored.live told member live
  refine ⟨state,(cleared).mpr ⟨listed,fun own => ?_⟩,sameKey,sameModel,later⟩
  obtain ⟨active,found,_⟩ := storedActive stored member live (own.1.symm.trans sameKey) (own.2.symm.trans sameModel)
  rw [idle] at found
  cases found

theorem storedBacked {reasonCode : String} {activeUntil : Int} (stored : Stored u trace)
    (longer : ∀ state, getActiveAdmissionState p u = some state → state.activeUntil ≤ activeUntil) :
    Stored (upsertAdmissionState p reasonCode activeUntil u) (⟨p.providerKey,p.modelName,activeUntil⟩ :: trace) := by
  have own : (⟨p.providerKey,p.modelName,reasonCode,"upstream",activeUntil⟩ : AdmissionState) ∈
      (upsertAdmissionState p reasonCode activeUntil u).states := List.mem_append_right _ List.mem_cons_self
  refine ⟨fun told member live => ?_,fun state here other there key model => ?_⟩
  · rcases List.mem_cons.mp member with rfl | old
    · exact ⟨_,own,rfl,rfl,Int.le_refl _⟩
    · obtain ⟨state,listed,sameKey,sameModel,later⟩ := stored.live told old live
      by_cases same : state.providerKey = p.providerKey ∧ state.modelName = p.modelName
      · obtain ⟨active,found,ends⟩ := storedActive stored old live (same.1.symm.trans sameKey) (same.2.symm.trans sameModel)
        exact ⟨_,own,same.1.symm.trans sameKey,same.2.symm.trans sameModel,Int.le_trans ends (longer active found)⟩
      · exact ⟨state,List.mem_append_left _ ((cleared).mpr ⟨listed,same⟩),sameKey,sameModel,later⟩
  · rcases List.mem_append.mp here with here | here <;> rcases List.mem_append.mp there with there | there
    · exact stored.single state ((cleared).mp here).1 other ((cleared).mp there).1 key model
    · cases List.mem_singleton.mp there
      exact absurd ⟨key,model⟩ ((cleared).mp here).2
    · cases List.mem_singleton.mp here
      exact absurd ⟨key.symm,model.symm⟩ ((cleared).mp there).2
    · rw [List.mem_singleton.mp here,List.mem_singleton.mp there]

/- What a step of `ask_json` and `run_agent` does to the states: it clears them, sets one, or leaves them. -/
theorem stageStates (u : Usage) (p : Provider) (outcome : Outcome) (stage : Stage) :
    (∃ madeAt, stage = .clearing madeAt) ∨ (∃ reasonCode activeUntil, stage = .backing reasonCode activeUntil) ∨
      (∀ reasonCode activeUntil, stage ≠ .backing reasonCode activeUntil) ∧
        (callStep p outcome stage u).2.1.states = u.states ∧ (callStep p outcome stage u).2.1.now = u.now := by
  cases stage with
  | clearing madeAt => exact .inl ⟨madeAt,rfl⟩
  | backing reasonCode activeUntil => exact .inr (.inl ⟨reasonCode,activeUntil,rfl⟩)
  | stating startedAt =>
    refine .inr (.inr ⟨nofun,?_⟩)
    simp only [callStep]
    cases activeRefusal p u <;> exact ⟨rfl,rfl⟩
  | counting startedAt =>
    refine .inr (.inr ⟨nofun,?_⟩)
    simp only [callStep]
    cases dailyRefusal p u <;> exact ⟨rfl,rfl⟩
  | bursting startedAt =>
    refine .inr (.inr ⟨nofun,?_⟩)
    simp only [callStep]
    cases burstRefusal p u <;> exact ⟨rfl,rfl⟩
  | starting | calling | completing | recording | skipping | finished => exact .inr (.inr ⟨nofun,rfl,rfl⟩)

theorem directStored {path : Path} (direct : path ≠ .session) {outcome : Outcome} {stage : Stage} (stored : Stored u trace)
    (fine : keeps u (.call path p outcome stage) = true) :
    Stored (callStep p outcome stage u).2.1 (backed p outcome path stage ++ trace) := by
  have silent (other : ∀ reasonCode activeUntil, stage ≠ .backing reasonCode activeUntil) : backed p outcome path stage = [] := by
    cases path with
    | session => exact absurd rfl direct
    | askJson | runAgent => cases stage with
      | backing reasonCode activeUntil => exact absurd rfl (other reasonCode activeUntil)
      | _ => rfl
  rcases stageStates u p outcome stage with ⟨madeAt,rfl⟩ | ⟨reasonCode,activeUntil,rfl⟩ | ⟨other,states,now⟩
  · rw [silent (fun _ _ same => Stage.noConfusion same)]
    cases path with
    | session => exact absurd rfl direct
    | askJson | runAgent => exact storedClear (Option.isNone_iff_eq_none.mp fine) stored
  · cases path with
    | session => exact absurd rfl direct
    | askJson | runAgent =>
      refine storedBacked stored fun state found => ?_
      simp only [keeps,found,Option.all_some,decide_eq_true_eq] at fine
      exact fine
  · rw [silent other]
    exact storedSame states now stored

theorem sessionStored {outcome : Outcome} {stage : Stage} (stored : Stored u trace)
    (fine : keeps u (.call .session p outcome stage) = true) :
    Stored (sessionStep p outcome stage u).2 (backed p outcome .session stage ++ trace) := by
  rcases stageStates u p outcome stage with ⟨madeAt,rfl⟩ | ⟨reasonCode,activeUntil,rfl⟩ | ⟨_,states,now⟩
  · exact stored
  · exact stored
  · cases stage with
    | recording madeAt completedAt =>
      have silent : backed p outcome .session (.recording madeAt completedAt) = [] := List.isEmpty_iff.mp fine
      rw [silent]
      exact storedSame states now stored
    | calling | clearing | backing => exact stored
    | starting | stating | counting | bursting | completing | skipping | finished => exact storedSame states now stored

theorem nextStored (w : World Call Usage Backed) (event : Event Op) (fine : Keeps w event) (stored : Stored w.store w.trace) :
    Stored (paths.next w event).store (paths.next w event).trace := by
  cases event with
  | start op => exact stored
  | advance index =>
    cases found : w.calls[index]? with
    | none =>
      rw [nextIdle found]
      exact stored
    | some call =>
      have kept := fine call found
      rw [nextAdvance found]
      cases call with
      | finished => exact stored
      | tick seconds => exact storedTick seconds stored
      | call path p outcome stage => cases path with
        | session => exact sessionStored stored kept
        | askJson => exact directStored (by decide) stored kept
        | runAgent => exact directStored (by decide) stored kept

theorem runStored {usage : Usage} (single : OnePerProvider usage) {events : List (Event Op)}
    (meets : Meets paths Keeps (idle usage) events) :
    Stored (paths.run (idle usage) events).store (paths.run (idle usage) events).trace :=
  runMeets nextStored meets ⟨fun _ member => absurd member List.not_mem_nil,single⟩

def judge : Provider := ⟨none,"judge",false,"gpt-5-mini",none,none,none⟩

def backedOff : Outcome := .failed .error (some ⟨"provider_backoff_requested",60⟩)

def judged : Op := .call .askJson judge (.answered .success)

def judgeFails : Op := .call .runAgent judge backedOff

def noCalls : Usage := ⟨0,[],[]⟩

/- In a run where each step keeps to the condition, every backoff is honoured until it ends. -/
theorem backoffHonoured {usage : Usage} (single : OnePerProvider usage) {events : List (Event Op)}
    (meets : Meets paths Keeps (idle usage) events) : Honoured (paths.run (idle usage) events) := by
  intro told member live p key model
  obtain ⟨state,found,_⟩ := storedActive (runStored single meets) member live key model
  simp [evaluateProviderAdmission,activeRefusal,found]

/- A call that succeeds before the failure, one that succeeds after it, and a session that fails. -/

def endsBefore : List (Event Op) := [.start judged,.start judgeFails] ++ List.replicate 8 (.advance 0) ++ List.replicate 8 (.advance 1)

def endsAfter : List (Event Op) :=
  [.start judged,.start judgeFails] ++ List.replicate 5 (.advance 0) ++ List.replicate 8 (.advance 1) ++ [.advance 0]

def sessionFails : List (Event Op) := [.start (.call .session judge backedOff)] ++ List.replicate 7 (.advance 0)

theorem backoffHonouredBefore : Honoured (paths.run (idle noCalls) endsBefore) :=
  backoffHonoured (fun _ listed => absurd listed List.not_mem_nil) (by decide +kernel)

theorem backoffForgotten : ¬ Honoured (paths.run (idle noCalls) endsAfter) ∧ ¬ Honoured (paths.run (idle noCalls) sessionFails) := by
  constructor
  · intro honoured
    have refused := honoured ⟨"judge","gpt-5-mini",60⟩ (by decide +kernel) (by decide +kernel) judge rfl rfl
    exact absurd refused (by decide +kernel)
  · intro honoured
    have refused := honoured ⟨"judge","gpt-5-mini",60⟩ (by decide +kernel) (by decide +kernel) judge rfl rfl
    exact absurd refused (by decide +kernel)

end McpMemory.Providers.Backoffs
