import McpMemory.Lib.Transaction

/-! While one moment lasts and nothing fails around a program, its outcome hangs on the state
alone. Two programs mirror each other where the one, on a state that holds more, ends as the
other does on the part that it sees. -/
namespace McpMemory.Transaction

variable {σ τ ε α β γ : Type} {now : Moment ε} {fine : ε → Prop}

def Ends (now : Moment ε) (x : Tx σ ε α) (before : σ) (outcome : Except ε α) (after : σ) : Prop :=
  ∀ moment, ∃ later, x (fun _ => now) ⟨before,moment⟩ = (outcome,⟨after,later⟩)

/- It ends at all such moments alike, and raises only what `fine` allows. -/
def Steady (now : Moment ε) (fine : ε → Prop) (x : Tx σ ε α) (before : σ) : Prop :=
  ∃ outcome after, Ends now x before outcome after ∧ ∀ error, outcome = .error error → fine error

def Mirrors (now : Moment ε) (fine : ε → Prop) (view : τ → σ) (x : Tx τ ε α) (y : Tx σ ε α) (before : τ) : Prop :=
  ∃ outcome after, Ends now y (view before) outcome after ∧ (∀ error, outcome = .error error → fine error) ∧
    ∀ moment, ∃ state later, view state = after ∧ x (fun _ => now) ⟨before,moment⟩ = (outcome,⟨state,later⟩)

theorem noError (a : α) : ∀ error, (Except.ok a : Except ε α) = .error error → fine error := fun _ same => by cases same

theorem oneError {error : ε} (allowed : fine error) : ∀ other, (Except.error error : Except ε α) = .error other → fine other :=
  fun _ same => by cases same; exact allowed

section
variable {x : Tx σ ε α} {before after : σ} {outcome other : Except ε α}

theorem endsUnique {last : σ} (ends : Ends now x before outcome after) (others : Ends now x before other last) :
    outcome = other ∧ after = last := by
  obtain ⟨later,ran⟩ := ends 0
  obtain ⟨_,again⟩ := others 0
  have same := ran.symm.trans again
  exact ⟨congrArg (·.1) same,congrArg (·.2.data) same⟩

theorem liftEnds {value : Except ε α} {a} (ends : Ends now (lift value) before (.ok a) after) :
    value = .ok a ∧ before = after := by
  obtain ⟨_,ran⟩ := ends 0
  obtain ⟨given,same⟩ := (liftOk).mp ran
  exact ⟨given,congrArg (·.data) same⟩

theorem observeEnds {a} (ends : Ends now observe before (.ok a) after) : now = a ∧ before = after := by
  obtain ⟨_,ran⟩ := ends 0
  obtain ⟨given,same⟩ := (observeOk).mp ran
  exact ⟨given,congrArg (·.data) same⟩

theorem endsBind {y : Tx σ ε β} {next : β → Tx σ ε α} {b middle} (first : Ends now y before (.ok b) middle)
    (rest : Ends now (next b) middle outcome after) : Ends now (y >>= next) before outcome after := by
  intro moment
  obtain ⟨between,here⟩ := first moment
  obtain ⟨later,there⟩ := rest between
  exact ⟨later,by rw [bindRuns,here]; exact there⟩

theorem endsRaised {y : Tx σ ε β} {next : β → Tx σ ε α} {error middle}
    (first : Ends now y before (.error error) middle) : Ends now (y >>= next) before (.error error) middle := by
  intro moment
  obtain ⟨later,here⟩ := first moment
  exact ⟨later,by rw [bindRuns,here]⟩

theorem steadyPure (a : α) : Steady now fine (pure a : Tx σ ε α) before :=
  ⟨_,_,fun moment => ⟨moment,rfl⟩,noError a⟩

theorem steadyRaise {error : ε} (allowed : fine error) : Steady now fine (raise error : Tx σ ε α) before :=
  ⟨_,_,fun moment => ⟨moment,rfl⟩,oneError allowed⟩

theorem steadyLift {value : Except ε α} (allowed : ∀ error, value = .error error → fine error) :
    Steady now fine (lift value : Tx σ ε α) before := ⟨_,_,fun moment => ⟨moment,rfl⟩,allowed⟩

theorem steadyObserve : Steady now fine (observe : Tx σ ε (Moment ε)) before :=
  ⟨_,_,fun moment => ⟨moment + 1,rfl⟩,noError now⟩

theorem steadyInspect (query : σ → α) : Steady now fine (inspect query : Tx σ ε α) before :=
  ⟨.ok (query before),before,fun moment => ⟨moment,rfl⟩,noError _⟩

theorem steadyAdjust (effect : σ → σ) : Steady now fine (adjust effect : Tx σ ε Unit) before :=
  ⟨.ok (),effect before,fun moment => ⟨moment,rfl⟩,noError ()⟩

theorem steadyBind {y : Tx σ ε β} {next : β → Tx σ ε α} (first : Steady now fine y before)
    (rest : ∀ b middle, Ends now y before (.ok b) middle → Steady now fine (next b) middle) :
    Steady now fine (y >>= next) before := by
  obtain ⟨outcome,middle,ends,allowed⟩ := first
  cases outcome with
  | error error => exact ⟨_,_,endsRaised ends,oneError (allowed _ rfl)⟩
  | ok b =>
    obtain ⟨last,after,ended,others⟩ := rest b middle ends
    exact ⟨last,after,endsBind ends ended,others⟩

theorem steadyMono {wider : ε → Prop} (steady : Steady now fine x before) (weaken : ∀ error, fine error → wider error) :
    Steady now wider x before := by
  obtain ⟨outcome,after,ends,allowed⟩ := steady
  exact ⟨outcome,after,ends,fun error same => weaken error (allowed error same)⟩

theorem steadyEach {action : β → Tx σ ε Unit} {items : List β}
    (one : ∀ item ∈ items, ∀ before, Steady now fine (action item) before) : Steady now fine (each action items) before := by
  induction items generalizing before with
  | nil => exact steadyPure ()
  | cons item rest ih =>
    exact steadyBind (one item List.mem_cons_self before) fun _ _ _ =>
      ih fun other member => one other (List.mem_cons_of_mem _ member)

section
variable (quiet : now.fault = none)
include quiet

theorem endsStatement {effect : σ → Except ε (α × σ)} {a} (taken : effect before = .ok (a,after)) :
    Ends now (statement effect) before (.ok a) after := givesStatement quiet taken

theorem endsRefused {effect : σ → Except ε (α × σ)} {error} (refused : effect before = .error error) :
    Ends now (statement effect) before (.error error) before := fun moment => ⟨moment + 1,by simp [statement,quiet,refused]⟩

theorem steadyStatement {effect : σ → Except ε (α × σ)} (allowed : ∀ error, effect before = .error error → fine error) :
    Steady now fine (statement effect) before := by
  cases taken : effect before with
  | error error => exact ⟨_,_,endsRefused quiet taken,oneError (allowed _ taken)⟩
  | ok reply => exact ⟨_,_,@endsStatement _ _ _ _ _ reply.2 quiet effect reply.1 taken,noError _⟩

theorem endsSelect (query : σ → α) : Ends now (select query) before (.ok (query before)) before := givesSelect quiet query

theorem endsWrite (effect : σ → σ) : Ends now (write effect) before (.ok ()) (effect before) := givesStatement quiet rfl

theorem steadySelect (query : σ → α) : Steady now fine (select query : Tx σ ε α) before :=
  steadyStatement quiet fun _ same => by cases same

theorem steadyWrite (effect : σ → σ) : Steady now fine (write effect : Tx σ ε Unit) before :=
  steadyStatement quiet fun _ same => by cases same

theorem steadyHook : Steady now fine (hook : Tx σ ε Unit) before := steadySelect quiet _

end

end

section
variable {view : τ → σ} {before : τ}

theorem endsObserve {before : σ} : Ends now observe before (.ok now) before := givesObserve

theorem steadyMirrors {x : Tx σ ε α} {before : σ} (steady : Steady now fine x before) : Mirrors now fine id x x before := by
  obtain ⟨outcome,after,ends,allowed⟩ := steady
  refine ⟨outcome,after,ends,allowed,fun moment => ?_⟩
  obtain ⟨later,ran⟩ := ends moment
  exact ⟨after,later,rfl,ran⟩

theorem mirrorsAlike {x : Tx τ ε α} {y : Tx σ ε α} {outcome : Except ε α} {state : τ} (one : Ends now x before outcome state)
    (other : Ends now y (view before) outcome (view state)) (allowed : ∀ error, outcome = .error error → fine error) :
    Mirrors now fine view x y before := by
  refine ⟨outcome,view state,other,allowed,fun moment => ?_⟩
  obtain ⟨later,ran⟩ := one moment
  exact ⟨state,later,rfl,ran⟩

theorem mirrorsEnds {x y : Tx σ ε α} {before after : σ} {outcome : Except ε α} (one : Ends now x before outcome after)
    (other : Ends now y before outcome after) (allowed : ∀ error, outcome = .error error → fine error) :
    Mirrors now fine id x y before := mirrorsAlike one other allowed

theorem mirrorsStatement (quiet : now.fault = none) {effect other : σ → Except ε (α × σ)} {before : σ}
    (same : effect before = other before) (allowed : ∀ error, other before = .error error → fine error) :
    Mirrors now fine id (statement effect) (statement other) before := by
  cases taken : other before with
  | error error =>
    exact mirrorsEnds (endsRefused quiet (same.trans taken)) (endsRefused quiet taken) (oneError (allowed _ taken))
  | ok reply =>
    exact mirrorsEnds (endsStatement quiet (same.trans taken)) (endsStatement quiet taken) (noError reply.1)

theorem mirrorsZoom {put : σ → τ → τ} (seen : ∀ part whole, view (put part whole) = part) {x y : Tx σ ε α}
    (mirrors : Mirrors now fine id x y (view before)) : Mirrors now fine view (zoom view put x) y before := by
  obtain ⟨outcome,after,ends,allowed,runs⟩ := mirrors
  refine ⟨outcome,after,ends,allowed,fun moment => ?_⟩
  obtain ⟨state,later,rfl,ran⟩ := runs moment
  exact ⟨put state before,later,seen _ _,by simp only [zoom,ran]⟩

theorem mirrorsRaise {error : ε} (allowed : fine error) :
    Mirrors now fine view (raise error : Tx τ ε α) (raise error) before :=
  ⟨_,_,(fun moment => ⟨moment,rfl⟩),oneError allowed,fun moment => ⟨before,moment,rfl,rfl⟩⟩

theorem mirrorsPure (a : α) : Mirrors now fine view (pure a : Tx τ ε α) (pure a) before :=
  ⟨_,_,(fun moment => ⟨moment,rfl⟩),noError a,fun moment => ⟨before,moment,rfl,rfl⟩⟩

theorem mirrorsLift {value : Except ε α} (allowed : ∀ error, value = .error error → fine error) :
    Mirrors now fine view (lift value : Tx τ ε α) (lift value) before :=
  ⟨_,_,(fun moment => ⟨moment,rfl⟩),allowed,fun moment => ⟨before,moment,rfl,rfl⟩⟩

theorem mirrorsObserve : Mirrors now fine view (observe : Tx τ ε (Moment ε)) observe before :=
  ⟨_,_,(fun moment => ⟨moment + 1,rfl⟩),noError now,fun moment => ⟨before,moment + 1,rfl,rfl⟩⟩

/- What comes after starts from states in which the same is seen. -/
theorem mirrorsBind {x : Tx τ ε β} {y : Tx σ ε β} {next : β → Tx τ ε α} {seen : β → Tx σ ε α}
    (first : Mirrors now fine view x y before)
    (rest : ∀ b state, (∃ moment later, x (fun _ => now) ⟨before,moment⟩ = (.ok b,⟨state,later⟩)) →
      Ends now y (view before) (.ok b) (view state) → Mirrors now fine view (next b) (seen b) state) :
    Mirrors now fine view (x >>= next) (y >>= seen) before := by
  obtain ⟨outcome,middle,ends,allowed,runs⟩ := first
  cases outcome with
  | error error =>
    refine ⟨_,_,endsRaised ends,oneError (allowed _ rfl),fun moment => ?_⟩
    obtain ⟨state,later,same,ran⟩ := runs moment
    exact ⟨state,later,same,by rw [bindRuns,ran]⟩
  | ok b =>
    obtain ⟨state,later,here,ran⟩ := runs 0
    obtain ⟨last,after,ended,others,_⟩ := rest b state ⟨0,later,ran⟩ (here ▸ ends)
    refine ⟨last,after,endsBind ends (here ▸ ended),others,fun moment => ?_⟩
    obtain ⟨other,between,there,ran⟩ := runs moment
    obtain ⟨outcome,final,again,_,rerun⟩ := rest b other ⟨moment,between,ran⟩ (there ▸ ends)
    -- the two states show the same, so the other program goes on from both alike
    obtain ⟨rfl,rfl⟩ := endsUnique (there ▸ again : Ends now (seen b) middle _ _) (here ▸ ended)
    obtain ⟨state,later,same,done⟩ := rerun between
    exact ⟨state,later,same,by rw [bindRuns,ran]; exact done⟩

/- Past its first steps a program goes on as another does. -/
def Continues (now : Moment ε) (x : Tx σ ε α) (before : σ) (y : Tx σ ε α) (middle : σ) : Prop :=
  ∀ moment, ∃ between, x (fun _ => now) ⟨before,moment⟩ = y (fun _ => now) ⟨middle,between⟩

theorem continuesHere {x : Tx σ ε α} {before : σ} : Continues now x before x before := fun moment => ⟨moment,rfl⟩

theorem continuesBind {y : Tx σ ε β} {next : β → Tx σ ε α} {rest : Tx σ ε α} {before middle after : σ} {b}
    (first : Ends now y before (.ok b) middle) (onward : Continues now (next b) middle rest after) :
    Continues now (y >>= next) before rest after := by
  intro moment
  obtain ⟨between,ran⟩ := first moment
  obtain ⟨later,reached⟩ := onward between
  exact ⟨later,by rw [bindRuns,ran]; exact reached⟩

theorem continuesEnds {x rest : Tx σ ε α} {before middle after : σ} {outcome} (onward : Continues now x before rest middle)
    (ends : Ends now rest middle outcome after) : Ends now x before outcome after := by
  intro moment
  obtain ⟨between,reached⟩ := onward moment
  obtain ⟨later,ran⟩ := ends between
  exact ⟨later,reached.trans ran⟩

/- It is enough to compare what they go on with, from states in which the same is seen. -/
theorem mirrorsContinued {x rest : Tx τ ε α} {y last : Tx σ ε α} {middle : τ} (one : Continues now x before rest middle)
    (other : Continues now y (view before) last (view middle)) (mirrors : Mirrors now fine view rest last middle) :
    Mirrors now fine view x y before := by
  obtain ⟨outcome,after,ends,allowed,runs⟩ := mirrors
  refine ⟨outcome,after,continuesEnds other ends,allowed,fun moment => ?_⟩
  obtain ⟨between,reached⟩ := one moment
  obtain ⟨state,later,same,ran⟩ := runs between
  exact ⟨state,later,same,reached.trans ran⟩

/- Two programs on one state. -/
theorem mirrorsThen {x y : Tx σ ε β} {next seen : β → Tx σ ε α} {before : σ} (first : Mirrors now fine id x y before)
    (rest : ∀ b state, Ends now y before (.ok b) state → Mirrors now fine id (next b) (seen b) state) :
    Mirrors now fine id (x >>= next) (y >>= seen) before :=
  mirrorsBind first fun b state _ ends => rest b state ends

end

/- What a transaction answers is what its body ends in. -/

def Ending.value : Ending α → α
  | .commit value => value
  | .rollback value => value

theorem transactionEnds (quiet : now.fault = none) {body : Tx σ ε (Ending α)} {before after : σ}
    {outcome : Except ε (Ending α)} (ends : Ends now body before outcome after) :
    (transaction body (fun _ => now) before).1 = outcome.map Ending.value := by
  have begun : Ends now (hook >>= fun _ => body) before outcome after := endsBind (givesHook quiet) ends
  obtain ⟨later,ran⟩ := begun 0
  unfold transaction
  rw [ran]
  rcases outcome with error | value | value
  · rfl
  · simp only [quiet]
    rfl
  · rfl

theorem transactionRaised (quiet : now.fault = none) {body : Tx σ ε (Ending α)} {before : σ} (steady : Steady now fine body before)
    {error} (raised : (transaction body (fun _ => now) before).1 = .error error) : fine error := by
  obtain ⟨outcome,after,ends,allowed⟩ := steady
  rw [transactionEnds quiet ends] at raised
  cases outcome with
  | error other => exact allowed error (congrArg Except.error (Except.error.inj raised))
  | ok ending => cases raised

theorem mirrorsEnding (quiet : now.fault = none) {view : τ → σ} {x rest : Tx τ ε (Ending α)} {y : Tx σ ε (Ending α)}
    {before middle : τ} {outcome after} (onward : Continues now x before rest middle) (mirrors : Mirrors now fine view rest y middle)
    (ends : Ends now y (view middle) outcome after) : (transaction x (fun _ => now) before).1 = outcome.map Ending.value := by
  obtain ⟨found,_,others,_,runs⟩ := mirrors
  obtain ⟨rfl,rfl⟩ := endsUnique others ends
  have begun : ∃ state later, (hook >>= fun _ => x) (fun _ => now) ⟨before,0⟩ = (found,⟨state,later⟩) := by
    obtain ⟨between,reached⟩ := onward 1
    obtain ⟨state,later,_,ran⟩ := runs between
    exact ⟨state,later,by rw [bindRuns,hook,select,statement]; simp only [quiet]; exact reached.trans ran⟩
  obtain ⟨state,later,ran⟩ := begun
  unfold transaction
  rw [ran]
  rcases found with error | value | value
  · rfl
  · simp only [quiet]
    rfl
  · rfl

theorem mirrorsTransaction (quiet : now.fault = none) {view : τ → σ} {x : Tx τ ε (Ending α)} {y : Tx σ ε (Ending α)}
    {before : τ} (mirrors : Mirrors now fine view x y before) :
    (transaction x (fun _ => now) before).1 = (transaction y (fun _ => now) (view before)).1 := by
  obtain ⟨outcome,after,ends,_,_⟩ := id mirrors
  rw [transactionEnds quiet ends]
  exact mirrorsEnding quiet continuesHere mirrors ends

theorem playAsk {C : Type} {R : C → Type} {perform : (command : C) → Tx σ ε (R command)} (command : C) :
    (ask command : Script C R ε (R command)).play perform = perform command := by
  funext oracle session
  rcases ran : perform command oracle session with ⟨_ | reply,after⟩ <;> simp only [ask,Script.play,ran] <;> rfl

end McpMemory.Transaction
