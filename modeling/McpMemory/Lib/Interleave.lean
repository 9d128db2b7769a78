/-! Several calls over one shared store. A call is a control state; one step of
it is atomic on the store, may move the call on and may emit events. A world is
the store, every call begun so far and the emitted events, newest first. Events
are never read back by a step, so they are history only. A call that is never
advanced again stands for a client that crashed. -/
namespace McpMemory.Interleave

structure Machine (ι κ σ ω : Type) where
  enter : ι → κ
  step : κ → σ → κ × σ × List ω

structure World (κ σ ω : Type) where
  store : σ
  calls : List κ
  trace : List ω

inductive Event (ι : Type) where
  | start (op : ι)
  | advance (index : Nat)
  deriving DecidableEq, Repr

variable {ι κ σ ω : Type} (m : Machine ι κ σ ω)

def idle (store : σ) : World κ σ ω := ⟨store,[],[]⟩

def Machine.next (w : World κ σ ω) : Event ι → World κ σ ω
  | .start op => { w with calls := w.calls ++ [m.enter op] }
  | .advance index => match w.calls[index]? with
    | none => w
    | some call =>
      let after := m.step call w.store
      ⟨after.2.1,w.calls.set index after.1,after.2.2 ++ w.trace⟩

def Machine.run (w : World κ σ ω) (events : List (Event ι)) : World κ σ ω := events.foldl m.next w

variable {m}

theorem runAppend {w : World κ σ ω} {first rest} :
    m.run w (first ++ rest) = m.run (m.run w first) rest := by
  simp [Machine.run]

theorem nextStart {w : World κ σ ω} {op} :
    m.next w (.start op) = { w with calls := w.calls ++ [m.enter op] } := rfl

theorem nextIdle {w : World κ σ ω} {index} (none : w.calls[index]? = none) :
    m.next w (.advance index) = w := by
  simp [Machine.next,none]

theorem nextAdvance {w : World κ σ ω} {index call} (found : w.calls[index]? = some call) :
    m.next w (.advance index) = ⟨(m.step call w.store).2.1,
      w.calls.set index (m.step call w.store).1,(m.step call w.store).2.2 ++ w.trace⟩ := by
  simp [Machine.next,found]

/- A property of worlds that every start and every step keeps holds of every run. -/

structure Preserved (m : Machine ι κ σ ω) (inv : World κ σ ω → Prop) : Prop where
  start : ∀ w op, inv w → inv { w with calls := w.calls ++ [m.enter op] }
  advance : ∀ w index call, w.calls[index]? = some call → inv w →
    inv ⟨(m.step call w.store).2.1,w.calls.set index (m.step call w.store).1,
      (m.step call w.store).2.2 ++ w.trace⟩

theorem nextPreserved {inv : World κ σ ω → Prop} (kept : Preserved m inv) {w event}
    (h : inv w) : inv (m.next w event) := by
  cases event with
  | start op => exact kept.start w op h
  | advance index =>
    cases found : w.calls[index]? with
    | none => rw [nextIdle found]; exact h
    | some call => rw [nextAdvance found]; exact kept.advance w index call found h

theorem runPreserved {inv : World κ σ ω → Prop} (kept : Preserved m inv) {w}
    (events : List (Event ι)) (h : inv w) : inv (m.run w events) := by
  induction events generalizing w with
  | nil => exact h
  | cons event rest ih => exact ih (nextPreserved kept h)

/- The common case: a property of the store and the history alone. -/

theorem runKeeps {inv : σ → List ω → Prop}
    (keep : ∀ call store trace, inv store trace →
      inv (m.step call store).2.1 ((m.step call store).2.2 ++ trace)) {store}
    (events : List (Event ι)) (h : inv store []) :
    inv (m.run (idle store) events).store (m.run (idle store) events).trace := by
  have kept : Preserved m fun w => inv w.store w.trace :=
    ⟨fun _ _ h => h,fun w _ call _ h => keep call w.store w.trace h⟩
  exact runPreserved kept events h

/- Runs whose every step meets a condition on the world before the step. -/

def Meets (m : Machine ι κ σ ω) (ok : World κ σ ω → Event ι → Prop) :
    World κ σ ω → List (Event ι) → Prop
  | _,[] => True
  | w,event::rest => ok w event ∧ Meets m ok (m.next w event) rest

def decideMeets {ok : World κ σ ω → Event ι → Prop} [∀ w event, Decidable (ok w event)] :
    (w : World κ σ ω) → (events : List (Event ι)) → Decidable (Meets m ok w events)
  | _,[] => .isTrue trivial
  | w,event::rest =>
    have _ : Decidable (Meets m ok (m.next w event) rest) := decideMeets _ rest
    inferInstanceAs (Decidable (ok w event ∧ Meets m ok (m.next w event) rest))

instance {ok : World κ σ ω → Event ι → Prop} [∀ w event, Decidable (ok w event)] (w events) :
    Decidable (Meets m ok w events) := decideMeets w events

theorem meetsAppend {ok : World κ σ ω → Event ι → Prop} {w first rest} :
    Meets m ok w (first ++ rest) ↔ Meets m ok w first ∧ Meets m ok (m.run w first) rest := by
  induction first generalizing w with
  | nil => simp [Meets,Machine.run]
  | cons event first ih => simp [Meets,Machine.run,ih,and_assoc]

theorem meetsTake {ok : World κ σ ω → Event ι → Prop} {w events} (meets : Meets m ok w events) (n : Nat) :
    Meets m ok w (events.take n) := by
  rw [← List.take_append_drop n events] at meets
  exact (meetsAppend.mp meets).1

theorem meetsWeaker {ok other : World κ σ ω → Event ι → Prop} (weaker : ∀ w event, ok w event → other w event) {w events}
    (meets : Meets m ok w events) : Meets m other w events := by
  induction events generalizing w with
  | nil => trivial
  | cons event rest ih => exact ⟨weaker w event meets.1,ih meets.2⟩

/- A run meets a condition where each of its steps does, in the state that the run is in by then. -/
theorem meetsAt {ok : World κ σ ω → Event ι → Prop} {w events} : Meets m ok w events ↔
    ∀ n event, events[n]? = some event → ok (m.run w (events.take n)) event := by
  induction events generalizing w with
  | nil => simp [Meets]
  | cons event rest ih =>
    simp only [Meets,ih]
    constructor
    · rintro ⟨here,later⟩ n other found
      cases n with
      | zero =>
        cases found
        exact here
      | succ n => exact later n other found
    · exact fun every => ⟨every 0 event rfl,fun n other found => every (n + 1) other found⟩

/- The world after the first `n` events and the one after the next. -/
theorem runTake {w : World κ σ ω} {events : List (Event ι)} {n event} (found : events[n]? = some event) :
    m.run w (events.take (n + 1)) = m.next (m.run w (events.take n)) event := by
  rw [List.take_add_one,found,runAppend]
  rfl

theorem runEnded {w : World κ σ ω} {events : List (Event ι)} {n} (none : events[n]? = none) :
    m.run w (events.take (n + 1)) = m.run w (events.take n) := by
  rw [List.take_add_one,none,Option.toList_none,List.append_nil]

theorem runMeets {ok : World κ σ ω → Event ι → Prop} {inv : World κ σ ω → Prop}
    (kept : ∀ w event, ok w event → inv w → inv (m.next w event)) {w events}
    (meets : Meets m ok w events) (h : inv w) : inv (m.run w events) := by
  induction events generalizing w with
  | nil => exact h
  | cons event rest ih => exact ih meets.2 (kept w event meets.1 h)

theorem meetsKept {ok good : World κ σ ω → Event ι → Prop} {inv : World κ σ ω → Prop}
    (kept : ∀ w event, ok w event → inv w → inv (m.next w event)) (gives : ∀ w event, ok w event → inv w → good w event)
    {w events} (meets : Meets m ok w events) (h : inv w) : Meets m good w events := by
  induction events generalizing w with
  | nil => trivial
  | cons event rest ih => exact ⟨gives w event meets.1 h,ih meets.2 (kept w event meets.1 h)⟩

/- One call that takes its steps while the others wait. -/

inductive Alone (m : Machine ι κ σ ω) : κ → σ → κ → σ → List ω → Prop
  | rest (call : κ) (store : σ) : Alone m call store call store []
  | step (call : κ) (store : σ) {call' store' emitted}
    (later : Alone m (m.step call store).1 (m.step call store).2.1 call' store' emitted) :
    Alone m call store call' store' (emitted ++ (m.step call store).2.2)

theorem aloneTrans {call call' call'' : κ} {store store' store'' : σ} {emitted emitted' : List ω}
    (first : Alone m call store call' store' emitted) (then_ : Alone m call' store' call'' store'' emitted') :
    Alone m call store call'' store'' (emitted' ++ emitted) := by
  induction first with
  | rest call store =>
    rw [List.append_nil]
    exact then_
  | step call store _ ih =>
    rw [← List.append_assoc]
    exact .step call store (ih then_)

/- A step that emits nothing. -/
theorem aloneQuiet {call next call' : κ} {store between store' : σ} {emitted : List ω}
    (quiet : m.step call store = (next,between,[])) (later : Alone m next between call' store' emitted) :
    Alone m call store call' store' emitted := by
  have stepped : Alone m (m.step call store).1 (m.step call store).2.1 call' store' emitted := by
    rw [quiet]
    exact later
  have all := Alone.step call store stepped
  rwa [quiet,List.append_nil] at all

theorem aloneRun {call call' : κ} {store store' : σ} {emitted : List ω} (alone : Alone m call store call' store' emitted)
    {calls : List κ} {trace : List ω} {index : Nat} (here : calls[index]? = some call) :
    ∃ n, m.run ⟨store,calls,trace⟩ (List.replicate n (.advance index)) = ⟨store',calls.set index call',emitted ++ trace⟩ := by
  induction alone generalizing calls trace with
  | rest call store =>
    refine ⟨0,?_⟩
    obtain ⟨bound,same⟩ := List.getElem?_eq_some_iff.mp here
    rw [← same,List.set_getElem_self]
    rfl
  | step call store _ ih =>
    have bound : index < calls.length := (List.getElem?_eq_some_iff.mp here).1
    obtain ⟨n,runs⟩ := @ih (calls.set index (m.step call store).1) ((m.step call store).2.2 ++ trace)
      (List.getElem?_set_self bound)
    refine ⟨n + 1,?_⟩
    have first : m.next ⟨store,calls,trace⟩ (.advance index) =
        ⟨(m.step call store).2.1,calls.set index (m.step call store).1,(m.step call store).2.2 ++ trace⟩ := nextAdvance here
    rw [List.set_set] at runs
    rw [List.replicate_succ,List.append_assoc,← runs]
    exact congrArg (fun w => m.run w _) first

def Arrives (m : Machine ι κ σ ω) (call : κ) (store : σ) (call' : κ) (store' : σ) : Prop :=
  ∃ emitted, Alone m call store call' store' emitted

theorem arrivesRest {call : κ} {store : σ} : Arrives m call store call store := ⟨[],.rest call store⟩

theorem arrivesStep {call call' : κ} {store store' : σ}
    (later : Arrives m (m.step call store).1 (m.step call store).2.1 call' store') : Arrives m call store call' store' := by
  obtain ⟨emitted,alone⟩ := later
  exact ⟨_,.step call store alone⟩

theorem arrivesTrans {call call' call'' : κ} {store store' store'' : σ} (first : Arrives m call store call' store')
    (then_ : Arrives m call' store' call'' store'') : Arrives m call store call'' store'' := by
  obtain ⟨emitted,first⟩ := first
  obtain ⟨emitted',then_⟩ := then_
  exact ⟨_,aloneTrans first then_⟩

/- What each step keeps holds wherever a call arrives. -/
theorem arrivesKeeps {kept : κ → σ → Prop} (keeps : ∀ call store, kept call store →
    kept (m.step call store).1 (m.step call store).2.1) {call call' : κ} {store store' : σ}
    (arrives : Arrives m call store call' store') (start : kept call store) : kept call' store' := by
  obtain ⟨emitted,alone⟩ := arrives
  induction alone with
  | rest => exact start
  | step call store _ ih => exact ih (keeps call store start)

/- Writes that are one step each, one after the other. -/

section
variable {α : Type} (step : α → σ → σ)

def reach (store : σ) (writes : List α) : σ := writes.foldl (fun store write => step write store) store

def Holding (ok : α → σ → Prop) : σ → List α → Prop
  | _,[] => True
  | store,write::rest => ok write store ∧ Holding ok (step write store) rest

theorem reachHolding {ok : α → σ → Prop} {inv : σ → Prop} {step : α → σ → σ}
    (kept : ∀ write store, ok write store → inv store → inv (step write store)) {store writes}
    (holding : Holding step ok store writes) (start : inv store) : inv (reach step store writes) := by
  induction writes generalizing store with
  | nil => exact start
  | cons write rest ih => exact ih holding.2 (kept write store holding.1 start)

theorem reachMembers {ok : α → Prop} {inv : σ → Prop} {step : α → σ → σ}
    (kept : ∀ write store, ok write → inv store → inv (step write store)) {store writes}
    (every : ∀ write ∈ writes, ok write) (start : inv store) : inv (reach step store writes) := by
  induction writes generalizing store with
  | nil => exact start
  | cons write rest ih =>
    have next := kept write store (every write List.mem_cons_self) start
    exact ih (fun other member => every other (List.mem_cons_of_mem _ member)) next

theorem holdingAppend {ok : α → σ → Prop} {step : α → σ → σ} {store first rest} :
    Holding step ok store (first ++ rest) ↔
      Holding step ok store first ∧ Holding step ok (reach step store first) rest := by
  induction first generalizing store with
  | nil => simp [Holding,reach]
  | cons write first ih => simp [Holding,reach,ih,and_assoc]

/- Where a condition is just what a step needs to keep a property, a run meets it just when the
property is there after every step. -/
theorem holdingExact {ok : α → σ → Prop} {inv : σ → Prop} {step : α → σ → σ}
    (exact : ∀ write store, inv store → (inv (step write store) ↔ ok write store)) {store writes} (start : inv store) :
    Holding step ok store writes ↔
      ∀ first write rest, writes = first ++ write :: rest → inv (step write (reach step store first)) := by
  induction writes generalizing store with
  | nil => simp [Holding]
  | cons write later ih =>
    constructor
    · rintro ⟨here,holding⟩ first other rest split
      have next := (exact write store start).mpr here
      cases first with
      | nil =>
        cases split
        exact next
      | cons head first =>
        cases split
        exact (ih next).mp holding first other rest rfl
    · intro every
      have next : inv (step write store) := every [] write later rfl
      refine ⟨(exact write store start).mp next,(ih next).mpr ?_⟩
      intro first other rest split
      exact every (write :: first) other rest (by rw [split]; rfl)

theorem reachAppend {step : α → σ → σ} {store first rest} :
    reach step store (first ++ rest) = reach step (reach step store first) rest := by
  simp [reach]

/- Two implementations of the same operations: every operation of a run answers and writes the same. -/

section
variable {β : Type} {f g : α → σ → β × σ}

def Parallel (f g : α → σ → β × σ) (store : σ) (operations : List α) : Prop :=
  ∀ first operation rest, operations = first ++ operation :: rest →
    f operation (reach (fun a s => (f a s).2) store first) = g operation (reach (fun a s => (g a s).2) store first)

theorem parallelCons {store operation rest} : Parallel f g store (operation :: rest) ↔
    f operation store = g operation store ∧ Parallel f g (f operation store).2 rest := by
  constructor
  · intro all
    have here : f operation store = g operation store := all [] operation rest rfl
    refine ⟨here,fun first other later split => ?_⟩
    have there := all (operation :: first) other later (by rw [split]; rfl)
    simp only [reach,List.foldl_cons] at there
    rwa [← here] at there
  · rintro ⟨here,later⟩ first other last split
    cases first with
    | nil =>
      cases split
      exact here
    | cons head first =>
      cases split
      have there := later first other last rfl
      simp only [reach,List.foldl_cons]
      rwa [← here]

/- One machine seen through a view against another: every operation answers the same and leaves
what the other one holds. -/
section
variable {τ : Type}

def Simulates (view : σ → τ) (f : α → σ → β × σ) (g : α → τ → β × τ) (store : σ) (operations : List α) : Prop :=
  ∀ first operation rest, operations = first ++ operation :: rest →
    Prod.map id view (f operation (reach (fun a s => (f a s).2) store first)) =
      g operation (reach (fun a t => (g a t).2) (view store) first)

theorem simulatesCons {view : σ → τ} {f : α → σ → β × σ} {g : α → τ → β × τ} {store operation rest}
    (here : Prod.map id view (f operation store) = g operation (view store))
    (later : Simulates view f g (f operation store).2 rest) : Simulates view f g store (operation :: rest) := by
  have same : (g operation (view store)).2 = view (f operation store).2 := (congrArg Prod.snd here).symm
  intro first other last split
  cases first with
  | nil =>
    cases split
    exact here
  | cons head first =>
    cases split
    have there := later first other last rfl
    simp only [reach,List.foldl_cons] at there ⊢
    rw [same]
    exact there

/- A condition under which one operation agrees is one under which a run does. -/
theorem simulatesHolding {view : σ → τ} {f : α → σ → β × σ} {g : α → τ → β × τ} {ok : α → σ → Prop} {inv : σ → Prop}
    (agrees : ∀ a s, inv s → ok a s → Prod.map id view (f a s) = g a (view s) ∧ inv (f a s).2) {store operations}
    (start : inv store) (holding : Holding (fun a s => (f a s).2) ok store operations) :
    Simulates view f g store operations := by
  induction operations generalizing store with
  | nil =>
    intro first operation rest split
    simp at split
  | cons operation rest ih =>
    obtain ⟨same,kept⟩ := agrees operation store start holding.1
    exact simulatesCons same (ih kept holding.2)

end

/- A condition that is exact for one operation is exact for a run. -/
theorem parallelExact {ok : α → σ → Prop} {inv : σ → Prop} (kept : ∀ a s, inv s → inv (f a s).2)
    (exact : ∀ a s, inv s → (f a s = g a s ↔ ok a s)) {store operations} (start : inv store) :
    Parallel f g store operations ↔ Holding (fun a s => (f a s).2) ok store operations := by
  induction operations generalizing store with
  | nil => simp [Parallel,Holding]
  | cons operation rest ih =>
    rw [parallelCons,exact operation store start,ih (kept operation store start)]
    rfl

end

end

end McpMemory.Interleave
