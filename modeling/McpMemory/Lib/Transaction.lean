/-! Programs against a database connection. A program reads an oracle for what the
outside world gives it at each step: a failure of the statement, a fresh identifier,
the time. An exception keeps what the statements before it wrote, since a caller may
catch it; only the end of the transaction decides what the database keeps. -/
namespace McpMemory.Transaction

structure Moment (ε : Type) where
  fault : Option ε
  uuid : String
  text : String
  time : Int

abbrev Oracle (ε : Type) := Nat → Moment ε

structure Session (σ : Type) where
  data : σ
  moment : Nat

def Tx (σ ε α : Type) := Oracle ε → Session σ → Except ε α × Session σ

variable {σ ε α β γ : Type}

instance : Monad (Tx σ ε) where
  pure a := fun _ session => (.ok a,session)
  bind x next := fun oracle session => match x oracle session with
    | (.ok a,after) => next a oracle after
    | (.error error,after) => (.error error,after)

def raise (error : ε) : Tx σ ε α := fun _ session => (.error error,session)

def lift (value : Except ε α) : Tx σ ε α := fun _ session => (value,session)

/- What the outside world gives now; it is asked again later only at a later moment. -/
def observe : Tx σ ε (Moment ε) := fun oracle session =>
  (.ok (oracle session.moment),{ session with moment := session.moment + 1 })

/- One statement. It fails as a whole or takes effect as a whole. -/
def statement (effect : σ → Except ε (α × σ)) : Tx σ ε α := fun oracle session =>
  let later := session.moment + 1
  match (oracle session.moment).fault with
  | some error => (.error error,{ session with moment := later })
  | none => match effect session.data with
    | .error error => (.error error,{ session with moment := later })
    | .ok (a,data) => (.ok a,⟨data,later⟩)

def select (query : σ → α) : Tx σ ε α := statement fun data => .ok (query data,data)

def write (effect : σ → σ) : Tx σ ε Unit := statement fun data => .ok ((),effect data)

/- What the program holds outside the database can be read at any time. -/
def inspect (query : σ → α) : Tx σ ε α := fun _ session => (.ok (query session.data),session)

/- A change of what the program holds outside the database; no statement, so it cannot fail. -/
def adjust (effect : σ → σ) : Tx σ ε Unit := fun _ session =>
  (.ok (),{ session with data := effect session.data })

/- A step that may only fail, such as a hook that a test installs. -/
def hook : Tx σ ε Unit := select fun _ => ()

def each (action : β → Tx σ ε Unit) : List β → Tx σ ε Unit
  | [] => pure ()
  | item::rest => do
    action item
    each action rest

/- How a body that raised nothing leaves its transaction. -/
inductive Ending (α : Type) where
  | commit (value : α)
  | rollback (value : α)

/- BEGIN, the body, then COMMIT or ROLLBACK; every exception rolls back, one that
COMMIT itself raises included. -/
def transaction (body : Tx σ ε (Ending α)) (oracle : Oracle ε) (data : σ) : Except ε α × σ :=
  match (hook >>= fun _ => body) oracle ⟨data,0⟩ with
  | (.ok (.commit value),session) => match (oracle session.moment).fault with
    | none => (.ok value,session.data)
    | some error => (.error error,data)
  | (.ok (.rollback value),_) => (.ok value,data)
  | (.error error,_) => (.error error,data)

/- A transaction in the middle of a program: when it raises, or its COMMIT does, what it wrote
is gone. -/
def atomically (x : Tx σ ε α) : Tx σ ε α := fun oracle session => match x oracle session with
  | (.error error,after) => (.error error,{ after with data := session.data })
  | (.ok a,after) => match (oracle after.moment).fault with
    | none => (.ok a,{ after with moment := after.moment + 1 })
    | some error => (.error error,⟨session.data,after.moment + 1⟩)

/- A program on a part of the state. -/
def zoom {τ : Type} (get : σ → τ) (put : τ → σ → σ) (x : Tx τ ε α) : Tx σ ε α := fun oracle session =>
  let reply := x oracle ⟨get session.data,session.moment⟩
  (reply.1,⟨put reply.2.data session.data,reply.2.moment⟩)

/- Checks that run before any transaction. -/

theorem checkedOk {x : Except ε α} {next : α → Except ε β} {b} :
    (x >>= next) = .ok b ↔ ∃ a, x = .ok a ∧ next a = .ok b := by
  cases x <;> simp [bind,Except.bind]

theorem checkedError {x : Except ε α} {next : α → Except ε β} {error} :
    (x >>= next) = .error error ↔ x = .error error ∨ ∃ a, x = .ok a ∧ next a = .error error := by
  cases x <;> simp [bind,Except.bind]

theorem mappedOk {x : Except ε α} {f : α → β} {b} :
    x.map f = .ok b ↔ ∃ a, x = .ok a ∧ f a = b := by
  cases x <;> simp [Except.map]

theorem bindRuns (x : Tx σ ε α) (next : α → Tx σ ε β) (oracle session) :
    (x >>= next) oracle session = match x oracle session with
      | (.ok a,after) => next a oracle after
      | (.error error,after) => (.error error,after) := rfl

theorem bindAssoc (x : Tx σ ε α) (next : α → Tx σ ε β) (last : β → Tx σ ε γ) :
    x >>= next >>= last = x >>= fun a => next a >>= last := by
  funext oracle session
  simp only [bindRuns]
  rcases x oracle session with ⟨error | a,after⟩ <;> rfl

theorem bindPure (x : Tx σ ε α) : (x >>= fun a => pure a) = x := by
  funext oracle session
  rw [bindRuns]
  rcases x oracle session with ⟨error | a,after⟩ <;> rfl

theorem eachAppend (action : β → Tx σ ε Unit) (first rest : List β) :
    each action (first ++ rest) = each action first >>= fun _ => each action rest := by
  induction first with
  | nil => rfl
  | cons item first ih =>
    rw [List.cons_append,each,ih,each,bindAssoc]

theorem bindOk {x : Tx σ ε α} {next : α → Tx σ ε β} {oracle session b after} :
    (x >>= next) oracle session = (.ok b,after) ↔
      ∃ a middle, x oracle session = (.ok a,middle) ∧ next a oracle middle = (.ok b,after) := by
  rw [bindRuns]
  rcases x oracle session with ⟨_ | a,middle⟩
  · simp
  · constructor
    · exact fun run => ⟨a,middle,rfl,run⟩
    · rintro ⟨_,_,same,run⟩; cases same; exact run

theorem pureOk {a b : α} {oracle : Oracle ε} {session after : Session σ} :
    (pure a : Tx σ ε α) oracle session = (.ok b,after) ↔ a = b ∧ session = after := by
  show (Except.ok a,session) = _ ↔ _
  simp

theorem raiseOk {error : ε} {b : α} {oracle} {session after : Session σ} :
    ¬ raise error oracle session = (.ok b,after) := by simp [raise]

theorem liftOk {value : Except ε α} {b oracle} {session after : Session σ} :
    lift value oracle session = (.ok b,after) ↔ value = .ok b ∧ session = after := by
  simp [lift]

theorem observeOk {oracle : Oracle ε} {session after : Session σ} {now} :
    observe oracle session = (.ok now,after) ↔
      oracle session.moment = now ∧ ⟨session.data,session.moment + 1⟩ = after := by
  simp [observe]

theorem statementOk {effect : σ → Except ε (α × σ)} {oracle session a after} :
    statement effect oracle session = (.ok a,after) →
      effect session.data = .ok (a,after.data) := by
  unfold statement
  dsimp only
  split
  · simp
  · split
    · simp
    · rename_i taken; rintro run; cases run; exact taken

/- A statement that fails changes nothing. -/
theorem statementError {effect : σ → Except ε (α × σ)} {oracle session error after}
    (run : statement effect oracle session = (.error error,after)) : after.data = session.data := by
  unfold statement at run
  dsimp only at run
  split at run
  · cases run
    rfl
  · split at run <;> cases run
    rfl

theorem selectOk {query : σ → α} {oracle : Oracle ε} {session a after}
    (run : select query oracle session = (.ok a,after)) :
    query session.data = a ∧ session.data = after.data := by
  have taken := statementOk run
  simpa using taken

theorem writeOk {effect : σ → σ} {oracle : Oracle ε} {session after}
    (run : write effect oracle session = (.ok (),after)) : effect session.data = after.data := by
  have taken := statementOk run
  simpa using taken

theorem inspectOk {query : σ → α} {oracle : Oracle ε} {session after a} :
    inspect query oracle session = (.ok a,after) ↔ query session.data = a ∧ session = after := by
  simp [inspect]

/- A program ensures a property of its answer, and from any state with the invariant it
ends in one with the invariant, whether it raises or not. -/
def Ensures (inv : σ → Prop) (x : Tx σ ε α) (post : α → Prop) : Prop :=
  ∀ oracle session, inv session.data →
    inv (x oracle session).2.data ∧ ∀ a, (x oracle session).1 = .ok a → post a

section
variable {inv : σ → Prop} {post : α → Prop}

theorem Ensures.kept {x : Tx σ ε α} (ensured : Ensures inv x post) {oracle session a after}
    (run : x oracle session = (.ok a,after)) (start : inv session.data) : inv after.data ∧ post a := by
  have ending := ensured oracle session start
  rw [run] at ending
  exact ⟨ending.1,ending.2 a rfl⟩

theorem ensuresPure {a : α} (holds : post a) : Ensures inv (pure a : Tx σ ε α) post :=
  fun _ _ start => ⟨start,fun _ same => by cases same; exact holds⟩

theorem ensuresRaise (error : ε) : Ensures inv (raise error : Tx σ ε α) post :=
  fun _ _ start => ⟨start,fun _ same => by cases same⟩

theorem ensuresLift (value : Except ε α) : Ensures inv (lift value : Tx σ ε α) fun _ => True :=
  fun _ _ start => ⟨start,fun _ _ => trivial⟩

theorem ensuresGiven (value : Except ε α) : Ensures inv (lift value : Tx σ ε α) (value = .ok ·) :=
  fun _ _ start => ⟨start,fun _ same => same⟩

theorem ensuresObserve : Ensures inv (observe : Tx σ ε (Moment ε)) fun _ => True :=
  fun _ _ start => ⟨start,fun _ _ => trivial⟩

theorem ensuresInspect {query : σ → α} (holds : ∀ data, inv data → post (query data)) :
    Ensures inv (inspect query : Tx σ ε α) post :=
  fun _ session start => ⟨start,fun _ same => by cases same; exact holds session.data start⟩

theorem ensuresAdjust {effect : σ → σ} (kept : ∀ data, inv data → inv (effect data)) :
    Ensures inv (adjust effect : Tx σ ε Unit) fun _ => True :=
  fun _ session start => ⟨kept session.data start,fun _ _ => trivial⟩

theorem ensuresBind {mid : β → Prop} {x : Tx σ ε β} {next : β → Tx σ ε α} (first : Ensures inv x mid)
    (rest : ∀ b, mid b → Ensures inv (next b) post) : Ensures inv (x >>= next) post := by
  intro oracle session start
  have here := first oracle session start
  rw [bindRuns]
  generalize x oracle session = reply at here ⊢
  obtain ⟨_ | b,middle⟩ := reply
  · exact ⟨here.1,fun _ same => by cases same⟩
  · exact rest b (here.2 b rfl) oracle middle here.1

theorem ensuresMono {mid : α → Prop} {x : Tx σ ε α} (ensured : Ensures inv x mid) (more : ∀ a, mid a → post a) :
    Ensures inv x post :=
  fun oracle session start => ⟨(ensured oracle session start).1,fun a same => more a ((ensured oracle session start).2 a same)⟩

theorem ensuresStatement {effect : σ → Except ε (α × σ)}
    (kept : ∀ data a after, inv data → effect data = .ok (a,after) → inv after ∧ post a) :
    Ensures inv (statement effect) post := by
  intro oracle session start
  unfold statement
  dsimp only
  split
  · exact ⟨start,fun _ same => by cases same⟩
  · split
    · exact ⟨start,fun _ same => by cases same⟩
    · rename_i taken
      have ending := kept _ _ _ start taken
      exact ⟨ending.1,fun _ same => by cases same; exact ending.2⟩

theorem atomicallyOk {x : Tx σ ε α} {oracle session a after} (ran : atomically x oracle session = (.ok a,after)) :
    ∃ middle, x oracle session = (.ok a,middle) ∧ after.data = middle.data := by
  unfold atomically at ran
  cases inner : x oracle session with
  | mk answer middle =>
    rw [inner] at ran
    cases answer with
    | error error => cases ran
    | ok value =>
      dsimp only at ran
      split at ran
      · cases ran
        exact ⟨middle,rfl,rfl⟩
      · cases ran

theorem atomicallyError {x : Tx σ ε α} {oracle session error after}
    (ran : atomically x oracle session = (.error error,after)) : after.data = session.data := by
  unfold atomically at ran
  split at ran
  · cases ran
    rfl
  · split at ran <;> cases ran
    rfl

/- A transaction inside needs its invariant only where it ends. -/
theorem ensuresCommitted {x : Tx σ ε α} (kept : ∀ oracle session a after, x oracle session = (.ok a,after) →
    inv session.data → inv after.data) : Ensures inv (atomically x) fun _ => True := by
  intro oracle session start
  have here := kept oracle session
  unfold atomically
  generalize x oracle session = reply at here ⊢
  obtain ⟨_ | a,after⟩ := reply
  · exact ⟨start,fun _ _ => trivial⟩
  · dsimp only
    split
    · exact ⟨here a after rfl start,fun _ _ => trivial⟩
    · exact ⟨start,fun _ _ => trivial⟩

theorem ensuresSelect (query : σ → α) : Ensures inv (select query : Tx σ ε α) fun _ => True :=
  ensuresStatement fun data _ _ start taken => by cases taken; exact ⟨start,trivial⟩

theorem ensuresWrite {effect : σ → σ} (kept : ∀ data, inv data → inv (effect data)) :
    Ensures inv (write effect : Tx σ ε Unit) fun _ => True :=
  ensuresStatement fun data _ _ start taken => by cases taken; exact ⟨kept data start,trivial⟩

theorem ensuresEach {action : β → Tx σ ε Unit} {items : List β}
    (kept : ∀ item ∈ items, Ensures inv (action item) fun _ => True) :
    Ensures inv (each action items) fun _ => True := by
  induction items with
  | nil => exact ensuresPure trivial
  | cons item rest ih =>
    exact ensuresBind (kept item List.mem_cons_self) fun _ _ =>
      ih fun other member => kept other (List.mem_cons_of_mem _ member)

end

/- From a state with the first property a program ends in one with the second, whether it raises
or not. -/
def Leads (start finish : σ → Prop) (x : Tx σ ε α) : Prop :=
  ∀ oracle session, start session.data → finish (x oracle session).2.data

section
variable {start finish : σ → Prop}

theorem leadsEnsures {x : Tx σ ε α} (ensured : Ensures finish x fun _ => True) (kept : ∀ data, start data → finish data) :
    Leads start finish x := fun oracle session holds => (ensured oracle session (kept _ holds)).1

theorem leadsFrom {middle : σ → Prop} {x : Tx σ ε α} (weaker : ∀ data, start data → middle data)
    (leads : Leads middle finish x) : Leads start finish x := fun oracle session holds => leads oracle session (weaker _ holds)

theorem leadsRaise (error : ε) (kept : ∀ data, start data → finish data) :
    Leads start finish (raise error : Tx σ ε α) := fun _ _ holds => kept _ holds

theorem leadsPure (a : α) (kept : ∀ data, start data → finish data) :
    Leads start finish (pure a : Tx σ ε α) := fun _ _ holds => kept _ holds

theorem leadsStatement {effect : σ → Except ε (α × σ)} (kept : ∀ data, start data → finish data)
    (changed : ∀ data a after, start data → effect data = .ok (a,after) → finish after) :
    Leads start finish (statement effect) := by
  intro oracle session holds
  unfold statement
  dsimp only
  split
  · exact kept _ holds
  · split
    · exact kept _ holds
    · exact changed _ _ _ holds ‹_›

/- Up to the point where the change is made. -/
theorem leadsBind {mid : β → Prop} {x : Tx σ ε β} {next : β → Tx σ ε α} (first : Ensures start x mid)
    (kept : ∀ data, start data → finish data) (rest : ∀ b, mid b → Leads start finish (next b)) :
    Leads start finish (x >>= next) := by
  intro oracle session holds
  have here := first oracle session holds
  rw [bindRuns]
  generalize x oracle session = reply at here ⊢
  obtain ⟨_ | b,middle⟩ := reply
  · exact kept _ here.1
  · exact rest b (here.2 b rfl) oracle middle here.1

/- And after it. -/
theorem leadsThen {x : Tx σ ε β} {next : β → Tx σ ε α} (first : Leads start finish x)
    (rest : ∀ b, Ensures finish (next b) fun _ => True) : Leads start finish (x >>= next) := by
  intro oracle session holds
  have here := first oracle session holds
  rw [bindRuns]
  generalize x oracle session = reply at here ⊢
  obtain ⟨_ | b,middle⟩ := reply
  · exact here
  · exact (rest b oracle middle here).1

/- A transaction inside leads on when it ends. -/
theorem leadsAtomically {x : Tx σ ε α} (kept : ∀ data, start data → finish data)
    (ends : ∀ oracle session a after, x oracle session = (.ok a,after) → start session.data → finish after.data) :
    Leads start finish (atomically x) := by
  intro oracle session holds
  have here := ends oracle session
  unfold atomically
  generalize x oracle session = reply at here ⊢
  obtain ⟨_ | a,after⟩ := reply
  · exact kept _ holds
  · dsimp only
    split
    · exact here a after rfl holds
    · exact kept _ holds

theorem Leads.ends {x : Tx σ ε α} (leads : Leads start finish x) {oracle session a after}
    (run : x oracle session = (.ok a,after)) (holds : start session.data) : finish after.data := by
  have here := leads oracle session holds
  rwa [run] at here

end

/- Frames: what a program leaves alone, whether it raises or not. -/

def Keeps (view : σ → γ) (x : Tx σ ε α) : Prop :=
  ∀ oracle session, view (x oracle session).2.data = view session.data

section
variable {view : σ → γ}

theorem keepsIff {x : Tx σ ε α} : Keeps view x ↔ ∀ value, Ensures (view · = value) x fun _ => True :=
  ⟨fun kept _ oracle session start => ⟨(kept oracle session).trans start,fun _ _ => trivial⟩,
    fun ensured oracle session => (ensured _ oracle session rfl).1⟩

theorem Keeps.ok {x : Tx σ ε α} (kept : Keeps view x) {oracle session a after}
    (run : x oracle session = (.ok a,after)) : view after.data = view session.data := by
  have same := kept oracle session
  rwa [run] at same

theorem keepsPure (a : α) : Keeps view (pure a : Tx σ ε α) := fun _ _ => rfl

theorem keepsRaise (error : ε) : Keeps view (raise error : Tx σ ε α) := fun _ _ => rfl

theorem keepsLift (value : Except ε α) : Keeps view (lift value : Tx σ ε α) := fun _ _ => rfl

theorem keepsObserve : Keeps view (observe : Tx σ ε (Moment ε)) := fun _ _ => rfl

theorem keepsBind {x : Tx σ ε α} {next : α → Tx σ ε β} (first : Keeps view x)
    (rest : ∀ a, Keeps view (next a)) : Keeps view (x >>= next) :=
  (keepsIff).mpr fun value => ensuresBind ((keepsIff).mp first value) fun a _ => (keepsIff).mp (rest a) value

/- What the rest keeps is decided by the first part. -/
theorem keepsAfter {x : Tx σ ε α} {next : α → Tx σ ε β} (rest : ∀ a, Keeps view (next a)) {oracle session} :
    view ((x >>= next) oracle session).2.data = view (x oracle session).2.data := by
  rw [bindRuns]
  rcases x oracle session with ⟨error | a,after⟩
  · rfl
  · exact rest a oracle after

theorem keepsStatement {effect : σ → Except ε (α × σ)}
    (same : ∀ data a after, effect data = .ok (a,after) → view after = view data) :
    Keeps view (statement effect) :=
  (keepsIff).mpr fun _ => ensuresStatement fun data a after start taken =>
    ⟨(same data a after taken).trans start,trivial⟩

theorem keepsSelect (query : σ → α) : Keeps view (select query : Tx σ ε α) :=
  keepsStatement fun data a after taken => by cases taken; rfl

theorem keepsHook : Keeps view (hook : Tx σ ε Unit) := keepsSelect _

theorem keepsWrite {effect : σ → σ} (same : ∀ data, view (effect data) = view data) :
    Keeps view (write effect : Tx σ ε Unit) :=
  keepsStatement fun data a after taken => by cases taken; exact same data

theorem keepsInspect (query : σ → α) : Keeps view (inspect query : Tx σ ε α) := fun _ _ => rfl

theorem keepsAdjust {effect : σ → σ} (same : ∀ data, view (effect data) = view data) :
    Keeps view (adjust effect : Tx σ ε Unit) := fun _ session => same session.data

theorem keepsEach {action : β → Tx σ ε Unit} {items : List β}
    (kept : ∀ item ∈ items, Keeps view (action item)) : Keeps view (each action items) :=
  (keepsIff).mpr fun value => ensuresEach fun item member => (keepsIff).mp (kept item member) value

end

/- What a program gives when nothing fails around it and one moment lasts. -/

def Gives (now : Moment ε) (x : Tx σ ε α) (before : σ) (a : α) (after : σ) : Prop :=
  ∀ moment, ∃ later, x (fun _ => now) ⟨before,moment⟩ = (.ok a,⟨after,later⟩)

section
variable {now : Moment ε} {before middle after : σ} {a : α} {b : β}

theorem givesPure : Gives now (pure a : Tx σ ε α) before a before := fun moment => ⟨moment,rfl⟩

theorem givesLift {value : Except ε α} (given : value = .ok a) :
    Gives now (lift value : Tx σ ε α) before a before := fun moment => ⟨moment,by rw [given]; rfl⟩

theorem givesObserve : Gives now (observe : Tx σ ε (Moment ε)) before now before :=
  fun moment => ⟨moment + 1,rfl⟩

theorem givesInspect (query : σ → α) : Gives now (inspect query : Tx σ ε α) before (query before) before :=
  fun moment => ⟨moment,rfl⟩

theorem givesAdjust (effect : σ → σ) : Gives now (adjust effect : Tx σ ε Unit) before () (effect before) :=
  fun moment => ⟨moment,rfl⟩

theorem givesBind {x : Tx σ ε β} {next : β → Tx σ ε α} (first : Gives now x before b middle)
    (rest : Gives now (next b) middle a after) : Gives now (x >>= next) before a after := by
  intro moment
  obtain ⟨between,here⟩ := first moment
  obtain ⟨later,there⟩ := rest between
  exact ⟨later,(bindOk).mpr ⟨b,_,here,there⟩⟩

theorem givesEach {action : β → Tx σ ε Unit} {item items} (first : Gives now (action item) before () middle)
    (rest : Gives now (each action items) middle () after) : Gives now (each action (item::items)) before () after :=
  givesBind first rest

theorem givesOne {action : β → Tx σ ε Unit} {item} (only : Gives now (action item) before () after) :
    Gives now (each action [item]) before () after := givesEach only givesPure

variable (quiet : now.fault = none)
include quiet

theorem givesStatement {effect : σ → Except ε (α × σ)} (taken : effect before = .ok (a,after)) :
    Gives now (statement effect) before a after := fun moment => ⟨moment + 1,by simp [statement,quiet,taken]⟩

theorem givesSelect (query : σ → α) : Gives now (select query : Tx σ ε α) before (query before) before :=
  givesStatement quiet rfl

theorem givesHook : Gives now (hook : Tx σ ε Unit) before () before := givesSelect quiet _

theorem givesTransaction {body : Tx σ ε (Ending α)} (run : Gives now body before (.commit a) after) :
    transaction body (fun _ => now) before = (.ok a,after) := by
  have whole : Gives now (hook >>= fun _ => body) before (.commit a) after := givesBind (givesHook quiet) run
  obtain ⟨later,ran⟩ := whole 0
  unfold transaction
  rw [ran]
  simp only [quiet]

end

/- Where nothing fails around it, whatever the clock says, a program answers and leaves a state
as described. -/

def Quiet (oracle : Oracle ε) : Prop := ∀ moment, (oracle moment).fault = none

theorem quietStatement {oracle : Oracle ε} (quiet : Quiet oracle) (effect : σ → Except ε (α × σ)) (session : Session σ) :
    statement effect oracle session = match effect session.data with
      | .error error => (.error error,⟨session.data,session.moment + 1⟩)
      | .ok (a,data) => (.ok a,⟨data,session.moment + 1⟩) := by
  rw [statement,quiet]

def Returns (x : Tx σ ε α) (before : σ) (post : α → σ → Prop) : Prop :=
  ∀ oracle moment, Quiet oracle → ∃ a after, x oracle ⟨before,moment⟩ = (.ok a,after) ∧ post a after.data

section
variable {before middle : σ} {post : α → σ → Prop}

theorem returnsPure {a : α} (holds : post a before) : Returns (pure a : Tx σ ε α) before post :=
  fun _ moment _ => ⟨a,⟨before,moment⟩,rfl,holds⟩

theorem returnsLift {value : Except ε α} {a} (given : value = .ok a) (holds : post a before) :
    Returns (lift value : Tx σ ε α) before post :=
  fun _ moment _ => ⟨a,⟨before,moment⟩,by rw [given]; rfl,holds⟩

theorem returnsObserve : Returns (observe : Tx σ ε (Moment ε)) before fun _ after => after = before :=
  fun oracle moment _ => ⟨oracle moment,⟨before,moment + 1⟩,rfl,rfl⟩

theorem returnsStatement {effect : σ → Except ε (α × σ)} {a after} (taken : effect before = .ok (a,after))
    (holds : post a after) : Returns (statement effect) before post :=
  fun oracle moment quiet => ⟨a,⟨after,moment + 1⟩,by simp [statement,quiet moment,taken],holds⟩

theorem returnsSelect (query : σ → α) (holds : post (query before) before) :
    Returns (select query : Tx σ ε α) before post := returnsStatement rfl holds

theorem returnsBind {mid : β → σ → Prop} {x : Tx σ ε β} {next : β → Tx σ ε α} (first : Returns x before mid)
    (rest : ∀ b middle, mid b middle → Returns (next b) middle post) : Returns (x >>= next) before post := by
  intro oracle moment quiet
  obtain ⟨b,⟨middle,between⟩,here,reached⟩ := first oracle moment quiet
  obtain ⟨a,after,there,holds⟩ := rest b middle reached oracle between quiet
  exact ⟨a,after,(bindOk).mpr ⟨b,⟨middle,between⟩,here,there⟩,holds⟩

theorem returnsTransaction {body : Tx σ ε (Ending α)} {oracle : Oracle ε} (quiet : Quiet oracle)
    (returns : Returns body before fun ending _ => ∃ a, ending = .commit a ∨ ending = .rollback a) :
    ∃ a after, transaction body oracle before = (.ok a,after) := by
  have begun : Returns (hook >>= fun _ => body) before fun ending _ => ∃ a, ending = .commit a ∨ ending = .rollback a :=
    @returnsBind _ _ _ _ _ _ (fun _ middle => middle = before) _ _ (returnsSelect _ rfl) fun _ _ same => same ▸ returns
  obtain ⟨ending,after,ran,a,ended⟩ := begun oracle 0 quiet
  refine ⟨a,?_⟩
  unfold transaction
  rw [ran]
  rcases ended with rfl | rfl
  · exact ⟨after.data,by simp only [quiet after.moment]⟩
  · exact ⟨before,rfl⟩

end

/- The end of a transaction. -/

theorem transactionError {body : Tx σ ε (Ending α)} {oracle data error after}
    (run : transaction body oracle data = (.error error,after)) : after = data := by
  unfold transaction at run
  split at run
  · split at run <;> cases run
    rfl
  · cases run
  · cases run; rfl

theorem transactionOk {body : Tx σ ε (Ending α)} {oracle data value after}
    (run : transaction body oracle data = (.ok value,after)) :
    (∃ begun session, begun.data = data ∧ body oracle begun = (.ok (.commit value),session) ∧
      after = session.data) ∨
    (∃ begun session, begun.data = data ∧ body oracle begun = (.ok (.rollback value),session)) ∧
      after = data := by
  unfold transaction at run
  split at run
  · rename_i taken
    obtain ⟨_,begun,start,taken⟩ := (bindOk).mp taken
    split at run <;> cases run
    exact .inl ⟨begun,_,(selectOk start).2.symm,taken,rfl⟩
  · rename_i taken
    obtain ⟨_,begun,start,taken⟩ := (bindOk).mp taken
    cases run
    exact .inr ⟨⟨begun,_,(selectOk start).2.symm,taken⟩,rfl⟩
  · cases run

/- Callbacks. A script issues commands and decides what to do next from each reply or
exception; it reaches the database through its commands only. -/

inductive Script (C : Type) (R : C → Type) (ε α : Type) where
  | done (value : α)
  | fail (error : ε)
  | call (command : C) (next : Except ε (R command) → Script C R ε α)

section
variable {C : Type} {R : C → Type}

def Script.play (perform : (command : C) → Tx σ ε (R command)) : Script C R ε α → Tx σ ε α
  | .done value => pure value
  | .fail error => raise error
  | .call command next => fun oracle session =>
    let reply := perform command oracle session
    (next reply.1).play perform oracle reply.2

def Script.bind : Script C R ε α → (α → Script C R ε β) → Script C R ε β
  | .done value,next => next value
  | .fail error,_ => .fail error
  | .call command rest,next => .call command fun reply => (rest reply).bind next

instance : Monad (Script C R ε) where
  pure := .done
  bind := .bind

/- An exception of the command passes through. -/
def ask (command : C) : Script C R ε (R command) := .call command fun
  | .ok reply => .done reply
  | .error error => .fail error

def check (value : Except ε α) : Script C R ε α :=
  match value with
  | .ok a => .done a
  | .error error => .fail error

variable {perform : (command : C) → Tx σ ε (R command)}

theorem ensuresPlay {inv : σ → Prop} (kept : ∀ command, Ensures inv (perform command) fun _ => True)
    (script : Script C R ε α) : Ensures inv (script.play perform) fun _ => True := by
  intro oracle session start
  refine ⟨?_,fun _ _ => trivial⟩
  induction script generalizing session with
  | done value => exact start
  | fail error => exact start
  | call command next ih => exact ih _ _ (kept command oracle session start).1

theorem keepsPlay {view : σ → γ} (kept : ∀ command, Keeps view (perform command))
    (script : Script C R ε α) : Keeps view (script.play perform) :=
  (keepsIff).mpr fun value => ensuresPlay (fun command => (keepsIff).mp (kept command) value) script

/- It never returns. -/
def Script.Fails : Script C R ε α → Prop
  | .done _ => False
  | .fail _ => True
  | .call _ next => ∀ reply, (next reply).Fails

/- Every command up to its return is allowed; any other is followed by an exception. -/
def Script.Within (allowed : C → Prop) : Script C R ε α → Prop
  | .done _ => True
  | .fail _ => True
  | .call command next => allowed command ∧ (∀ reply, (next reply).Within allowed) ∨
      ∀ reply, (next reply).Fails

theorem failsPlay {script : Script C R ε α} (fails : script.Fails) {oracle session a after} :
    ¬ script.play perform oracle session = (.ok a,after) := by
  induction script generalizing session with
  | done value => exact fails.elim
  | fail error => exact raiseOk
  | call command next ih => exact ih _ (fails _)

theorem withinPlay {inv : σ → Prop} {allowed : C → Prop}
    (kept : ∀ command, allowed command → Ensures inv (perform command) fun _ => True)
    {script : Script C R ε α} (within : script.Within allowed) {oracle session a after}
    (run : script.play perform oracle session = (.ok a,after)) (start : inv session.data) :
    inv after.data := by
  induction script generalizing session with
  | done value => cases run; exact start
  | fail error => exact absurd run raiseOk
  | call command next ih =>
    rcases within with ⟨fine,rest⟩ | fails
    · exact ih _ (rest _) run (kept command fine oracle session start).1
    · exact absurd run (failsPlay (fails _))

/- Each command that a play issues meets a condition on the state in which it is issued. -/
def Script.Meets (perform : (command : C) → Tx σ ε (R command)) (ok : C → σ → Prop) (oracle : Oracle ε) :
    Script C R ε α → Session σ → Prop
  | .done _,_ => True
  | .fail _,_ => True
  | .call command next,session => ok command session.data ∧
    (next (perform command oracle session).1).Meets perform ok oracle (perform command oracle session).2

theorem meetsPlay {inv : σ → Prop} {ok : C → σ → Prop} {oracle : Oracle ε}
    (kept : ∀ command session, ok command session.data → inv session.data →
      inv (perform command oracle session).2.data) {script : Script C R ε α} {session}
    (meets : script.Meets perform ok oracle session) (start : inv session.data) :
    inv (script.play perform oracle session).2.data := by
  induction script generalizing session with
  | done value => exact start
  | fail error => exact start
  | call command next ih => exact ih _ meets.2 (kept command session meets.1 start)

/- Where a command of a play raises, it changed nothing that matters or no answer follows. -/
def Script.Recovers (perform : (command : C) → Tx σ ε (R command)) (view : σ → γ) (oracle : Oracle ε) :
    Script C R ε α → Session σ → Prop
  | .done _,_ => True
  | .fail _,_ => True
  | .call command next,session =>
    let reply := perform command oracle session
    (∀ error, reply.1 = .error error → view reply.2.data = view session.data ∨ (next (.error error)).Fails) ∧
      (next reply.1).Recovers perform view oracle reply.2

/- What the commands that return keep, the answer of such a play keeps. -/
theorem recoversPlay {view : σ → γ} {inv : γ → Prop} {oracle : Oracle ε}
    (kept : ∀ command session reply after, perform command oracle session = (.ok reply,after) →
      inv (view session.data) → inv (view after.data)) {script : Script C R ε α} {session a after}
    (recovers : script.Recovers perform view oracle session) (run : script.play perform oracle session = (.ok a,after))
    (start : inv (view session.data)) : inv (view after.data) := by
  induction script generalizing session with
  | done value => cases run; exact start
  | fail error => exact absurd run raiseOk
  | call command next ih =>
    obtain ⟨raised,rest⟩ := recovers
    refine ih _ rest run ?_
    rcases ran : perform command oracle session with ⟨error | reply,middle⟩
    · rcases raised error (by rw [ran]) with same | fails
      · rw [ran] at same
        exact same ▸ start
      · have ended : ¬ (next (.error error)).play perform oracle middle = (.ok a,after) := failsPlay fails
        simp only [Script.play,ran] at run
        exact absurd run ended
    · exact kept command session reply middle ran start

/- What every answer satisfies, whatever the replies were. -/
def Script.Always (post : α → Prop) : Script C R ε α → Prop
  | .done value => post value
  | .fail _ => True
  | .call _ next => ∀ reply, (next reply).Always post

theorem alwaysPlay {post : α → Prop} {script : Script C R ε α} (always : script.Always post) {oracle session a after}
    (run : script.play perform oracle session = (.ok a,after)) : post a := by
  induction script generalizing session with
  | done value =>
    cases run
    exact always
  | fail error => exact absurd run raiseOk
  | call command next ih => exact ih _ (always _) run

theorem alwaysBind {mid : β → Prop} {post : α → Prop} {script : Script C R ε β} {next : β → Script C R ε α}
    (first : script.Always mid) (rest : ∀ b, mid b → (next b).Always post) : (script >>= next).Always post := by
  show (script.bind next).Always post
  induction script with
  | done value => exact rest value first
  | fail error => trivial
  | call command more ih => exact fun reply => ih reply (first reply)

theorem alwaysAsk (command : C) : (ask command : Script C R ε (R command)).Always fun _ => True :=
  fun reply => by cases reply <;> trivial

theorem alwaysCheck (value : Except ε α) : (check value : Script C R ε α).Always fun _ => True := by
  cases value <;> trivial

theorem withinBind {allowed : C → Prop} {script : Script C R ε α} {next : α → Script C R ε β}
    (first : script.Within allowed) (rest : ∀ a, (next a).Within allowed) :
    (script >>= next).Within allowed := by
  have fails : ∀ script : Script C R ε α, script.Fails → (script.bind next).Fails := by
    intro script
    induction script with
    | done value => exact False.elim
    | fail error => exact id
    | call command more ih => exact fun fails reply => ih reply (fails reply)
  show (script.bind next).Within allowed
  induction script with
  | done value => exact rest value
  | fail error => trivial
  | call command more ih =>
    rcases first with ⟨fine,within⟩ | failing
    · exact .inl ⟨fine,fun reply => ih reply (within reply)⟩
    · exact .inr fun reply => fails (more reply) (failing reply)

theorem withinAsk {allowed : C → Prop} {command : C} (fine : allowed command) :
    (ask command : Script C R ε (R command)).Within allowed :=
  .inl ⟨fine,fun reply => by cases reply <;> trivial⟩

theorem withinCheck {allowed : C → Prop} (value : Except ε α) :
    (check value : Script C R ε α).Within allowed := by cases value <;> trivial

/- After an exception of a command no answer comes. -/
def Script.Propagates : Script C R ε α → Prop
  | .done _ => True
  | .fail _ => True
  | .call _ next => (∀ error, (next (.error error)).Fails) ∧ ∀ reply, (next reply).Propagates

theorem failsPropagates {script : Script C R ε α} (fails : script.Fails) : script.Propagates := by
  induction script with
  | done value => trivial
  | fail error => trivial
  | call command next ih => exact ⟨fun error => fails (.error error),fun reply => ih reply (fails reply)⟩

theorem failsBind {script : Script C R ε α} {next : α → Script C R ε β} (fails : script.Fails) :
    (script.bind next).Fails := by
  induction script with
  | done value => exact fails.elim
  | fail error => trivial
  | call command more ih => exact fun reply => ih reply (fails reply)

theorem propagatesBind {script : Script C R ε α} {next : α → Script C R ε β} (first : script.Propagates)
    (rest : ∀ a, (next a).Propagates) : (script >>= next).Propagates := by
  show (script.bind next).Propagates
  induction script with
  | done value => exact rest value
  | fail error => trivial
  | call command more ih => exact ⟨fun error => failsBind (first.1 error),fun reply => ih reply (first.2 reply)⟩

theorem propagatesAsk (command : C) : (ask command : Script C R ε (R command)).Propagates :=
  ⟨fun _ => trivial,fun reply => by cases reply <;> trivial⟩

theorem propagatesCheck (value : Except ε α) : (check value : Script C R ε α).Propagates := by
  cases value <;> trivial

theorem propagatesRecovers {view : σ → γ} {oracle : Oracle ε} {script : Script C R ε α} {session : Session σ}
    (propagates : script.Propagates) : script.Recovers perform view oracle session := by
  induction script generalizing session with
  | done value => trivial
  | fail error => trivial
  | call command next ih => exact ⟨fun error _ => .inr (propagates.1 error),ih _ (propagates.2 _)⟩

theorem playBind (script : Script C R ε α) (next : α → Script C R ε β) :
    (script >>= next).play perform = script.play perform >>= fun a => (next a).play perform := by
  show (script.bind next).play perform = _
  induction script with
  | done value => rfl
  | fail error => rfl
  | call command more ih =>
    funext oracle session
    exact congrFun (congrFun (ih (perform command oracle session).1) oracle) (perform command oracle session).2

section
variable {now : Moment ε} {before middle after : σ} {a : α} {b : β}

theorem givesThen {script : Script C R ε β} {next : β → Script C R ε α}
    (first : Gives now (script.play perform) before b middle)
    (rest : Gives now ((next b).play perform) middle a after) :
    Gives now ((script >>= next).play perform) before a after := by
  rw [playBind]
  exact givesBind first rest

theorem givesDone : Gives now ((pure a : Script C R ε α).play perform) before a before := givesPure

theorem givesCheck {value : Except ε α} (given : value = .ok a) :
    Gives now ((check value : Script C R ε α).play perform) before a before := by
  rw [given]
  exact givesPure

theorem givesAsk {command : C} {reply : R command} (performed : Gives now (perform command) before reply after) :
    Gives now ((ask command : Script C R ε (R command)).play perform) before reply after := by
  intro moment
  obtain ⟨later,ran⟩ := performed moment
  refine ⟨later,?_⟩
  show Script.play perform (match (perform command (fun _ => now) ⟨before,moment⟩).1 with
    | .ok reply => Script.done reply
    | .error error => .fail error) _ (perform command (fun _ => now) ⟨before,moment⟩).2 = _
  rw [ran]
  rfl

end

end

end McpMemory.Transaction
