import McpMemory.Lib.Transaction

/-! Programs that only read, with the answer or the error that they end in, and programs that
raise; all where nothing fails around them. -/
namespace McpMemory.Transaction

variable {σ ε α β : Type} {before : σ} {error : ε}

def Answers (x : Tx σ ε α) (before : σ) (value : Except ε α) : Prop :=
  ∀ oracle moment, Quiet oracle → ∃ later, x oracle ⟨before,moment⟩ = (value,⟨before,later⟩)

def Raises (x : Tx σ ε α) (before : σ) (error : ε) : Prop :=
  ∀ oracle moment, Quiet oracle → ∃ after, x oracle ⟨before,moment⟩ = (.error error,after)

theorem answersLift (value : Except ε α) : Answers (lift value : Tx σ ε α) before value :=
  fun _ moment _ => ⟨moment,rfl⟩

theorem answersPure (a : α) : Answers (pure a : Tx σ ε α) before (.ok a) := fun _ moment _ => ⟨moment,rfl⟩

theorem answersRaise : Answers (raise error : Tx σ ε α) before (.error error) := fun _ moment _ => ⟨moment,rfl⟩

theorem answersStatement {effect : σ → Except ε (α × σ)} {a : α} (taken : effect before = .ok (a,before)) :
    Answers (statement effect) before (.ok a) :=
  fun oracle moment quiet => ⟨moment + 1,by simp [statement,quiet moment,taken]⟩

theorem answersBind {x : Tx σ ε β} {next : β → Tx σ ε α} {value : Except ε β} {rest : β → Except ε α}
    (first : Answers x before value) (later : ∀ b, value = .ok b → Answers (next b) before (rest b)) :
    Answers (x >>= next) before (value >>= rest) := by
  intro oracle moment quiet
  obtain ⟨middle,ran⟩ := first oracle moment quiet
  cases value with
  | error error => exact ⟨middle,by rw [bindRuns,ran]; rfl⟩
  | ok b =>
    obtain ⟨last,done⟩ := later b rfl oracle middle quiet
    exact ⟨last,by rw [bindRuns,ran]; exact done⟩

/- Checks in turn, up to the first that fails. -/
def allPass (check : β → Except ε Unit) : List β → Except ε Unit
  | [] => .ok ()
  | item::rest => match check item with
    | .ok () => allPass check rest
    | .error error => .error error

section
variable {check : β → Except ε Unit}

attribute [local simp] allPass

theorem allPassOne (item : β) : allPass check [item] = check item := by
  unfold allPass
  cases check item <;> rfl

theorem allPassAppend (first last : List β) :
    allPass check (first ++ last) = allPass check first >>= fun _ => allPass check last := by
  induction first with
  | nil => rfl
  | cons item rest ih =>
    rw [List.cons_append,allPass,allPass,ih]
    cases check item <;> rfl

theorem allPassFlat {γ : Type} (items : List γ) (parts : γ → List β) :
    allPass check (items.flatMap parts) = allPass (fun item => allPass check (parts item)) items := by
  induction items with
  | nil => rfl
  | cons item rest ih =>
    rw [List.flatMap_cons,allPassAppend,ih,allPass]
    cases allPass check (parts item) <;> rfl

theorem allPassOk {items : List β} : allPass check items = .ok () ↔ ∀ item ∈ items, check item = .ok () := by
  induction items with
  | nil => simp [allPass]
  | cons item rest ih =>
    rw [allPass,List.forall_mem_cons,← ih]
    cases check item <;> simp

theorem allPassError {items : List β} {error : ε} : allPass check items = .error error ↔
    ∃ first item last, items = first ++ item::last ∧ (∀ other ∈ first, check other = .ok ()) ∧ check item = .error error := by
  constructor
  · intro failed
    induction items with
    | nil => cases failed
    | cons item rest ih =>
      rw [allPass] at failed
      cases here : check item with
      | error other =>
        rw [here] at failed
        cases failed
        exact ⟨[],item,rest,rfl,fun _ member => absurd member List.not_mem_nil,here⟩
      | ok =>
        rw [here] at failed
        obtain ⟨first,bad,last,same,fine,found⟩ := ih failed
        refine ⟨item::first,bad,last,congrArg (item :: ·) same,List.forall_mem_cons.mpr ⟨here,fine⟩,found⟩
  · rintro ⟨first,item,last,rfl,fine,found⟩
    rw [allPassAppend,(allPassOk).mpr fine,allPass,found]
    rfl

theorem answersEach {action : β → Tx σ ε Unit} {items : List β}
    (one : ∀ item ∈ items, Answers (action item) before (check item)) :
    Answers (each action items) before (allPass check items) := by
  induction items with
  | nil => exact answersPure ()
  | cons item rest ih =>
    have first := one item List.mem_cons_self
    have later := ih fun other member => one other (List.mem_cons_of_mem _ member)
    have both := @answersBind _ _ _ _ _ _ _ _ (fun _ => allPass check rest) first fun _ _ => later
    unfold allPass
    cases here : check item <;> rw [here] at both <;> exact both

end

theorem answersReturns {x : Tx σ ε α} {a : α} (answers : Answers x before (.ok a)) :
    Returns x before fun b after => b = a ∧ after = before := by
  intro oracle moment quiet
  obtain ⟨later,ran⟩ := answers oracle moment quiet
  exact ⟨a,_,ran,rfl,rfl⟩

theorem answersRaises {x : Tx σ ε α} (answers : Answers x before (.error error)) : Raises x before error := by
  intro oracle moment quiet
  obtain ⟨later,ran⟩ := answers oracle moment quiet
  exact ⟨_,ran⟩

theorem raisesFirst {x : Tx σ ε β} {next : β → Tx σ ε α} (first : Raises x before error) :
    Raises (x >>= next) before error := by
  intro oracle moment quiet
  obtain ⟨after,ran⟩ := first oracle moment quiet
  exact ⟨after,by rw [bindRuns,ran]⟩

theorem raisesAfter {mid : β → σ → Prop} {x : Tx σ ε β} {next : β → Tx σ ε α} (first : Returns x before mid)
    (rest : ∀ b middle, mid b middle → Raises (next b) middle error) : Raises (x >>= next) before error := by
  intro oracle moment quiet
  obtain ⟨b,⟨middle,between⟩,ran,reached⟩ := first oracle moment quiet
  obtain ⟨after,raised⟩ := rest b middle reached oracle between quiet
  exact ⟨after,by rw [bindRuns,ran]; exact raised⟩

theorem transactionRaises {body : Tx σ ε (Ending α)} {oracle : Oracle ε} (quiet : Quiet oracle)
    (raises : Raises body before error) : transaction body oracle before = (.error error,before) := by
  have begun : Raises (hook >>= fun _ => body) before error :=
    @raisesAfter _ _ _ _ _ _ (fun _ middle => middle = before) _ _ (returnsSelect _ rfl) fun _ _ same => same ▸ raises
  obtain ⟨after,ran⟩ := begun oracle 0 quiet
  unfold transaction
  rw [ran]

end McpMemory.Transaction
