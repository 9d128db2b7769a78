import Mathlib.Data.List.Basic
import Mathlib.Logic.Function.Basic

/-! Programs on a state that may raise, and those of them that can change places. A pass runs one
program for each value of a list; where they can change places, the order of the list makes no
difference to what is answered and to the state at the end. -/
namespace McpMemory.Commuting

variable {σ τ ε α β γ : Type}

abbrev Program (σ ε α : Type) := StateT σ (Except ε) α

def Runs (x : Program σ ε α) (before : σ) (a : α) (after : σ) : Prop := x before = .ok (a,after)

theorem runsPure {a b : α} {before after : σ} : Runs (pure a : Program σ ε α) before b after ↔ a = b ∧ before = after := by
  show Except.ok (a,before) = Except.ok (b,after) ↔ _
  simp

theorem runsBind {x : Program σ ε α} {next : α → Program σ ε β} {before after : σ} {b : β} :
    Runs (x >>= next) before b after ↔ ∃ a middle, Runs x before a middle ∧ Runs (next a) middle b after := by
  show ((x before).bind fun reply => next reply.1 reply.2) = _ ↔ _
  unfold Runs
  cases x before with
  | error error => simp [Except.bind]
  | ok reply =>
    obtain ⟨a,middle⟩ := reply
    simp [Except.bind]

theorem runsOnce {x : Program σ ε α} {before after later : σ} {a b : α} (first : Runs x before a after) (second : Runs x before b later) :
    a = b ∧ after = later := by
  cases first.symm.trans second
  exact ⟨rfl,rfl⟩

/- Either order gives the same two answers and the same state, or raises. -/
def Commutes (x : Program σ ε α) (y : Program σ ε β) : Prop := ∀ before a b after,
  (∃ middle, Runs x before a middle ∧ Runs y middle b after) ↔ ∃ middle, Runs y before b middle ∧ Runs x middle a after

theorem Commutes.symm {x : Program σ ε α} {y : Program σ ε β} (commutes : Commutes x y) : Commutes y x :=
  fun before b a after => (commutes before a b after).symm

theorem commutesPure {a : α} {y : Program σ ε β} : Commutes (pure a) y := by
  intro before c b after
  constructor
  · rintro ⟨middle,first,second⟩
    obtain ⟨rfl,rfl⟩ := (runsPure).mp first
    exact ⟨after,second,(runsPure).mpr ⟨rfl,rfl⟩⟩
  · rintro ⟨middle,first,second⟩
    obtain ⟨rfl,rfl⟩ := (runsPure).mp second
    exact ⟨before,(runsPure).mpr ⟨rfl,rfl⟩,first⟩

theorem commutesBind {x : Program σ ε α} {next : α → Program σ ε β} {y : Program σ ε γ} (first : Commutes x y)
    (rest : ∀ a, Commutes (next a) y) : Commutes (x >>= next) y := by
  intro before b c after
  constructor
  · rintro ⟨middle,ran,last⟩
    obtain ⟨a,early,begun,next⟩ := (runsBind).mp ran
    obtain ⟨later,moved,ended⟩ := (rest a early b c after).mp ⟨middle,next,last⟩
    obtain ⟨start,there,here⟩ := (first before a c later).mp ⟨early,begun,moved⟩
    exact ⟨start,there,(runsBind).mpr ⟨a,later,here,ended⟩⟩
  · rintro ⟨start,there,ran⟩
    obtain ⟨a,later,here,ended⟩ := (runsBind).mp ran
    obtain ⟨early,begun,moved⟩ := (first before a c later).mpr ⟨start,there,here⟩
    obtain ⟨middle,next,last⟩ := (rest a early b c after).mpr ⟨later,moved,ended⟩
    exact ⟨middle,(runsBind).mpr ⟨a,early,begun,next⟩,last⟩

theorem commutesBoth {x : Program σ ε α} {next : α → Program σ ε β} {y : Program σ ε γ} {then_ : γ → Program σ ε τ}
    (first : Commutes x y) (left : ∀ a, Commutes (next a) y) (right : ∀ c, Commutes x (then_ c))
    (rest : ∀ a c, Commutes (next a) (then_ c)) : Commutes (x >>= next) (y >>= then_) :=
  commutesBind (commutesBind first.symm fun c => (right c).symm).symm fun a =>
    (commutesBind (left a).symm fun c => (rest a c).symm).symm

/- What a second run finds as the first has left it. -/
theorem commutesSelf {x : Program σ ε α} (settled : ∀ before a after, Runs x before a after → Runs x after a after) : Commutes x x := by
  have half : ∀ before a b after, (∃ middle, Runs x before a middle ∧ Runs x middle b after) →
      ∃ middle, Runs x before b middle ∧ Runs x middle a after := by
    rintro before a b after ⟨middle,first,second⟩
    obtain ⟨rfl,rfl⟩ := runsOnce (settled _ _ _ first) second
    exact ⟨middle,first,second⟩
  exact fun before a b after => ⟨half before a b after,half before b a after⟩

/- What every run of a program does to the state. -/
def Moves (rel : σ → σ → Prop) (x : Program σ ε α) : Prop := ∀ before a after, Runs x before a after → rel before after

theorem movesPure {rel : σ → σ → Prop} (refl : ∀ state, rel state state) (a : α) : Moves rel (pure a : Program σ ε α) := by
  intro before b after ran
  obtain ⟨_,rfl⟩ := (runsPure).mp ran
  exact refl before

theorem movesBind {rel : σ → σ → Prop} (trans : ∀ {first middle last}, rel first middle → rel middle last → rel first last)
    {x : Program σ ε α} {next : α → Program σ ε β} (first : Moves rel x) (rest : ∀ a, Moves rel (next a)) :
    Moves rel (x >>= next) := by
  intro before b after ran
  obtain ⟨a,middle,here,there⟩ := (runsBind).mp ran
  exact trans (first _ _ _ here) (rest a _ _ _ there)

theorem runsBindCongr {x : Program σ ε α} {next other : α → Program σ ε β} {before after : σ} {b : β}
    (same : ∀ a middle, Runs x before a middle → (Runs (next a) middle b after ↔ Runs (other a) middle b after)) :
    Runs (x >>= next) before b after ↔ Runs (x >>= other) before b after := by
  rw [runsBind,runsBind]
  exact exists_congr fun a => exists_congr fun middle => and_congr_right (same a middle)

theorem runsModify {f : σ → σ} {before after : σ} {a : PUnit} :
    Runs (modify f : Program σ ε PUnit) before a after ↔ f before = after := by
  show Except.ok (PUnit.unit,f before) = Except.ok (a,after) ↔ _
  cases a
  simp

theorem runsGet {before after value : σ} : Runs (get : Program σ ε σ) before value after ↔ before = value ∧ before = after := by
  show Except.ok (before,before) = Except.ok (value,after) ↔ _
  simp

/- Programs that only change the state. -/
theorem commutesModify {f g : σ → σ} (same : ∀ before, g (f before) = f (g before)) :
    Commutes (modify f : Program σ ε PUnit) (modify g : Program σ ε PUnit) := by
  intro before a b after
  simp only [runsModify,exists_eq_left']
  rw [same]

/- A pass over a list. -/
def each (hook : α → Program σ ε β) : List α → Program σ ε (List (α × β))
  | [] => pure []
  | value::rest => do
    let answer ← hook value
    let answers ← each hook rest
    pure ((value,answer) :: answers)

theorem eachCons (hook : α → Program σ ε β) (value : α) (rest : List α) : each hook (value::rest) = (do
    let answer ← hook value
    let answers ← each hook rest
    pure ((value,answer) :: answers)) := rfl

section
variable {hook other : α → Program σ ε β} {values others : List α} {before after : σ} {answers : List (α × β)}

theorem runsNil : Runs (each hook []) before answers after ↔ [] = answers ∧ before = after := runsPure

theorem runsCons {value : α} {rest : List α} : Runs (each hook (value :: rest)) before answers after ↔
    ∃ answer middle below, Runs (hook value) before answer middle ∧ Runs (each hook rest) middle below after ∧
      (value,answer) :: below = answers := by
  rw [eachCons,runsBind]
  constructor
  · rintro ⟨answer,middle,ran,next⟩
    obtain ⟨below,last,rest,ending⟩ := (runsBind).mp next
    obtain ⟨same,rfl⟩ := (runsPure).mp ending
    exact ⟨answer,middle,below,ran,rest,same⟩
  · rintro ⟨answer,middle,below,ran,rest,same⟩
    exact ⟨answer,middle,ran,(runsBind).mpr ⟨below,after,rest,(runsPure).mpr ⟨same,rfl⟩⟩⟩

/- The answers come with the values, and the final state with both orders. -/
theorem eachPerm (perm : values.Perm others) (commutes : ∀ a ∈ values, ∀ b ∈ values, a = b ∨ Commutes (hook a) (hook b))
    (ran : Runs (each hook values) before answers after) :
    ∃ moved, Runs (each hook others) before moved after ∧ answers.Perm moved := by
  induction perm generalizing before answers with
  | nil => exact ⟨answers,ran,.refl _⟩
  | cons value perm ih =>
    obtain ⟨answer,middle,below,first,rest,rfl⟩ := (runsCons).mp ran
    obtain ⟨moved,there,same⟩ := ih (fun a first b second =>
      commutes a (List.mem_cons_of_mem _ first) b (List.mem_cons_of_mem _ second)) rest
    exact ⟨_,(runsCons).mpr ⟨answer,middle,moved,first,there,rfl⟩,same.cons _⟩
  | swap first second values =>
    obtain ⟨answer,middle,below,begun,next,rfl⟩ := (runsCons).mp ran
    obtain ⟨reply,later,last,then_,rest,rfl⟩ := (runsCons).mp next
    rcases commutes second List.mem_cons_self first (List.mem_cons_of_mem _ List.mem_cons_self) with rfl | moves
    · exact ⟨_,ran,.refl _⟩
    · obtain ⟨early,there,here⟩ := (moves before answer reply later).mp ⟨middle,begun,then_⟩
      exact ⟨_,(runsCons).mpr ⟨reply,early,_,there,(runsCons).mpr ⟨answer,later,last,here,rest,rfl⟩,rfl⟩,.swap _ _ _⟩
  | trans first second ihFirst ihSecond =>
    obtain ⟨moved,there,same⟩ := ihFirst commutes ran
    obtain ⟨last,end_,rest⟩ := ihSecond (fun a one b two => commutes a (first.mem_iff.mpr one) b (first.mem_iff.mpr two)) there
    exact ⟨last,end_,same.trans rest⟩

/- What each program keeps, the pass keeps. -/
theorem eachKeeps {inv : σ → Prop} (kept : ∀ value ∈ values, ∀ before answer after, inv before →
    Runs (hook value) before answer after → inv after) (ran : Runs (each hook values) before answers after) (start : inv before) :
    inv after := by
  induction values generalizing before answers with
  | nil =>
    obtain ⟨_,rfl⟩ := (runsNil).mp ran
    exact start
  | cons value rest ih =>
    obtain ⟨answer,middle,below,first,next,_⟩ := (runsCons).mp ran
    exact ih (fun other member => kept other (List.mem_cons_of_mem _ member)) next
      (kept value List.mem_cons_self _ _ _ start first)

/- What a program makes true of its value and its answer, and every program keeps, is true at the end. -/
theorem eachMakes {holds : α → β → σ → Prop}
    (made : ∀ value ∈ values, ∀ before answer after, Runs (hook value) before answer after → holds value answer after)
    (kept : ∀ value ∈ values, ∀ before answer after, Runs (hook value) before answer after →
      ∀ earlier reply, holds earlier reply before → holds earlier reply after)
    (ran : Runs (each hook values) before answers after) : ∀ pair ∈ answers, holds pair.1 pair.2 after := by
  induction values generalizing before answers with
  | nil =>
    obtain ⟨rfl,_⟩ := (runsNil).mp ran
    exact fun _ member => by cases member
  | cons value rest ih =>
    obtain ⟨answer,middle,below,first,next,rfl⟩ := (runsCons).mp ran
    intro pair member
    rcases List.mem_cons.mp member with rfl | member
    · exact eachKeeps (fun other there before reply later holds step =>
        kept other (List.mem_cons_of_mem _ there) before reply later step value answer holds) next
        (made value List.mem_cons_self _ _ _ first)
    · exact ih (fun other there => made other (List.mem_cons_of_mem _ there))
        (fun other there => kept other (List.mem_cons_of_mem _ there)) next pair member

/- Two passes that do the same wherever they get. -/
theorem eachSame {inv : σ → Prop} (same : ∀ value ∈ values, ∀ before answer after, inv before →
      (Runs (hook value) before answer after ↔ Runs (other value) before answer after))
    (kept : ∀ value ∈ values, ∀ before answer after, inv before → Runs (other value) before answer after → inv after)
    (start : inv before) : Runs (each hook values) before answers after ↔ Runs (each other values) before answers after := by
  induction values generalizing before answers with
  | nil => exact Iff.rfl
  | cons value rest ih =>
    rw [runsCons,runsCons]
    refine exists_congr fun answer => exists_congr fun middle => exists_congr fun below => ?_
    rw [same value List.mem_cons_self _ _ _ start]
    refine and_congr_right fun first => ?_
    rw [ih (fun other member => same other (List.mem_cons_of_mem _ member))
      (fun other member => kept other (List.mem_cons_of_mem _ member)) (kept value List.mem_cons_self _ _ _ start first)]

/- A pass over values of which the programs see a part. -/
theorem eachMap {plain : γ → Program σ ε β} {part : α → γ} (same : ∀ value, hook value = plain (part value))
    {replies : List (γ × β)} : Runs (each plain (values.map part)) before replies after ↔
      ∃ answers, Runs (each hook values) before answers after ∧ answers.map (Prod.map part id) = replies := by
  induction values generalizing before replies with
  | nil =>
    constructor
    · intro ran
      obtain ⟨rfl,rfl⟩ := (runsNil).mp ran
      exact ⟨[],(runsNil).mpr ⟨rfl,rfl⟩,rfl⟩
    · rintro ⟨answers,ran,rfl⟩
      obtain ⟨rfl,rfl⟩ := (runsNil).mp ran
      exact (runsNil).mpr ⟨rfl,rfl⟩
  | cons value rest ih =>
    rw [List.map_cons,runsCons]
    constructor
    · rintro ⟨answer,middle,below,first,next,rfl⟩
      obtain ⟨answers,there,rfl⟩ := ih.mp next
      exact ⟨_,(runsCons).mpr ⟨answer,middle,answers,same value ▸ first,there,rfl⟩,rfl⟩
    · rintro ⟨answers,ran,rfl⟩
      obtain ⟨answer,middle,below,first,next,rfl⟩ := (runsCons).mp ran
      exact ⟨answer,middle,_,same value ▸ first,ih.mpr ⟨below,next,rfl⟩,rfl⟩

theorem eachValues (ran : Runs (each hook values) before answers after) : answers.map Prod.fst = values := by
  induction values generalizing before answers with
  | nil =>
    obtain ⟨rfl,_⟩ := (runsNil).mp ran
    rfl
  | cons value rest ih =>
    obtain ⟨answer,middle,below,first,next,rfl⟩ := (runsCons).mp ran
    exact congrArg (value :: ·) (ih next)

/- Where only the states matter, the answers may be others. -/
theorem eachErased {plain : α → Program σ ε γ} (same : ∀ value ∈ values, ∀ before after,
    (∃ answer, Runs (hook value) before answer after) ↔ ∃ answer, Runs (plain value) before answer after) :
    (∃ answers, Runs (each hook values) before answers after) ↔ ∃ answers, Runs (each plain values) before answers after := by
  induction values generalizing before with
  | nil => exact ⟨fun ⟨_,ran⟩ => ⟨[],(runsNil).mpr ⟨rfl,((runsNil).mp ran).2⟩⟩,fun ⟨_,ran⟩ => ⟨[],(runsNil).mpr ⟨rfl,((runsNil).mp ran).2⟩⟩⟩
  | cons value rest ih =>
    have below : ∀ {middle}, _ := fun {middle} =>
      @ih middle fun other member => same other (List.mem_cons_of_mem _ member)
    constructor
    · rintro ⟨answers,ran⟩
      obtain ⟨answer,middle,others,first,next,_⟩ := (runsCons).mp ran
      obtain ⟨reply,first⟩ := (same value List.mem_cons_self _ _).mp ⟨answer,first⟩
      obtain ⟨replies,next⟩ := below.mp ⟨others,next⟩
      exact ⟨_,(runsCons).mpr ⟨reply,middle,replies,first,next,rfl⟩⟩
    · rintro ⟨answers,ran⟩
      obtain ⟨answer,middle,others,first,next,_⟩ := (runsCons).mp ran
      obtain ⟨reply,first⟩ := (same value List.mem_cons_self _ _).mpr ⟨answer,first⟩
      obtain ⟨replies,next⟩ := below.mpr ⟨others,next⟩
      exact ⟨_,(runsCons).mpr ⟨reply,middle,replies,first,next,rfl⟩⟩

end

/- A part of the state that can be read and written by itself. -/
structure Part (σ τ : Type) where
  get : σ → τ
  put : τ → σ → σ
  getPut : ∀ value state, get (put value state) = value
  putGet : ∀ state, put (get state) state = state
  putPut : ∀ value other state, put value (put other state) = put value state

def Part.on (part : Part σ τ) (x : Program τ ε α) : Program σ ε α := fun state =>
  (x (part.get state)).map fun reply => (reply.1,part.put reply.2 state)

structure Apart {ρ : Type} (first : Part σ τ) (second : Part σ ρ) : Prop where
  puts : ∀ value other state, first.put value (second.put other state) = second.put other (first.put value state)
  firstKept : ∀ other state, first.get (second.put other state) = first.get state
  secondKept : ∀ value state, second.get (first.put value state) = second.get state

section
variable {part : Part σ τ} {before after : σ}

theorem runsOn {x : Program τ ε α} {a : α} :
    Runs (part.on x) before a after ↔ ∃ value, Runs x (part.get before) a value ∧ part.put value before = after := by
  unfold Runs Part.on
  cases x (part.get before) with
  | error error => simp [Except.map]
  | ok reply =>
    obtain ⟨answer,value⟩ := reply
    simp only [Except.map,Except.ok.injEq,Prod.mk.injEq]
    exact ⟨fun same => ⟨value,⟨same.1,rfl⟩,same.2⟩,fun ⟨_,⟨first,second⟩,last⟩ => ⟨first,second ▸ last⟩⟩

theorem Part.onPure (part : Part σ τ) (a : α) : part.on (pure a : Program τ ε α) = pure a := by
  funext state
  show Except.ok (a,part.put (part.get state) state) = Except.ok (a,state)
  rw [part.putGet]

theorem Part.onBind (part : Part σ τ) (x : Program τ ε α) (next : α → Program τ ε β) :
    part.on (x >>= next) = part.on x >>= fun a => part.on (next a) := by
  funext state
  have first : part.on (x >>= next) state = ((x (part.get state)).bind fun reply => next reply.1 reply.2).map fun reply =>
    (reply.1,part.put reply.2 state) := rfl
  have second : (part.on x >>= fun a => part.on (next a)) state =
    ((x (part.get state)).map fun reply => (reply.1,part.put reply.2 state)).bind fun reply => part.on (next reply.1) reply.2 := rfl
  rw [first,second]
  cases x (part.get state) with
  | error error => rfl
  | ok reply =>
    obtain ⟨a,value⟩ := reply
    show (next a value).map _ = (next a (part.get (part.put value state))).map _
    rw [part.getPut]
    cases next a value with
    | error error => rfl
    | ok last => exact congrArg (fun put => Except.ok (last.1,put)) (part.putPut _ _ _).symm

theorem commutesOn {x : Program τ ε α} {y : Program τ ε β} (commutes : Commutes x y) : Commutes (part.on x) (part.on y) := by
  have half : ∀ {γ δ : Type} {x : Program τ ε γ} {y : Program τ ε δ}, Commutes x y → ∀ before a b after,
      (∃ middle, Runs (part.on x) before a middle ∧ Runs (part.on y) middle b after) →
        ∃ middle, Runs (part.on y) before b middle ∧ Runs (part.on x) middle a after := by
    rintro γ δ x y commutes before a b after ⟨middle,first,second⟩
    obtain ⟨value,here,rfl⟩ := (runsOn).mp first
    obtain ⟨last,there,rfl⟩ := (runsOn).mp second
    rw [part.getPut] at there
    obtain ⟨between,moved,ended⟩ := (commutes _ a b last).mp ⟨value,here,there⟩
    refine ⟨part.put between before,(runsOn).mpr ⟨between,moved,rfl⟩,(runsOn).mpr ⟨last,?_,?_⟩⟩
    · rwa [part.getPut]
    · rw [part.putPut,part.putPut]
  exact fun before a b after => ⟨half commutes before a b after,half commutes.symm before b a after⟩

theorem commutesApart {ρ : Type} {other : Part σ ρ} (apart : Apart part other) {x : Program τ ε α} {y : Program ρ ε β} :
    Commutes (part.on x) (other.on y) := by
  intro before a b after
  constructor
  · rintro ⟨middle,first,second⟩
    obtain ⟨value,here,rfl⟩ := (runsOn).mp first
    obtain ⟨last,there,rfl⟩ := (runsOn).mp second
    rw [apart.secondKept] at there
    refine ⟨other.put last before,(runsOn).mpr ⟨last,there,rfl⟩,(runsOn).mpr ⟨value,?_,apart.puts value last before⟩⟩
    rwa [apart.firstKept]
  · rintro ⟨middle,first,second⟩
    obtain ⟨last,there,rfl⟩ := (runsOn).mp first
    obtain ⟨value,here,rfl⟩ := (runsOn).mp second
    rw [apart.firstKept] at here
    refine ⟨part.put value before,(runsOn).mpr ⟨value,here,rfl⟩,(runsOn).mpr ⟨last,?_,(apart.puts value last before).symm⟩⟩
    rwa [apart.secondKept]

end

/- What is fetched once is kept at hand. -/
section
variable {κ ν : Type} [DecidableEq κ] (fetch : κ → Except ε ν)

def kept (key : κ) : Program (κ → Option ν) ε ν := fun cache => match cache key with
  | some value => .ok (value,cache)
  | none => (fetch key).map fun value => (value,Function.update cache key (some value))

variable {fetch} {cache after : κ → Option ν} {key : κ} {value : ν}

theorem runsKept : Runs (kept fetch key) cache value after ↔
    (cache key = some value ∨ cache key = none ∧ fetch key = .ok value) ∧ Function.update cache key (some value) = after := by
  unfold Runs kept
  cases held : cache key with
  | some other =>
    constructor
    · intro ran
      cases ran
      exact ⟨.inl rfl,by rw [← held,Function.update_eq_self]⟩
    · rintro ⟨same | ⟨none,_⟩,rfl⟩
      · cases same
        have still : Function.update cache key (some value) = cache := by rw [← held,Function.update_eq_self]
        exact congrArg (fun cache => Except.ok (value,cache)) still.symm
      · cases none
  | none =>
    cases fetch key with
    | error error => simp [Except.map]
    | ok other =>
      simp only [Except.map,Except.ok.injEq,Prod.mk.injEq,true_and,reduceCtorEq,false_or]
      constructor
      · rintro ⟨rfl,rfl⟩
        exact ⟨rfl,rfl⟩
      · rintro ⟨rfl,rfl⟩
        exact ⟨rfl,rfl⟩

theorem keptCommutes (first second : κ) : Commutes (kept fetch first) (kept fetch second) := by
  have half : ∀ first second before a b after,
      (∃ middle, Runs (kept fetch first) before a middle ∧ Runs (kept fetch second) middle b after) →
        ∃ middle, Runs (kept fetch second) before b middle ∧ Runs (kept fetch first) middle a after := by
    rintro first second before a b after ⟨middle,one,two⟩
    obtain ⟨source,rfl⟩ := (runsKept).mp one
    obtain ⟨other,rfl⟩ := (runsKept).mp two
    by_cases same : first = second
    · subst same
      rw [Function.update_self] at other
      obtain rfl : a = b := by
        rcases other with held | ⟨none,_⟩
        · exact Option.some.inj held
        · cases none
      refine ⟨_,one,(runsKept).mpr ⟨.inl (Function.update_self _ _ _),rfl⟩⟩
    · have back : ¬ second = first := fun here => same here.symm
      rw [Function.update_of_ne back] at other
      refine ⟨_,(runsKept).mpr ⟨other,rfl⟩,(runsKept).mpr ⟨?_,Function.update_comm back _ _ _⟩⟩
      rwa [Function.update_of_ne same]
  exact fun before a b after => ⟨half first second before a b after,half second first before b a after⟩

end

end McpMemory.Commuting
