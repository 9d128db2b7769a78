import Mathlib.Logic.Function.Basic
import McpMemory.Lib.Table

/-! Tables with counters that triggers keep: each row that a statement inserts, updates or deletes
counts once for the lane of its table. Counters never go down, and where they stand still so do
the tables, which is what makes them good for telling that nothing has changed. -/
namespace McpMemory.Epochs
open Table

variable {κ ℓ : Type} {Row : κ → Type}

structure Counted (Row : κ → Type) (ℓ : Type) where
  rows : ∀ table, List (Row table)
  counts : ℓ → Nat

inductive Statement (Row : κ → Type) where
  | insert (table : κ) (row : Row table)
  | update (table : κ) (sel : Row table → Bool) (set : Row table → Row table)
  | delete (table : κ) (sel : Row table → Bool)

/- What holds of two states one after the other. -/
structure Since (before after : Counted Row ℓ) : Prop where
  up : ∀ lane, before.counts lane ≤ after.counts lane
  still : after.counts = before.counts → after.rows = before.rows

theorem sinceRefl (c : Counted Row ℓ) : Since c c := ⟨fun _ => Nat.le_refl _,fun _ => rfl⟩

theorem sinceTrans {first second third : Counted Row ℓ} (early : Since first second) (late : Since second third) :
    Since first third := by
  refine ⟨fun lane => Nat.le_trans (early.up lane) (late.up lane),fun same => ?_⟩
  have middle : second.counts = first.counts :=
    funext fun lane => Nat.le_antisymm (same ▸ late.up lane) (early.up lane)
  exact (late.still (same.trans middle.symm)).trans (early.still middle)

variable [DecidableEq κ] [DecidableEq ℓ] {lane : κ → ℓ}

section
variable (lane)

def touch (table : κ) (times : Nat) (rows : List (Row table)) (c : Counted Row ℓ) : Counted Row ℓ :=
  ⟨Function.update c.rows table rows,Function.update c.counts (lane table) (c.counts (lane table) + times)⟩

def execute (c : Counted Row ℓ) : Statement Row → Counted Row ℓ
  | .insert table row => touch lane table 1 (c.rows table ++ [row]) c
  | .update table sel set => touch lane table ((c.rows table).countP sel) (Table.update sel set (c.rows table)) c
  | .delete table sel => touch lane table ((c.rows table).countP sel) ((c.rows table).filter fun row => !sel row) c

end

theorem touchSince {table : κ} {times : Nat} {rows : List (Row table)} {c : Counted Row ℓ}
    (none : times = 0 → rows = c.rows table) : Since c (touch lane table times rows c) := by
  refine ⟨fun other => ?_,fun same => ?_⟩
  · by_cases here : other = lane table
    · subst here
      simp [touch]
    · simp [touch,Function.update_of_ne here]
  · have here := congrFun same (lane table)
    simp only [touch,Function.update_self] at here ⊢
    rw [none (by omega),Function.update_eq_self]

theorem executeSince {c : Counted Row ℓ} {statement : Statement Row} :
    Since c (execute lane c statement) := by
  cases statement with
  | insert table row => exact touchSince fun none => absurd none Nat.one_ne_zero
  | update table sel set =>
    refine touchSince fun none => updateNone fun row member => ?_
    simpa using List.countP_eq_zero.mp none row member
  | delete table sel =>
    refine touchSince fun none => List.filter_eq_self.mpr fun row member => ?_
    simpa using List.countP_eq_zero.mp none row member

end McpMemory.Epochs
