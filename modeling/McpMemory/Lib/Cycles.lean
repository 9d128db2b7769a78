import Mathlib.Order.WellFoundedSet

/-! Relations without a cycle. Adding an edge closes a cycle only where a path leads back, and
where finitely many have a predecessor every walk backwards ends. -/
namespace McpMemory.Cycles
open Relation

variable {α : Type*} {r s : α → α → Prop}

def Acyclic (r : α → α → Prop) : Prop := ∀ a, ¬ TransGen r a a

variable {source target : α}

/- A path with the new edge goes to its source and on from its target. -/
theorem pathThrough (within : ∀ a b, s a b → r a b ∨ a = source ∧ b = target)
    (apart : ¬ ReflTransGen r target source) {a b} (path : TransGen s a b) :
    TransGen r a b ∨ ReflTransGen r a source ∧ ReflTransGen r target b := by
  induction path with
  | single edge =>
    rcases within _ _ edge with old | ⟨rfl,rfl⟩
    · exact .inl (.single old)
    · exact .inr ⟨.refl,.refl⟩
  | tail path edge ih =>
    rcases within _ _ edge with old | ⟨rfl,rfl⟩
    · exact ih.imp (·.tail old) fun ⟨first,last⟩ => ⟨first,last.tail old⟩
    · rcases ih with first | ⟨_,back⟩
      · exact .inr ⟨first.to_reflTransGen,.refl⟩
      · exact absurd back apart

theorem acyclicAdd (within : ∀ a b, s a b → r a b ∨ a = source ∧ b = target)
    (apart : ¬ ReflTransGen r target source) (acyclic : Acyclic r) : Acyclic s := fun a cycle => by
  rcases pathThrough within apart cycle with old | ⟨first,last⟩
  · exact acyclic a old
  · exact apart (last.trans first)

theorem acyclicEnds (finite : {b | ∃ a, r a b}.Finite) (acyclic : Acyclic r) : WellFounded r := by
  have transitive : IsTrans α (TransGen r) := ⟨fun _ _ _ => TransGen.trans⟩
  have irreflexive : Std.Irrefl (TransGen r) := ⟨acyclic⟩
  have strict : IsStrictOrder α (TransGen r) := {}
  have first : ∀ b, (¬ ∃ a, r a b) → Acc r b := fun b none => ⟨_,fun a edge => absurd ⟨a,edge⟩ none⟩
  refine ⟨fun b => ?_⟩
  by_cases some : ∃ a, r a b
  · refine (Set.Finite.wellFoundedOn (r := TransGen r) finite).induction some fun b _ ih => ⟨_,fun a edge => ?_⟩
    by_cases more : ∃ c, r c a
    · exact ih a more (.single edge)
    · exact first a more
  · exact first b some

/- Some walk backwards ends in what has no predecessor. -/
theorem rooted (ends : WellFounded r) (b : α) : ∃ top, ReflTransGen r top b ∧ ∀ a, ¬ r a top := by
  induction b using ends.induction with
  | h b ih =>
    by_cases some : ∃ a, r a b
    · obtain ⟨a,edge⟩ := some
      obtain ⟨top,path,last⟩ := ih a edge
      exact ⟨top,path.tail edge,last⟩
    · exact ⟨b,.refl,fun a edge => some ⟨a,edge⟩⟩

end McpMemory.Cycles
