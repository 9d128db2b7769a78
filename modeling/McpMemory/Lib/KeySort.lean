import Mathlib.Data.List.Nodup
import Mathlib.Data.List.Sort
import McpMemory.Lib.Table

/-! Lists sorted by a key. Where the keys are distinct the order of the input makes no difference,
and the place of a value is the number of values with a smaller key. -/
namespace McpMemory.KeySort

variable {α κ : Type} [LinearOrder κ] {key : α → κ} {values others : List α}

def sortBy (key : α → κ) (values : List α) : List α := values.insertionSort fun a b => key a ≤ key b

theorem sortByPerm : (sortBy key values).Perm values := List.perm_insertionSort _ _

theorem sortByOrdered : (sortBy key values).Pairwise fun a b => key a ≤ key b := by
  have total : Std.Total fun a b : α => key a ≤ key b := ⟨fun a b => le_total (key a) (key b)⟩
  have transitive : IsTrans α fun a b : α => key a ≤ key b := ⟨fun _ _ _ => le_trans⟩
  exact List.pairwise_insertionSort _ _

theorem sortByStrict (distinct : (values.map key).Nodup) : (sortBy key values).Pairwise fun a b => key a < key b := by
  have keyed : ((sortBy key values).map key).Nodup := (sortByPerm.map key).nodup_iff.mpr distinct
  have apart : (sortBy key values).Pairwise fun a b => key a ≠ key b := List.pairwise_map.mp keyed
  exact (sortByOrdered.and apart).imp fun both => lt_of_le_of_ne both.1 both.2

theorem sortBySame (distinct : (values.map key).Nodup) (perm : values.Perm others) : sortBy key values = sortBy key others := by
  refine List.Perm.eq_of_pairwise (fun a b first second le ge => ?_) sortByOrdered sortByOrdered
    (sortByPerm.trans (perm.trans sortByPerm.symm))
  refine List.inj_on_of_nodup_map distinct (sortByPerm.mem_iff.mp first) ?_ (le_antisymm le ge)
  exact perm.mem_iff.mpr (sortByPerm.mem_iff.mp second)

theorem place (sorted : values.Pairwise fun a b => key a < key b) {value : α} (member : value ∈ values) {wanted : α → Bool}
    (here : wanted value = true) (only : ∀ other ∈ values, wanted other = true → other = value) :
    values.findIdx wanted = values.countP fun other => key other < key value := by
  induction values with
  | nil => cases member
  | cons first rest ih =>
    obtain ⟨before,sorted⟩ := List.pairwise_cons.mp sorted
    rw [List.findIdx_cons,List.countP_cons]
    cases found : wanted first with
    | true =>
      have same := only first List.mem_cons_self found
      subst same
      have none : rest.countP (fun other => key other < key first) = 0 := by
        exact List.countP_eq_zero.mpr fun other later less => lt_asymm (before other later) (of_decide_eq_true less)
      rw [none,if_neg (by simp)]
      rfl
    | false =>
      have later : value ∈ rest := (List.mem_cons.mp member).resolve_left fun same => by
        rw [← same,here] at found
        cases found
      rw [ih sorted later fun other there => only other (List.mem_cons_of_mem _ there),if_pos (decide_eq_true (before value later))]
      rfl

/- The first of the sorted values are those with few below them. -/
theorem memTake (sorted : values.Pairwise fun a b => key a < key b) {value : α} {n : Nat} :
    value ∈ values.take n ↔ value ∈ values ∧ (values.countP fun other => key other < key value) < n := by
  have strict : values.Pairwise fun a b => decide (key a < key b) = true ∧ decide (key b < key a) = false :=
    sorted.imp fun {a b} less => ⟨decide_eq_true less,decide_eq_false (lt_asymm less)⟩
  have before := fun member : value ∈ values => @Table.takeBefore α (fun a b => decide (key a < key b)) values value n
    (decide_eq_false (lt_irrefl (key value))) strict member
  constructor
  · intro taken
    have member := List.mem_of_mem_take taken
    exact ⟨member,(before member).mp taken⟩
  · rintro ⟨member,few⟩
    exact (before member).mpr few

end McpMemory.KeySort
