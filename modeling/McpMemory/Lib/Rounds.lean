import Mathlib.Data.List.Basic
import Mathlib.Logic.Function.Iterate

/-! A queue that is worked off in rounds. A round looks at the first `n` and takes out those of
them that are ready, so that whoever has `n` before it that never become ready stays for good. -/
namespace McpMemory.Rounds

variable {α : Type} (ready : α → Bool)

def round (n : Nat) (queue : List α) : List α := (queue.take n).filter (!ready ·) ++ queue.drop n

/- What is left of a queue in the end. -/
def left : Nat → List α → List α
  | 0,queue => queue
  | _ + 1,[] => []
  | n + 1,a::rest => if ready a then left (n + 1) rest else a :: left n rest

variable {ready} {n : Nat} {queue : List α}

theorem leftNil : left ready n [] = [] := by
  cases n <;> rfl

theorem leftSublist : (left ready n queue).Sublist queue := by
  induction queue generalizing n with
  | nil => rw [leftNil]
  | cons a rest ih =>
    cases n with
    | zero => exact List.Sublist.refl _
    | succ n =>
      rw [left]
      split
      · exact ih.trans (List.sublist_cons_self a rest)
      · exact ih.cons_cons a

/- To take out those that are ready among the first does not change what is left in the end. -/
theorem leftShorter {m : Nat} (within : m ≤ n) :
    left ready n ((queue.take m).filter (!ready ·) ++ queue.drop m) = left ready n queue := by
  induction queue generalizing m n with
  | nil => simp
  | cons a rest ih =>
    cases m with
    | zero => rfl
    | succ m =>
      obtain ⟨n,rfl⟩ : ∃ more, n = more + 1 := ⟨n - 1,by omega⟩
      rw [List.take_succ_cons,List.drop_succ_cons,List.filter_cons]
      cases here : ready a with
      | true =>
        have rest := @ih (n + 1) m (by omega)
        simpa [left,here] using rest
      | false =>
        have rest := @ih n m (by omega)
        simpa [left,here] using rest

theorem leftRound : left ready n (round ready n queue) = left ready n queue := leftShorter (Nat.le_refl n)

theorem leftStill (none : ∀ a ∈ queue.take n, ready a = false) : left ready n queue = queue := by
  induction queue generalizing n with
  | nil => exact leftNil
  | cons a rest ih =>
    cases n with
    | zero => rfl
    | succ n =>
      rw [List.take_succ_cons] at none
      have here := none a List.mem_cons_self
      rw [left,here,if_neg Bool.false_ne_true,ih fun b member => none b (List.mem_cons_of_mem _ member)]

theorem roundShorter {a : α} (member : a ∈ queue.take n) (here : ready a = true) :
    (round ready n queue).length < queue.length := by
  unfold round
  have fewer : ((queue.take n).filter (!ready ·)).length < (queue.take n).length :=
    List.length_filter_lt_length_iff_exists.mpr ⟨a,member,by simp [here]⟩
  rw [List.length_append]
  have whole := congrArg List.length (List.take_append_drop n queue)
  rw [List.length_append] at whole
  omega

/- The rounds come to an end with what is left. -/
theorem roundsReach (queue : List α) : ∃ count, (round ready n)^[count] queue = left ready n queue ∧
    ∀ a ∈ (left ready n queue).take n, ready a = false := by
  induction size : queue.length using Nat.strongRecOn generalizing queue with
  | _ length ih =>
    by_cases none : ∀ a ∈ queue.take n, ready a = false
    · rw [leftStill none]
      exact ⟨0,rfl,none⟩
    · simp only [not_forall] at none
      obtain ⟨a,member,here⟩ := none
      obtain ⟨count,reached,still⟩ := ih _ (size ▸ roundShorter member (eq_true_of_ne_false here)) (round ready n queue) rfl
      rw [leftRound] at reached still
      exact ⟨count + 1,reached,still⟩

/- In a queue that is in order one is left that is not ready or has `n` before it that are not. -/
theorem memLeft {before : α → α → Bool} (sorted : queue.Pairwise fun a b => before a b = true ∧ before b a = false)
    (self : ∀ a, before a a = false) {a : α} (member : a ∈ queue) :
    a ∈ left ready n queue ↔ ready a = false ∨ n ≤ queue.countP fun b => !ready b && before b a := by
  induction queue generalizing n with
  | nil => cases member
  | cons first rest ih =>
    obtain ⟨ahead,sorted⟩ := List.pairwise_cons.mp sorted
    cases n with
    | zero => exact iff_of_true member (.inr (Nat.zero_le _))
    | succ n =>
      rw [List.countP_cons]
      rcases List.mem_cons.mp member with rfl | member
      · have behind : rest.countP (fun b => !ready b && before b a) = 0 := List.countP_eq_zero.mpr fun b there => by
          simp [(ahead b there).2]
        have apart : ∀ m, a ∉ left ready m rest := fun m there => by
          have pair := (ahead a (leftSublist.subset there)).1
          rw [self a] at pair
          cases pair
        rw [behind,self a,left]
        cases here : ready a <;> simp [apart]
      · have pair := (ahead a member).1
        have apart : a ≠ first := by
          rintro rfl
          rw [self a] at pair
          cases pair
        rw [left,pair]
        cases here : ready first with
        | true => simpa [here] using @ih (n + 1) sorted member
        | false => simpa [here,apart] using @ih n sorted member

end McpMemory.Rounds
