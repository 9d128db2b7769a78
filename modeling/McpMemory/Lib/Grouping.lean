import Mathlib.Data.List.Nodup
import Mathlib.Data.List.Sort
import Mathlib.Order.Defs.LinearOrder

/-! Greedy grouping. Seeds come in turn; each that still remains picks a group out of what
remains. And the places of a stable sort: who is among the first few. -/
namespace McpMemory.Grouping

variable {α β : Type} [DecidableEq α]

def without (remaining picked : List α) : List α := remaining.filter fun a => a ∉ picked

/- The turns in which a group is picked: the seed, and what remains then. -/
def turns (pick : α → List α → List α) : List α → List α → List (α × List α)
  | [],_ => []
  | seed::seeds,remaining =>
    if seed ∈ remaining then (seed,remaining)::turns pick seeds (without remaining (pick seed remaining))
    else turns pick seeds remaining

def collect (pick : α → List α → List α) (seeds remaining : List α) : List (List α) :=
  (turns pick seeds remaining).map fun turn => pick turn.1 turn.2

/- A seed that remains picks some of what remains, none twice. -/
structure Picks (pick : α → List α → List α) : Prop where
  within : ∀ {seed remaining a}, seed ∈ remaining → a ∈ pick seed remaining → a ∈ remaining
  once : ∀ {seed remaining}, seed ∈ remaining → remaining.Nodup → (pick seed remaining).Nodup

variable {pick : α → List α → List α}

theorem withoutNodup {remaining : List α} (distinct : remaining.Nodup) (picked : List α) :
    (without remaining picked).Nodup := distinct.filter _

theorem memWithout {remaining picked : List α} {a : α} :
    a ∈ without remaining picked ↔ a ∈ remaining ∧ a ∉ picked := by simp [without]

theorem turnsWithin (seeds remaining : List α) {turn : α × List α} (member : turn ∈ turns pick seeds remaining) :
    turn.1 ∈ turn.2 ∧ ∀ a ∈ turn.2, a ∈ remaining := by
  induction seeds generalizing remaining with
  | nil => cases member
  | cons seed seeds ih =>
    unfold turns at member
    split at member
    · rename_i there
      rcases List.mem_cons.mp member with rfl | later
      · exact ⟨there,fun _ inside => inside⟩
      · obtain ⟨own,below⟩ := ih _ later
        exact ⟨own,fun a inside => ((memWithout).mp (below a inside)).1⟩
    · exact ih _ member

theorem turnsNodup {seeds remaining : List α} (distinct : remaining.Nodup) {turn : α × List α}
    (member : turn ∈ turns pick seeds remaining) : turn.2.Nodup := by
  induction seeds generalizing remaining with
  | nil => cases member
  | cons seed seeds ih =>
    unfold turns at member
    split at member
    · rcases List.mem_cons.mp member with rfl | later
      · exact distinct
      · exact ih (withoutNodup distinct _) later
    · exact ih distinct member

theorem collectWithin (picks : Picks pick) {seeds remaining : List α} {a : α}
    (grouped : a ∈ (collect pick seeds remaining).flatten) : a ∈ remaining := by
  obtain ⟨group,member,inside⟩ := List.mem_flatten.mp grouped
  obtain ⟨turn,turned,rfl⟩ := List.mem_map.mp member
  obtain ⟨own,below⟩ := turnsWithin seeds remaining turned
  exact below a (picks.within own inside)

theorem collectNodup (picks : Picks pick) {seeds remaining : List α} (distinct : remaining.Nodup) :
    (collect pick seeds remaining).flatten.Nodup := by
  induction seeds generalizing remaining with
  | nil => exact List.nodup_nil
  | cons seed seeds ih =>
    unfold collect turns
    split
    · rename_i there
      rw [List.map_cons,List.flatten_cons]
      refine List.nodup_append'.mpr ⟨picks.once there distinct,ih (withoutNodup distinct _),?_⟩
      intro a first later
      exact ((memWithout).mp (collectWithin picks later)).2 first
    · exact ih distinct

theorem memCollect {seeds remaining : List α} {a : α} :
    a ∈ (collect pick seeds remaining).flatten ↔ ∃ turn ∈ turns pick seeds remaining, a ∈ pick turn.1 turn.2 := by
  simp [collect,List.mem_flatten]

/- A seed that remains is picked before its turn, or its turn comes. -/
theorem turnComes {seeds remaining : List α} {seed : α} (seeded : seed ∈ seeds) (there : seed ∈ remaining) :
    seed ∈ (collect pick seeds remaining).flatten ∨
      ∃ turn ∈ turns pick seeds remaining, turn.1 = seed := by
  induction seeds generalizing remaining with
  | nil => cases seeded
  | cons first seeds ih =>
    by_cases here : first ∈ remaining
    · have step : turns pick (first::seeds) remaining =
          (first,remaining)::turns pick seeds (without remaining (pick first remaining)) := if_pos here
      rw [memCollect,step]
      by_cases own : first = seed
      · exact .inr ⟨(first,remaining),List.mem_cons_self,own⟩
      by_cases picked : seed ∈ pick first remaining
      · exact .inl ⟨(first,remaining),List.mem_cons_self,picked⟩
      have later : seed ∈ seeds := (List.mem_cons.mp seeded).resolve_left (Ne.symm own)
      rcases ih later ((memWithout).mpr ⟨there,picked⟩) with grouped | ⟨turn,member,same⟩
      · obtain ⟨turn,member,inside⟩ := (memCollect).mp grouped
        exact .inl ⟨turn,List.mem_cons_of_mem _ member,inside⟩
      · exact .inr ⟨turn,List.mem_cons_of_mem _ member,same⟩
    · have step : turns pick (first::seeds) remaining = turns pick seeds remaining := if_neg here
      have other : first ≠ seed := fun same => here (same ▸ there)
      rw [memCollect,step,← memCollect]
      exact ih ((List.mem_cons.mp seeded).resolve_left (Ne.symm other)) there

/- Everything is grouped exactly when every seed whose turn comes is, in that turn or another. -/
theorem collectAll {seeds remaining : List α} (seeded : ∀ a ∈ remaining, a ∈ seeds) :
    (∀ a ∈ remaining, a ∈ (collect pick seeds remaining).flatten) ↔
      ∀ turn ∈ turns pick seeds remaining,
        ∃ other ∈ turns pick seeds remaining, turn.1 ∈ pick other.1 other.2 := by
  constructor
  · intro grouped turn member
    have within := turnsWithin seeds remaining member
    exact (memCollect).mp (grouped turn.1 (within.2 _ within.1))
  · intro placed a there
    rcases turnComes (seeded a there) there with grouped | ⟨turn,member,rfl⟩
    · exact grouped
    · exact (memCollect).mpr (placed turn member)

/- Before `a` in a list that a strict order arranges stand the members below it. -/
theorem memTake {precedes : β → β → Prop} [DecidableRel precedes] (irreflexive : ∀ a, ¬precedes a a)
    (asymmetric : ∀ a b, precedes a b → ¬precedes b a) {sorted : List β}
    (arranged : sorted.Pairwise precedes) (size : Nat) (a : β) :
    a ∈ sorted.take size ↔ a ∈ sorted ∧ (sorted.filter fun b => precedes b a).length < size := by
  induction sorted generalizing size with
  | nil => simp
  | cons first rest ih =>
    obtain ⟨least,ordered⟩ := List.pairwise_cons.mp arranged
    cases size with
    | zero => simp
    | succ size =>
      by_cases own : a = first
      · subst own
        have none : (rest.filter fun b => precedes b a) = [] :=
          List.filter_eq_nil_iff.mpr fun b member => by simpa using asymmetric a b (least b member)
        simp [irreflexive,none]
      · rw [List.take_succ_cons,List.mem_cons,List.mem_cons,or_iff_right own,or_iff_right own,ih ordered]
        refine and_congr_right fun member => ?_
        rw [List.filter_cons_of_pos (by simpa using least a member),List.length_cons,Nat.add_lt_add_iff_right]

theorem onePlace {a b : β} {listed : List β} (distinct : listed.Nodup) (part : [a,b].Sublist listed) :
    ¬[b,a].Sublist listed := by
  induction listed with
  | nil => cases part
  | cons first rest ih =>
    obtain ⟨absent,later⟩ := List.nodup_cons.mp distinct
    intro back
    rcases List.cons_sublist_cons'.mp part with part | ⟨same,after⟩ <;>
      rcases List.cons_sublist_cons'.mp back with back | ⟨other,_⟩
    · exact ih later part back
    · exact absent (other ▸ part.subset (by simp))
    · exact absent (same ▸ back.subset (by simp))
    · exact absent (other ▸ after.subset (by simp))

/- In a stable sort by falling score: `a` scores more than `b`, or the same and is listed first. -/
def Outranks {γ : Type} [LinearOrder γ] (score : α → γ) (listed : List α) (a b : α) : Prop :=
  score b < score a ∨ score a = score b ∧ listed.idxOf a < listed.idxOf b

instance {γ : Type} [LinearOrder γ] (score : α → γ) (listed : List α) :
    DecidableRel (Outranks score listed) := fun _ _ => inferInstanceAs (Decidable (_ ∨ _))

def ranked {γ : Type} [LinearOrder γ] (score : β → γ) (listed : List β) : List β :=
  listed.insertionSort fun a b => score b ≤ score a

theorem rankedPerm {γ : Type} [LinearOrder γ] (score : β → γ) (listed : List β) :
    (ranked score listed).Perm listed := List.perm_insertionSort _ _

section
variable {γ : Type} [LinearOrder γ] (score : α → γ) {listed : List α}

theorem outranksIrrefl (a : α) : ¬Outranks score listed a a := by
  rintro (less | ⟨_,earlier⟩)
  · exact lt_irrefl _ less
  · exact lt_irrefl _ earlier

theorem outranksAsymm (a b : α) (above : Outranks score listed a b) : ¬Outranks score listed b a := by
  rcases above with less | ⟨same,earlier⟩
  · rintro (more | ⟨same,_⟩)
    · exact lt_asymm less more
    · exact lt_irrefl _ (same ▸ less)
  · rintro (more | ⟨_,later⟩)
    · exact lt_irrefl _ (same ▸ more)
    · exact lt_asymm earlier later

theorem listedSublist (a b : α) (there : b ∈ listed) (earlier : listed.idxOf a < listed.idxOf b) :
    [a,b].Sublist listed := by
  have inOrder : listed.Pairwise fun a b => [a,b].Sublist listed :=
    List.pairwise_iff_forall_sublist.mpr fun part => part
  have last := List.idxOf_lt_length_of_mem there
  have pair := List.pairwise_iff_getElem.mp inOrder _ _ (earlier.trans last) last earlier
  rwa [List.getElem_idxOf,List.getElem_idxOf] at pair

theorem rankedOutranks (distinct : listed.Nodup) : (ranked score listed).Pairwise (Outranks score listed) := by
  have falls : (ranked score listed).Pairwise fun a b => score b ≤ score a :=
    List.pairwise_insertionSort _ listed
  have once : (ranked score listed).Nodup := (rankedPerm score listed).nodup_iff.mpr distinct
  refine List.pairwise_iff_forall_sublist.mpr fun {a b} part => ?_
  rcases lt_or_eq_of_le (List.pairwise_iff_forall_sublist.mp falls part) with less | same
  · exact .inl less
  refine .inr ⟨same.symm,?_⟩
  have apart : a ≠ b := List.pairwise_iff_forall_sublist.mp once part
  have there {c : α} (member : c ∈ [a,b]) : c ∈ listed :=
    (rankedPerm score listed).mem_iff.mp (part.subset member)
  rcases lt_trichotomy (listed.idxOf a) (listed.idxOf b) with earlier | tied | later
  · exact earlier
  · exact absurd (List.idxOf_inj (there (by simp)) |>.mp tied) apart
  · -- Were `b` listed first, stability would keep it first.
    have kept : [b,a].Sublist (ranked score listed) :=
      List.pair_sublist_insertionSort same.symm.le (listedSublist b a (there (by simp)) later)
    exact absurd kept (onePlace once part)

end

end McpMemory.Grouping
