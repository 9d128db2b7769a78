import Mathlib.Data.List.Dedup
import Mathlib.Data.List.Lex
import Mathlib.Data.List.Sort

/-! Dictionaries that keep the places of their keys, merged key by key, and sets that are written
as sorted lists. What a merge does is settled at each key by itself. -/
namespace McpMemory.Merge

section
variable {κ ν : Type} [DecidableEq κ]

def setEntry (entries : List (κ × ν)) (key : κ) (value : ν) : List (κ × ν) :=
  if entries.any (·.1 == key) then entries.map fun entry => if entry.1 == key then (key,value) else entry
  else entries ++ [(key,value)]

abbrev keys (entries : List (κ × ν)) : List κ := entries.map (·.1)

variable {entries : List (κ × ν)} {key other : κ} {value : ν}

theorem anyKey : entries.any (·.1 == key) = true ↔ key ∈ keys entries := by simp [keys]

theorem keysSet : keys (setEntry entries key value) = if key ∈ keys entries then keys entries else keys entries ++ [key] := by
  unfold setEntry
  by_cases present : key ∈ keys entries
  · rw [if_pos ((anyKey).mpr present),if_pos present,keys,List.map_map]
    refine List.map_congr_left fun entry _ => ?_
    show (if (entry.1 == key) = true then (key,value) else entry).1 = entry.1
    split
    · rename_i same
      exact (eq_of_beq same).symm
    · rfl
  · rw [if_neg (fun there => present ((anyKey).mp there)),if_neg present]
    simp [keys]

theorem distinctSet (distinct : (keys entries).Nodup) : (keys (setEntry entries key value)).Nodup := by
  rw [keysSet]
  split
  · exact distinct
  · rename_i absent
    exact List.nodup_append.mpr ⟨distinct,List.nodup_singleton _,fun a member b single same =>
      absent (List.mem_singleton.mp single ▸ same ▸ member)⟩

theorem lookupMap (entries : List (κ × ν)) (key other : κ) (value : ν) :
    (entries.map fun entry => if entry.1 == key then (key,value) else entry).lookup other =
      if other = key then (entries.lookup other).map fun _ => value else entries.lookup other := by
  induction entries with
  | nil => simp
  | cons entry rest ih =>
    obtain ⟨name,old⟩ := entry
    by_cases here : other = name
    · subst here
      by_cases same : other = key
      · subst same
        simp
      · simp [same]
    · have missed : (other == name) = false := beq_false_of_ne here
      by_cases same : name = key
      · subst same
        simp only [List.map_cons,beq_self_eq_true,if_true,List.lookup_cons,missed,ih]
      · simp only [List.map_cons,beq_false_of_ne same,Bool.false_eq_true,if_false,List.lookup_cons,missed,ih]

theorem lookupKey : (entries.lookup key).isSome ↔ key ∈ keys entries := by
  rw [List.lookup_isSome_iff,List.mem_map]
  constructor
  · rintro ⟨entry,member,named⟩
    exact ⟨entry,member,(eq_of_beq named).symm⟩
  · rintro ⟨entry,member,named⟩
    exact ⟨entry,member,beq_iff_eq.mpr named.symm⟩

theorem lookupSet (entries : List (κ × ν)) (key other : κ) (value : ν) : (setEntry entries key value).lookup other =
    if other = key then some value else entries.lookup other := by
  unfold setEntry
  by_cases present : key ∈ keys entries
  · rw [if_pos ((anyKey).mpr present),lookupMap]
    split
    · rename_i same
      obtain ⟨old,found⟩ := Option.isSome_iff_exists.mp ((lookupKey).mpr present)
      rw [same,found]
      rfl
    · rfl
  · rw [if_neg (fun there => present ((anyKey).mp there)),List.lookup_append]
    by_cases same : other = key
    · subst same
      have missing : entries.lookup other = none := by
        rw [← Option.not_isSome_iff_eq_none,lookupKey]
        exact present
      simp [missing]
    · simp [same,List.lookup_cons,beq_false_of_ne same]

/- What is set to the value that is there stays as it is. -/
theorem setSame (distinct : (keys entries).Nodup) (found : entries.lookup key = some value) :
    setEntry entries key value = entries := by
  have present : key ∈ keys entries := (lookupKey).mp (by rw [found]; rfl)
  rw [setEntry,if_pos ((anyKey).mpr present)]
  clear present
  induction entries with
  | nil => rfl
  | cons entry rest ih =>
    obtain ⟨name,old⟩ := entry
    obtain ⟨fresh,distinct⟩ := List.nodup_cons.mp distinct
    by_cases here : name = key
    · subst here
      rw [List.lookup_cons_self] at found
      cases found
      have apart : ∀ entry ∈ rest, (if entry.1 == name then (name,value) else entry) = entry := by
        exact fun entry member => if_neg fun same => fresh (List.mem_map.mpr ⟨entry,member,eq_of_beq same⟩)
      rw [List.map_cons,List.map_congr_left apart,List.map_id']
      simp
    · rw [List.lookup_cons,beq_false_of_ne (Ne.symm here)] at found
      rw [List.map_cons,ih distinct found]
      simp [here]

end

section
variable {κ ν : Type} [DecidableEq κ] (combine : Option ν → ν → ν)

def merge (existing override : List (κ × ν)) : List (κ × ν) :=
  override.foldl (fun merged entry => setEntry merged entry.1 (combine (merged.lookup entry.1) entry.2)) existing

variable {combine} {existing override : List (κ × ν)}

theorem distinctMerge (distinct : (keys existing).Nodup) : (keys (merge combine existing override)).Nodup := by
  induction override generalizing existing with
  | nil => exact distinct
  | cons entry rest ih => exact ih (distinctSet distinct)

theorem lookupMerge (distinct : (keys override).Nodup) (key : κ) : (merge combine existing override).lookup key =
    match override.lookup key with
    | none => existing.lookup key
    | some value => some (combine (existing.lookup key) value) := by
  induction override generalizing existing with
  | nil => rfl
  | cons entry rest ih =>
    obtain ⟨name,value⟩ := entry
    obtain ⟨fresh,distinct⟩ := List.nodup_cons.mp distinct
    show (merge combine (setEntry existing name _) rest).lookup key = _
    rw [ih distinct,lookupSet]
    by_cases here : key = name
    · subst here
      have missing : rest.lookup key = none := by
        rw [← Option.not_isSome_iff_eq_none,lookupKey]
        exact fresh
      rw [missing,if_pos rfl,List.lookup_cons_self]
    · rw [if_neg here,List.lookup_cons,beq_false_of_ne here]

theorem mergeKeys {key : κ} (distinct : (keys override).Nodup) :
    key ∈ keys (merge combine existing override) ↔ key ∈ keys existing ∨ key ∈ keys override := by
  rw [← lookupKey,← lookupKey,← lookupKey,lookupMerge distinct]
  cases override.lookup key <;> simp

theorem mergeFixed (distinct : (keys existing).Nodup)
    (fixed : ∀ entry ∈ override, existing.lookup entry.1 = some (combine (existing.lookup entry.1) entry.2)) :
    merge combine existing override = existing := by
  induction override with
  | nil => rfl
  | cons entry rest ih =>
    show merge combine (setEntry existing entry.1 _) rest = existing
    rw [setSame distinct (fixed entry List.mem_cons_self)]
    exact ih fun other member => fixed other (List.mem_cons_of_mem _ member)

/- A second merge changes nothing just where no value changes when it is combined again. -/
theorem mergeIdem (distinct : (keys existing).Nodup) (distinctOverride : (keys override).Nodup) :
    merge combine (merge combine existing override) override = merge combine existing override ↔
      ∀ key value, override.lookup key = some value →
        combine (some (combine (existing.lookup key) value)) value = combine (existing.lookup key) value := by
  constructor
  · intro same key value found
    have twice := @lookupMerge _ _ _ combine (merge combine existing override) override distinctOverride key
    rw [same,lookupMerge distinctOverride,found] at twice
    exact (Option.some.inj twice).symm
  · refine fun settled => mergeFixed (distinctMerge distinct) fun entry member => ?_
    have found : override.lookup entry.1 = some entry.2 := by
      obtain ⟨first,last,split⟩ := List.append_of_mem member
      rw [split] at distinctOverride ⊢
      have apart : entry.1 ∉ keys first := fun there => by
        rw [keys,List.map_append,List.nodup_append] at distinctOverride
        exact distinctOverride.2.2 _ there _ (by simp) rfl
      have missing : first.lookup entry.1 = none := by
        rw [← Option.not_isSome_iff_eq_none,lookupKey]
        exact apart
      rw [List.lookup_append,missing]
      exact List.lookup_cons_self
    rw [lookupMerge distinctOverride,found]
    exact congrArg some (settled _ _ found).symm

end

section
variable {α : Type} [LinearOrder α] {xs ys : List α}

/- `sorted(set(xs))`. -/
def sortedOnce (xs : List α) : List α := xs.dedup.insertionSort (· ≤ ·)

theorem memSortedOnce {x : α} : x ∈ sortedOnce xs ↔ x ∈ xs := by
  rw [sortedOnce,List.mem_insertionSort,List.mem_dedup]

theorem sortedOnceNodup (xs : List α) : (sortedOnce xs).Nodup :=
  (List.perm_insertionSort _ _).nodup_iff.mpr (List.nodup_dedup xs)

theorem sortedOnceSame (same : ∀ x, x ∈ xs ↔ x ∈ ys) : sortedOnce xs = sortedOnce ys := by
  have perm : (sortedOnce xs).Perm (sortedOnce ys) :=
    (List.perm_ext_iff_of_nodup (sortedOnceNodup xs) (sortedOnceNodup ys)).mpr fun x => by
      rw [memSortedOnce,memSortedOnce,same]
  exact perm.eq_of_pairwise (fun _ _ _ _ => le_antisymm) (List.pairwise_insertionSort _ _) (List.pairwise_insertionSort _ _)

theorem sortedOnceExt (same : ∀ x, x ∈ sortedOnce xs ↔ x ∈ sortedOnce ys) : sortedOnce xs = sortedOnce ys :=
  sortedOnceSame fun x => memSortedOnce.symm.trans ((same x).trans memSortedOnce)

theorem sortedOnceIncreases (xs : List α) : (sortedOnce xs).Pairwise (· < ·) :=
  ((List.pairwise_insertionSort (· ≤ ·) xs.dedup).and (sortedOnceNodup xs)).imp fun ⟨le,ne⟩ => lt_of_le_of_ne le ne

/- A list is the sorted list of its set just when it increases. -/
theorem sortedOnceFixed : sortedOnce xs = xs ↔ xs.Pairwise (· < ·) := by
  refine ⟨fun same => same ▸ sortedOnceIncreases xs,fun increases => ?_⟩
  have once : xs.Nodup := increases.imp fun lt => ne_of_lt lt
  rw [sortedOnce,once.dedup]
  exact (increases.imp le_of_lt).insertionSort_eq

end

end McpMemory.Merge
