import Mathlib.Data.List.Forall2
import Mathlib.Data.List.Nodup
import Mathlib.Data.List.Sort

/-! Rows of a table with a key column, as SQL changes them: an UPDATE rewrites
the rows that a predicate selects, an INSERT appends one row. -/
namespace McpMemory.Table

variable {ρ γ : Type}

def update (sel : ρ → Bool) (set : ρ → ρ) (rows : List ρ) : List ρ :=
  rows.map fun row => if sel row then set row else row

def UniqueBy (key : ρ → γ) (rows : List ρ) : Prop := (rows.map key).Nodup

instance [DecidableEq γ] (key : ρ → γ) (rows : List ρ) : Decidable (UniqueBy key rows) := by
  unfold UniqueBy; infer_instance

theorem memUpdate {sel : ρ → Bool} {set rows row} : row ∈ update sel set rows ↔
    ∃ old ∈ rows, row = if sel old then set old else old := by
  simp only [update,List.mem_map]
  exact ⟨fun ⟨old,h,e⟩ => ⟨old,h,e.symm⟩,fun ⟨old,h,e⟩ => ⟨old,h,e.symm⟩⟩

theorem updateKeys {key : ρ → γ} {sel : ρ → Bool} {set rows}
    (same : ∀ row ∈ rows, sel row → key (set row) = key row) :
    (update sel set rows).map key = rows.map key := by
  simp only [update,List.map_map]
  refine List.map_congr_left fun row member => ?_
  simp only [Function.comp]
  split
  · rename_i selected; exact same row member selected
  · rfl

theorem updateUnique {key : ρ → γ} {sel : ρ → Bool} {set rows}
    (same : ∀ row ∈ rows, sel row → key (set row) = key row) (unique : UniqueBy key rows) :
    UniqueBy key (update sel set rows) := by
  unfold UniqueBy; rw [updateKeys same]; exact unique

theorem forallUpdate {follows : ρ → ρ → Prop} {sel : ρ → Bool} {set : ρ → ρ} {rows}
    (same : ∀ row, follows row row) (changed : ∀ row ∈ rows, sel row → follows row (set row)) :
    List.Forall₂ follows rows (update sel set rows) := by
  refine List.forall₂_map_right_iff.mpr (List.forall₂_same.mpr fun row member => ?_)
  split
  · rename_i selected; exact changed row member selected
  · exact same row

theorem forallMember {follows : ρ → γ → Prop} {rows after} (all : List.Forall₂ follows rows after) {row}
    (member : row ∈ rows) : ∃ later ∈ after, follows row later := by
  induction all with
  | nil => cases member
  | cons here rest ih =>
    rcases List.mem_cons.mp member with rfl | member
    · exact ⟨_,List.mem_cons_self,here⟩
    · obtain ⟨later,there,follow⟩ := ih member
      exact ⟨later,List.mem_cons_of_mem _ there,follow⟩

theorem updateCongr {sel other : ρ → Bool} {set rows} (same : ∀ row ∈ rows, sel row = other row) :
    update sel set rows = update other set rows :=
  List.map_congr_left fun row member => by rw [same row member]

theorem updateNone {sel : ρ → Bool} {set rows} (none : ∀ row ∈ rows, sel row = false) :
    update sel set rows = rows := by
  refine (List.map_congr_left fun row member => ?_).trans (List.map_id rows)
  simp [none row member]

/- A query that misses the updated rows before and after does not see the update. -/
theorem findUpdate {sel q : ρ → Bool} {set rows}
    (missed : ∀ row ∈ rows, sel row → q row = false ∧ q (set row) = false) :
    (update sel set rows).find? q = rows.find? q := by
  unfold update
  induction rows with
  | nil => rfl
  | cons row rest ih =>
    have rest := ih fun other member => missed other (List.mem_cons_of_mem _ member)
    rw [List.map_cons,List.find?_cons,List.find?_cons,rest]
    by_cases selected : sel row
    · have away := missed row List.mem_cons_self selected
      rw [if_pos selected,away.1,away.2]
    · rw [if_neg selected]

/- A query that an update leaves alone finds the same row, updated or not. -/
theorem findKept {sel q : ρ → Bool} {set : ρ → ρ} {rows} (same : ∀ row, q (set row) = q row) :
    (update sel set rows).find? q = (rows.find? q).map fun row => if sel row then set row else row := by
  unfold update
  rw [List.find?_map]
  congr 2
  funext row
  simp only [Function.comp]
  split
  · exact same row
  · rfl

/- An update that leaves the rows selected keeps the first of them first. -/
theorem findReplaced {sel : ρ → Bool} {set rows row} (still : ∀ row, sel row → sel (set row))
    (found : rows.find? sel = some row) : (update sel set rows).find? sel = some (set row) := by
  unfold update
  induction rows with
  | nil => cases found
  | cons first rest ih =>
    rw [List.find?_cons] at found
    rw [List.map_cons,List.find?_cons]
    cases here : sel first
    · simp only [here] at found
      simp only [Bool.false_eq_true,if_false,here]
      exact ih found
    · simp only [here,Option.some.injEq] at found
      subst found
      simp [still first here]

theorem findUpdated {sel : ρ → Bool} {set rows row} (same : ∀ row, sel (set row) = sel row)
    (found : rows.find? sel = some row) : (update sel set rows).find? sel = some (set row) :=
  findReplaced (fun row here => (same row).trans here) found

/- Two updates of one row are the same where they agree on that row. -/
theorem updateAgree {sel : ρ → Bool} {set other : ρ → ρ} {rows} (agree : ∀ row ∈ rows, sel row → set row = other row) :
    update sel set rows = update sel other rows := by
  refine List.map_congr_left fun row member => ?_
  cases here : sel row with
  | false => rfl
  | true => exact agree row member here

/- A query that answers the same in whatever order the rows come. -/
def Determined (ask : List ρ → γ) (rows : List ρ) : Prop := ∀ other, other.Perm rows → ask other = ask rows

theorem determinedArranged {ask : List ρ → γ} {rows : List ρ} {arrange : List ρ → List ρ}
    (arranges : ∀ rows, (arrange rows).Perm rows) (determined : Determined ask rows) : ask (arrange rows) = ask rows :=
  determined _ (arranges rows)

theorem determinedShort {ask : List ρ → γ} {rows : List ρ} (short : rows.length ≤ 1) : Determined ask rows := by
  intro other perm
  cases rows with
  | nil => rw [perm.eq_nil]
  | cons row rest =>
    obtain rfl : rest = [] := List.length_eq_zero_iff.mp (by simpa using short)
    rw [List.perm_singleton.mp perm]

theorem filterUpdate {sel q : ρ → Bool} {set rows}
    (missed : ∀ row ∈ rows, sel row → q row = false ∧ q (set row) = false) :
    (update sel set rows).filter q = rows.filter q := by
  unfold update
  induction rows with
  | nil => rfl
  | cons row rest ih =>
    have rest := ih fun other member => missed other (List.mem_cons_of_mem _ member)
    rw [List.map_cons,List.filter_cons,List.filter_cons,rest]
    by_cases selected : sel row
    · have away := missed row List.mem_cons_self selected
      rw [if_pos selected,away.1,away.2]
      rfl
    · rw [if_neg selected]

/- A query that selects the rows that are updated sees them all updated. -/
theorem filterUpdated {sel : ρ → Bool} {set : ρ → ρ} {rows} (same : ∀ row, sel (set row) = sel row) :
    (update sel set rows).filter sel = (rows.filter sel).map set := by
  unfold update
  induction rows with
  | nil => rfl
  | cons row rest ih =>
    rw [List.map_cons,List.filter_cons,List.filter_cons,ih]
    cases here : sel row <;> simp [here,same]

/- A filter sees nothing of an earlier one that drops only what it drops itself. -/
theorem filterOut {p q : ρ → Bool} {rows : List ρ} (dropped : ∀ row ∈ rows, q row → p row) :
    (rows.filter p).filter q = rows.filter q := by
  rw [List.filter_filter]
  refine List.filter_congr fun row member => ?_
  cases hit : q row
  · rfl
  · rw [dropped row member hit]; rfl

/- With what comes before what strict, a row is among the first `n` of the sorted rows where fewer
than `n` come before it. -/
theorem takeBefore {before : ρ → ρ → Bool} {rows : List ρ} {row : ρ} {n : Nat} (self : before row row = false)
    (sorted : rows.Pairwise fun a b => before a b = true ∧ before b a = false) (member : row ∈ rows) :
    row ∈ rows.take n ↔ rows.countP (before · row) < n := by
  obtain ⟨first,rest,rfl⟩ := List.append_of_mem member
  obtain ⟨_,tail,across⟩ := List.pairwise_append.mp sorted
  have ahead : first.countP (before · row) = first.length :=
    List.countP_eq_length.mpr fun other there => (across other there row List.mem_cons_self).1
  have behind : rest.countP (before · row) = 0 := List.countP_eq_zero.mpr fun other there => by
    simp [((List.pairwise_cons.mp tail).1 other there).2]
  have counted : (first ++ row::rest).countP (before · row) = first.length := by
    rw [List.countP_append,List.countP_cons,ahead,behind,self]
    rfl
  rw [counted,List.take_append]
  constructor
  · intro taken
    by_contra few
    have none : n - first.length = 0 := by omega
    rw [none,List.take_zero,List.append_nil] at taken
    have both := (across row (List.mem_of_mem_take taken) row List.mem_cons_self).1
    rw [self] at both
    cases both
  · intro room
    obtain ⟨more,same⟩ : ∃ more, n - first.length = more + 1 := ⟨n - first.length - 1,by omega⟩
    rw [same]
    exact List.mem_append_right _ List.mem_cons_self

theorem insertUnique {key : ρ → γ} {rows new} (fresh : ∀ row ∈ rows, key row ≠ key new)
    (unique : UniqueBy key rows) : UniqueBy key (rows ++ [new]) := by
  unfold UniqueBy at *
  rw [List.map_append,List.map_singleton,List.nodup_append]
  refine ⟨unique,List.nodup_singleton _,?_⟩
  intro a member b last
  obtain ⟨row,present,rfl⟩ := List.mem_map.mp member
  rw [List.mem_singleton.mp last]
  exact fresh row present

theorem equalOfKey {key : ρ → γ} {rows a b} (unique : UniqueBy key rows) (left : a ∈ rows)
    (right : b ∈ rows) (same : key a = key b) : a = b :=
  List.inj_on_of_nodup_map unique left right same

theorem countUpdate {p sel : ρ → Bool} {set rows}
    (back : ∀ row ∈ rows, sel row → p (set row) → p row) :
    (update sel set rows).countP p ≤ rows.countP p := by
  simp only [update,List.countP_map]
  refine List.countP_mono_left fun row member hit => ?_
  simp only [Function.comp] at hit
  split at hit
  · rename_i selected; exact back row member selected hit
  · exact hit

theorem countKey [DecidableEq γ] {key : ρ → γ} {rows} (unique : UniqueBy key rows) (k : γ) :
    rows.countP (fun row => key row = k) ≤ 1 := by
  have once := List.nodup_iff_count.mp unique k
  rw [List.count,List.countP_map] at once
  refine Nat.le_trans (List.countP_mono_left fun row _ hit => ?_) once
  simpa using hit

theorem countOne {p : ρ → Bool} {row : ρ} : [row].countP p = (p row).toNat := by
  rw [List.countP_singleton]
  cases p row <;> rfl

theorem countSet {p : ρ → Bool} {rows : List ρ} {index row} (here : rows[index]? = some row) (new : ρ) :
    (rows.set index new).countP p + (p row).toNat = rows.countP p + (p new).toNat := by
  obtain ⟨bound,same⟩ := List.getElem?_eq_some_iff.mp here
  have counted := List.countP_set (p := p) (a := new) bound
  have positive : p row → 0 < rows.countP p := fun hit => List.countP_pos_iff.mpr ⟨row,List.mem_of_getElem? here,hit⟩
  rw [same] at counted
  rw [counted]
  cases old : p row with
  | false => cases p new <;> simp
  | true =>
    have some_ := positive old
    cases p new <;> simp <;> omega

theorem filterMapSet {α : Type} {f : ρ → Option α} {rows : List ρ} {index row} (here : rows[index]? = some row) (new : ρ) :
    ((f row).toList ++ (rows.set index new).filterMap f).Perm ((f new).toList ++ rows.filterMap f) := by
  induction rows generalizing index with
  | nil => simp at here
  | cons first rest ih =>
    have whole (r : ρ) (rs : List ρ) : (r::rs).filterMap f = (f r).toList ++ rs.filterMap f := by
      rw [List.filterMap_cons]
      cases f r <;> rfl
    cases index with
    | zero =>
      cases here
      rw [List.set_cons_zero,whole,whole,← List.append_assoc,← List.append_assoc]
      exact List.perm_append_comm.append_right _
    | succ index =>
      rw [List.set_cons_succ,whole,whole]
      have moved (a b c : List α) : (a ++ (b ++ c)).Perm (b ++ (a ++ c)) := by
        rw [← List.append_assoc,← List.append_assoc]
        exact List.perm_append_comm.append_right _
      exact ((moved _ _ _).trans ((ih here).append_left _)).trans (moved _ _ _)

theorem allFound {α : Type} {p : α → Bool} {found : Option α} (all : found.all p = true) : ∀ a, found = some a → p a = true := by
  rintro a rfl
  exact all

theorem findSome {sel : ρ → Bool} {rows : List ρ} {row} (found : rows.find? sel = some row) :
    row ∈ rows ∧ sel row := ⟨List.mem_of_find?_eq_some found,List.find?_some found⟩

theorem findNone {sel : ρ → Bool} {rows : List ρ} (none : rows.find? sel = none) :
    ∀ row ∈ rows, sel row = false := by simpa using List.find?_eq_none.mp none

theorem findOnly {sel : ρ → Bool} {rows : List ρ} {row} (member : row ∈ rows) (here : sel row = true)
    (only : ∀ other ∈ rows, sel other = true → other = row) : rows.find? sel = some row := by
  cases found : rows.find? sel with
  | none => exact absurd here (List.find?_eq_none.mp found row member)
  | some other => rw [only other (List.mem_of_find?_eq_some found) (List.find?_some found)]

theorem lookupMember {κ ν : Type} [BEq κ] [LawfulBEq κ] {entries : List (κ × ν)} {key : κ} {value : ν}
    (found : entries.lookup key = some value) : (key,value) ∈ entries := by
  obtain ⟨before,after,split,_⟩ := List.lookup_eq_some_iff.mp found
  rw [split]
  exact List.mem_append_right _ List.mem_cons_self

section
variable {κ ν : Type} [BEq κ] [LawfulBEq κ] {entries : List (κ × ν)} {key : κ} {value : ν}

/- A key with one value is found with it. -/
theorem lookupOne (listed : (key,value) ∈ entries) (only : ∀ entry ∈ entries, entry.1 = key → entry.2 = value) :
    entries.lookup key = some value := by
  induction entries with
  | nil => exact absurd listed List.not_mem_nil
  | cons first rest ih =>
    rw [List.lookup_cons]
    cases same : key == first.1 with
    | true => rw [only first List.mem_cons_self (eq_of_beq same).symm]
    | false =>
      have later : (key,value) ∈ rest := (List.mem_cons.mp listed).resolve_left fun here =>
        Bool.false_ne_true (same.symm.trans (beq_iff_eq.mpr (congrArg Prod.fst here)))
      exact ih later fun entry member => only entry (List.mem_cons_of_mem _ member)

theorem lookupNone (absent : ∀ entry ∈ entries, entry.1 ≠ key) : entries.lookup key = none := by
  cases found : entries.lookup key with
  | none => rfl
  | some value => exact absurd rfl (absent _ (lookupMember found))

theorem lookupDistinct (distinct : (entries.map Prod.fst).Nodup) (listed : (key,value) ∈ entries) :
    entries.lookup key = some value :=
  lookupOne listed fun _ member same => congrArg Prod.snd (equalOfKey distinct member listed same)

end

end McpMemory.Table
