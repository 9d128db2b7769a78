import Mathlib.Data.String.Basic
import McpMemory.Memory.Loads
import McpMemory.Memory.Tables

/-! When two JSON values are written as one text: the canonical text tells everything but the order
in which the fields of an object stand. -/
namespace McpMemory.Canonical

theorem compactMarked : compact.Marked := ⟨⟨[],rfl,nofun⟩,⟨[],rfl,nofun⟩⟩

mutual

/- No object has two fields of one name. -/
def Distinct : Json → Prop
  | .arr items => DistinctItems items
  | .obj fields => (fields.map (·.1)).Nodup ∧ DistinctFields fields
  | _ => True

def DistinctItems : List Json → Prop
  | [] => True
  | item::rest => Distinct item ∧ DistinctItems rest

def DistinctFields : List (String × Json) → Prop
  | [] => True
  | (_,value)::rest => Distinct value ∧ DistinctFields rest

end

theorem assembleDistinct {fields : List (String × Json)} (distinct : (fields.map (·.1)).Nodup) : assemble fields = fields := by
  have grown : ∀ (done rest : List (String × Json)), ((done ++ rest).map (·.1)).Nodup →
      rest.foldl (fun done field => Json.set done field.1 field.2) done = done ++ rest := by
    intro done rest distinct
    induction rest generalizing done with
    | nil => simp
    | cons field rest ih =>
      have fresh : (done.any (·.1 == field.1)) = false := by
        rw [List.any_eq_false]
        intro other member same
        rw [List.map_append,List.nodup_append] at distinct
        exact distinct.2.2 other.1 (List.mem_map_of_mem member) field.1 (by simp) (eq_of_beq same)
      have added : Json.set done field.1 field.2 = done ++ [field] := by
        rw [Json.set,fresh]
        rfl
      rw [List.foldl_cons,added,ih _ (by simpa using distinct)]
      simp
  exact grown [] fields distinct

theorem sortKeysPerm {α : Type} (fields : List (String × α)) : (sortKeys fields).Perm fields := List.perm_insertionSort _ _

theorem sortKeysSorted {α : Type} (fields : List (String × α)) : (sortKeys fields).Pairwise fun a b => a.1 ≤ b.1 :=
  have : Std.Total fun a b : String × α => a.1 ≤ b.1 := ⟨fun a b => le_total a.1 b.1⟩
  have : IsTrans (String × α) fun a b => a.1 ≤ b.1 := ⟨fun _ _ _ => le_trans⟩
  List.pairwise_insertionSort _ fields

theorem sortKeysSame {α : Type} {fields others : List (String × α)} (distinct : (fields.map (·.1)).Nodup) :
    sortKeys fields = sortKeys others ↔ fields.Perm others := by
  constructor
  · intro same
    exact (sortKeysPerm fields).symm.trans (same ▸ sortKeysPerm others)
  · intro perm
    have sorted := (sortKeysPerm fields).trans (perm.trans (sortKeysPerm others).symm)
    refine List.Perm.eq_of_pairwise ?_ (sortKeysSorted fields) (sortKeysSorted others) sorted
    intro a b left right below above
    have one : (fields.map (·.1)).Nodup := distinct
    exact List.inj_on_of_nodup_map one ((sortKeysPerm fields).mem_iff.mp left)
      ((sortKeysPerm fields).mem_iff.mp (sorted.mem_iff.mpr right)) (le_antisymm below above)

theorem arrangedObject {fields : List (String × Json)} (distinct : (fields.map (·.1)).Nodup) :
    arranged (.obj fields) = .obj (sortKeys (fields.map fun field => (field.1,arranged field.2))) := by
  rw [arranged,arrangedFieldsMap,assembleDistinct]
  have keys := (sortKeysPerm (fields.map fun field => (field.1,arranged field.2))).map (·.1)
  rw [keys.nodup_iff,List.map_map]
  exact distinct

mutual

theorem dumpArranged (marks : Separators) : ∀ value, Distinct value → dump marks (arranged value) = dump marks value
  | .null,_ => rfl
  | .bool _,_ => rfl
  | .int _,_ => rfl
  | .str _,_ => rfl
  | .arr items,distinct => by
    have each := dumpArrangedItems marks items distinct
    rw [arranged,dump,dump,dumpItemsMap,dumpItemsMap,arrangedItemsMap,List.map_map]
    rw [show items.map (dump marks ∘ arranged) = items.map (dump marks) from List.map_congr_left each]
  | .obj fields,distinct => by
    have each := dumpArrangedFields marks fields distinct.2
    rw [arrangedObject distinct.1,dumpObject,dumpObject,sortKeysMap]
    have still : sortKeys ((sortKeys fields).map fun field => (field.1,arranged field.2)) =
        (sortKeys fields).map fun field => (field.1,arranged field.2) := by
      rw [← sortKeysMap]
      exact (sortKeysSorted _).insertionSort_eq
    have texts : ((sortKeys fields).map fun field => (field.1,arranged field.2)).map (dumpField marks) =
        (sortKeys fields).map (dumpField marks) := by
      rw [List.map_map]
      refine List.map_congr_left fun field member => ?_
      rw [Function.comp_apply,dumpField,dumpField,each field ((sortKeysPerm fields).mem_iff.mp member)]
    rw [still,texts]

theorem dumpArrangedItems (marks : Separators) : ∀ items : List Json, DistinctItems items →
    ∀ item ∈ items, dump marks (arranged item) = dump marks item
  | [],_ => fun _ none => absurd none List.not_mem_nil
  | first::items,distinct => List.forall_mem_cons.mpr ⟨dumpArranged marks first distinct.1,dumpArrangedItems marks items distinct.2⟩

theorem dumpArrangedFields (marks : Separators) : ∀ fields : List (String × Json), DistinctFields fields →
    ∀ field ∈ fields, dump marks (arranged field.2) = dump marks field.2
  | [],_ => fun _ none => absurd none List.not_mem_nil
  | (_,value)::fields,distinct =>
    List.forall_mem_cons.mpr ⟨dumpArranged marks value distinct.1,dumpArrangedFields marks fields distinct.2⟩

end

theorem sameText {marks : Separators} (marked : marks.Marked) {value other : Json} (left : Distinct value)
    (right : Distinct other) : dump marks value = dump marks other ↔ arranged value = arranged other := by
  constructor
  · intro same
    have read := loadsDump marked value
    rw [same,loadsDump marked other] at read
    exact (Option.some.inj read).symm
  · intro same
    rw [← dumpArranged marks value left,same,dumpArranged marks other right]

theorem sameObject {fields others : List (String × Json)} (left : (fields.map (·.1)).Nodup) (right : (others.map (·.1)).Nodup) :
    arranged (.obj fields) = arranged (.obj others) ↔
      (fields.map fun field => (field.1,arranged field.2)).Perm (others.map fun field => (field.1,arranged field.2)) := by
  rw [arrangedObject left,arrangedObject right,Json.obj.injEq]
  exact sortKeysSame (by rwa [List.map_map])

theorem permSameKeys {α : Type} {fields others : List (String × α)} (keys : fields.map (·.1) = others.map (·.1))
    (distinct : (fields.map (·.1)).Nodup) (perm : fields.Perm others) : fields = others := by
  induction fields generalizing others with
  | nil => exact (List.nil_perm.mp perm).symm
  | cons field rest ih =>
    cases others with
    | nil => exact absurd perm.length_eq (by simp)
    | cons other tail =>
      simp only [List.map_cons,List.cons.injEq] at keys
      obtain rfl : field = other := List.inj_on_of_nodup_map distinct List.mem_cons_self
        (perm.mem_iff.mpr List.mem_cons_self) keys.1
      rw [ih keys.2 (List.nodup_cons.mp distinct).2 ((List.perm_cons _).mp perm)]

/- Objects of one shape are the same field by field. -/
theorem sameShape {fields others : List (String × Json)} (keys : fields.map (·.1) = others.map (·.1))
    (distinct : (fields.map (·.1)).Nodup) : arranged (.obj fields) = arranged (.obj others) ↔
      fields.map (fun field => arranged field.2) = others.map fun field => arranged field.2 := by
  rw [sameObject distinct (keys ▸ distinct)]
  constructor
  · intro perm
    have whole := permSameKeys (by rw [List.map_map,List.map_map]; exact keys) (by rwa [List.map_map]) perm
    have values := congrArg (List.map (·.2)) whole
    rwa [List.map_map,List.map_map] at values
  · intro values
    have zipped (fields : List (String × Json)) : (fields.map fun field => (field.1,arranged field.2)) =
        (fields.map (·.1)).zip (fields.map fun field => arranged field.2) := by
      rw [List.zip_map']
    rw [zipped,zipped,keys,values]

theorem sameItems {items others : List Json} : arranged (.arr items) = arranged (.arr others) ↔
    items.map arranged = others.map arranged := by
  rw [arranged,arranged,arrangedItemsMap,arrangedItemsMap,Json.arr.injEq]

end McpMemory.Canonical
