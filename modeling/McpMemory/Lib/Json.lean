/-! JSON values as `json.loads` yields them, with whole numbers only. An object is
the list of its fields in insertion order. -/
namespace McpMemory

inductive Json where
  | null
  | bool (value : Bool)
  | int (value : Int)
  | str (value : String)
  | arr (items : List Json)
  | obj (fields : List (String × Json))
  deriving Repr, Inhabited

namespace Json

abbrev Object := List (String × Json)

def get (object : Object) (key : String) : Option Json := object.lookup key

def set (object : Object) (key : String) (value : Json) : Object :=
  if object.any (·.1 == key) then object.map fun field => if field.1 == key then (key,value) else field
  else object ++ [(key,value)]

def erase (object : Object) (key : String) : Object := object.filter (·.1 != key)

theorem lookupMapped (object : Object) (key other : String) (value : Json) :
    (object.map fun field => if field.1 == key then (key,value) else field).lookup other =
      if other = key then (object.lookup other).map fun _ => value else object.lookup other := by
  induction object with
  | nil => simp
  | cons field rest ih =>
    obtain ⟨name,old⟩ := field
    cases here : other == name with
    | true =>
      cases eq_of_beq here
      by_cases same : other = key <;> simp [same]
    | false =>
      by_cases same : name = key
      · subst same
        simp only [List.map_cons,beq_self_eq_true,if_true,List.lookup_cons,here,ih]
      · simp only [List.map_cons,beq_false_of_ne same,Bool.false_eq_true,if_false,List.lookup_cons,here,ih]

theorem getSet (object : Object) (key other : String) (value : Json) :
    get (set object key value) other = if other = key then some value else get object other := by
  unfold get set
  split
  · rename_i present
    rw [lookupMapped]
    split
    · rename_i same
      subst same
      obtain ⟨field,member,named⟩ := List.any_eq_true.mp present
      have found : (object.lookup other).isSome := by
        rw [List.lookup_isSome_iff]
        exact ⟨field,member,beq_iff_eq.mpr (eq_of_beq named).symm⟩
      obtain ⟨old,here⟩ := Option.isSome_iff_exists.mp found
      rw [here]
      rfl
    · rfl
  · rename_i absent
    rw [List.lookup_append]
    by_cases same : other = key
    · subst same
      have missing : object.lookup other = none := by
        refine List.lookup_eq_none_iff.mpr fun field member => ?_
        cases named : field.1 == other with
        | true => exact absurd (List.any_eq_true.mpr ⟨field,member,named⟩) absent
        | false => exact bne_iff_ne.mpr (Ne.symm (ne_of_beq_false named))
      simp [missing]
    · simp [same,List.lookup_cons,beq_false_of_ne same]
def items : Option Json → List Json
  | some (.arr items) => items
  | _ => []

end Json
end McpMemory
