import McpMemory.Memory.ActionValues

/-! `canonicalize` on values whose objects have plain names, each once: it returns, and a value that
was dumped and read back has the text that it had. -/
namespace McpMemory.Canonical
open Memory Text

section
variable (env : Canonical.Env)

mutual

/- What `normalize` makes of a value. -/
def normalForm : Json → Json
  | .str value => .str (normalizeText env value)
  | .arr items => .arr (normalItems items)
  | .obj fields => .obj (normalFields fields)
  | value => value

def normalItems : List Json → List Json
  | [] => []
  | item::rest => normalForm item :: normalItems rest

def normalFields : List (String × Json) → List (String × Json)
  | [] => []
  | (name,value)::rest => (name,normalForm value) :: normalFields rest

end

end

section
variable {env : Canonical.Env}

theorem normalItemsMap (items : List Json) : normalItems env items = items.map (normalForm env) := by
  induction items with
  | nil => rfl
  | cons item rest ih => rw [normalItems,ih,List.map_cons]

theorem normalFieldsMap (fields : List (String × Json)) :
    normalFields env fields = fields.map fun field => (field.1,normalForm env field.2) := by
  induction fields with
  | nil => rfl
  | cons field rest ih => rw [normalFields,ih,List.map_cons]

theorem normalFieldsKeys (fields : List (String × Json)) : (normalFields env fields).map (·.1) = fields.map (·.1) := by
  rw [normalFieldsMap,List.map_map]
  rfl

theorem normalizeItemsNormal {items : List Json}
    (each : ∀ item ∈ items, normalize env item = .ok (normalForm env item)) :
    normalizeItems env items = .ok (normalItems env items) := by
  induction items with
  | nil => rfl
  | cons item rest ih =>
    rw [List.forall_mem_cons] at each
    rw [normalizeItems,each.1,ih each.2]
    rfl

/- Plain names are left alone, so none meets another. -/
theorem normalizeFieldsNormal (steady : Steady env.unicode) {seen : List String} {fields : List (String × Json)}
    (distinct : (fields.map (·.1)).Nodup) (fresh : ∀ field ∈ fields, field.1 ∉ seen)
    (plain : ∀ field ∈ fields, isPlain field.1)
    (each : ∀ field ∈ fields, normalize env field.2 = .ok (normalForm env field.2)) :
    normalizeFields env seen fields = .ok (normalFields env fields) := by
  induction fields generalizing seen with
  | nil => rfl
  | cons field rest ih =>
    obtain ⟨key,value⟩ := field
    rw [List.map_cons,List.nodup_cons] at distinct
    rw [List.forall_mem_cons] at fresh plain each
    have later : ∀ field ∈ rest, field.1 ∉ key::seen := by
      intro other member
      rw [List.mem_cons]
      rintro (same | old)
      · exact distinct.1 (List.mem_map.mpr ⟨other,member,same⟩)
      · exact fresh.2 other member old
    have here : seen.contains key = false := by simpa using fresh.1
    rw [normalizeFields]
    simp only [normalPlain steady plain.1,here,each.1,ih distinct.2 later plain.2 each.2]
    rfl

mutual

theorem normalizeNormal (steady : Steady env.unicode) : ∀ {value : Json}, WellKeyed value →
    normalize env value = .ok (normalForm env value)
  | .null,_ | .bool _,_ | .int _,_ | .str _,_ => rfl
  | .arr items,keyed => by
    rw [Canonical.normalize,normalizeItemsNormal (normalizeEach steady keyed)]
    rfl
  | .obj fields,keyed => by
    rw [Canonical.normalize,normalizeFieldsNormal steady keyed.1 (fun _ _ => List.not_mem_nil) keyed.2.1
      (normalizeField steady keyed.2.2)]
    rfl

theorem normalizeEach (steady : Steady env.unicode) : ∀ {items : List Json}, WellKeyedItems items →
    ∀ item ∈ items, normalize env item = .ok (normalForm env item)
  | [],_ => fun _ none => absurd none List.not_mem_nil
  | _::_,keyed => List.forall_mem_cons.mpr ⟨normalizeNormal steady keyed.1,normalizeEach steady keyed.2⟩

theorem normalizeField (steady : Steady env.unicode) : ∀ {fields : List (String × Json)}, WellKeyedFields fields →
    ∀ field ∈ fields, normalize env field.2 = .ok (normalForm env field.2)
  | [],_ => fun _ none => absurd none List.not_mem_nil
  | (_,_)::_,keyed => List.forall_mem_cons.mpr ⟨normalizeNormal steady keyed.1,normalizeField steady keyed.2⟩

end

mutual

theorem normalDistinct : ∀ {value : Json}, WellKeyed value → Distinct (normalForm env value)
  | .null,_ | .bool _,_ | .int _,_ | .str _,_ => trivial
  | .arr _,keyed => normalDistinctItems keyed
  | .obj fields,keyed => ⟨normalFieldsKeys fields ▸ keyed.1,normalDistinctFields keyed.2.2⟩

theorem normalDistinctItems : ∀ {items : List Json}, WellKeyedItems items → DistinctItems (normalItems env items)
  | [],_ => trivial
  | _::_,keyed => ⟨normalDistinct keyed.1,normalDistinctItems keyed.2⟩

theorem normalDistinctFields : ∀ {fields : List (String × Json)}, WellKeyedFields fields → DistinctFields (normalFields env fields)
  | [],_ => trivial
  | (_,_)::_,keyed => ⟨normalDistinct keyed.1,normalDistinctFields keyed.2⟩

end

mutual

theorem arrangedKeyed : ∀ {value : Json}, WellKeyed value → WellKeyed (arranged value)
  | .null,_ | .bool _,_ | .int _,_ | .str _,_ => trivial
  | .arr items,keyed => by
    have each := arrangedKeyedItems keyed
    refine wellKeyedItems.mpr fun value member => ?_
    rw [arrangedItemsMap] at member
    obtain ⟨item,there,rfl⟩ := List.mem_map.mp member
    exact each item there
  | .obj fields,keyed => by
    have each := arrangedKeyedFields keyed.2.2
    have perm := sortKeysPerm (fields.map fun field => (field.1,arranged field.2))
    have names : (fields.map fun field => (field.1,arranged field.2)).map (·.1) = fields.map (·.1) := by
      rw [List.map_map]
      rfl
    rw [arrangedObject keyed.1]
    refine ⟨(perm.map (·.1)).nodup_iff.mpr (names ▸ keyed.1),fun field member => ?_,wellKeyedFields.mpr fun field member => ?_⟩
    · obtain ⟨old,there,rfl⟩ := List.mem_map.mp (perm.mem_iff.mp member)
      exact keyed.2.1 old there
    · obtain ⟨old,there,rfl⟩ := List.mem_map.mp (perm.mem_iff.mp member)
      exact each old there

theorem arrangedKeyedItems : ∀ {items : List Json}, WellKeyedItems items → ∀ item ∈ items, WellKeyed (arranged item)
  | [],_ => fun _ none => absurd none List.not_mem_nil
  | _::_,keyed => List.forall_mem_cons.mpr ⟨arrangedKeyed keyed.1,arrangedKeyedItems keyed.2⟩

theorem arrangedKeyedFields : ∀ {fields : List (String × Json)}, WellKeyedFields fields →
    ∀ field ∈ fields, WellKeyed (arranged field.2)
  | [],_ => fun _ none => absurd none List.not_mem_nil
  | (_,_)::_,keyed => List.forall_mem_cons.mpr ⟨arrangedKeyed keyed.1,arrangedKeyedFields keyed.2⟩

end

mutual

/- The order of the fields is nothing to the normal form. -/
theorem normalArranged : ∀ {value : Json}, WellKeyed value → normalForm env (arranged value) = arranged (normalForm env value)
  | .null,_ | .bool _,_ | .int _,_ | .str _,_ => rfl
  | .arr items,keyed => by
    have each := @normalArrangedItems items keyed
    rw [arranged,normalForm,normalForm,arranged,normalItemsMap,normalItemsMap,arrangedItemsMap,arrangedItemsMap,
      List.map_map,List.map_map]
    exact congrArg Json.arr (List.map_congr_left each)
  | .obj fields,keyed => by
    have each := @normalArrangedFields fields keyed.2.2
    have names : ((normalFields env fields).map (·.1)).Nodup := normalFieldsKeys fields ▸ keyed.1
    rw [arrangedObject keyed.1,normalForm,normalForm,arrangedObject names,normalFieldsMap,normalFieldsMap,← sortKeysMap,
      List.map_map,List.map_map]
    refine congrArg (Json.obj ∘ sortKeys) (List.map_congr_left fun field member => ?_)
    exact congrArg (Prod.mk field.1) (each field member)

theorem normalArrangedItems : ∀ {items : List Json}, WellKeyedItems items →
    ∀ item ∈ items, normalForm env (arranged item) = arranged (normalForm env item)
  | [],_ => fun _ none => absurd none List.not_mem_nil
  | _::_,keyed => List.forall_mem_cons.mpr ⟨normalArranged keyed.1,normalArrangedItems keyed.2⟩

theorem normalArrangedFields : ∀ {fields : List (String × Json)}, WellKeyedFields fields →
    ∀ field ∈ fields, normalForm env (arranged field.2) = arranged (normalForm env field.2)
  | [],_ => fun _ none => absurd none List.not_mem_nil
  | (_,_)::_,keyed => List.forall_mem_cons.mpr ⟨normalArranged keyed.1,normalArrangedFields keyed.2⟩

end

variable (steady : Steady env.unicode)
include steady

theorem canonicalizeKeyed {value : Json} (keyed : WellKeyed value) :
    canonicalize env value = .ok (textOf (normalForm env value)) := by
  rw [canonicalize,normalizeNormal steady keyed]
  rfl

theorem canonicalizeArranged {value : Json} (keyed : WellKeyed value) :
    canonicalize env (arranged value) = canonicalize env value := by
  rw [canonicalizeKeyed steady keyed,canonicalizeKeyed steady (arrangedKeyed keyed),normalArranged keyed,textOf,
    dumpArranged compact _ (normalDistinct keyed)]
  rfl

theorem canonicalizeSame {value other : Json} (keyed : WellKeyed value) (keyed' : WellKeyed other) :
    canonicalize env value = canonicalize env other ↔ arranged (normalForm env value) = arranged (normalForm env other) := by
  rw [canonicalizeKeyed steady keyed,canonicalizeKeyed steady keyed',Except.ok.injEq]
  exact sameTextOf (normalDistinct keyed) (normalDistinct keyed')

theorem canonicalizeFields {fields others : List (String × Json)} (keyed : WellKeyed (.obj fields)) (keyed' : WellKeyed (.obj others)) :
    canonicalize env (.obj fields) = canonicalize env (.obj others) ↔
      (fields.map fun field => (field.1,arranged (normalForm env field.2))).Perm
        (others.map fun field => (field.1,arranged (normalForm env field.2))) := by
  rw [canonicalizeSame steady keyed keyed',normalForm,normalForm,sameObject (normalFieldsKeys fields ▸ keyed.1)
    (normalFieldsKeys others ▸ keyed'.1),normalFieldsMap,normalFieldsMap,List.map_map,List.map_map]
  rfl

omit steady in
theorem filterKeyed (keep : String × Json → Bool) {fields : List (String × Json)} (keyed : WellKeyed (.obj fields)) :
    WellKeyed (.obj (fields.filter keep)) := by
  refine ⟨keyed.1.sublist (List.filter_sublist.map _),fun field member => keyed.2.1 field (List.mem_of_mem_filter member),
    wellKeyedFields.mpr fun field member => ?_⟩
  exact wellKeyedFields.mp keyed.2.2 field (List.mem_of_mem_filter member)

/- Objects of one shape agree if their values do. -/
theorem canonicalizeShape {fields others : List (String × Json)} (keyed : WellKeyed (.obj fields)) (keyed' : WellKeyed (.obj others))
    (keys : fields.map (·.1) = others.map (·.1)) : canonicalize env (.obj fields) = canonicalize env (.obj others) ↔
      fields.map (fun field => arranged (normalForm env field.2)) = others.map fun field => arranged (normalForm env field.2) := by
  rw [canonicalizeSame steady keyed keyed',normalForm,normalForm,sameShape (by rw [normalFieldsKeys,normalFieldsKeys,keys])
    (normalFieldsKeys fields ▸ keyed.1),normalFieldsMap,normalFieldsMap,List.map_map,List.map_map]
  rfl

/- Objects that agree do so in each field. -/
theorem canonicalizeField {fields others : List (String × Json)} (keyed : WellKeyed (.obj fields)) (keyed' : WellKeyed (.obj others))
    (same : canonicalize env (.obj fields) = canonicalize env (.obj others)) {key : String} {value other : Json}
    (left : (key,value) ∈ fields) (right : (key,other) ∈ others) :
    arranged (normalForm env value) = arranged (normalForm env other) := by
  have perm := (canonicalizeFields steady keyed keyed').mp same
  obtain ⟨field,there,found⟩ := List.mem_map.mp (perm.mem_iff.mp (List.mem_map_of_mem left))
  have named : field.1 = key := congrArg (·.1) found
  obtain rfl : field = (key,other) := List.inj_on_of_nodup_map keyed'.1 there right named
  exact (congrArg (·.2) found).symm

/- An object agrees with another if each of two parts of it does. -/
theorem canonicalizeParts (part : String → Bool) {fields others : List (String × Json)} (keyed : WellKeyed (.obj fields))
    (keyed' : WellKeyed (.obj others)) : canonicalize env (.obj fields) = canonicalize env (.obj others) ↔
      canonicalize env (.obj (fields.filter (part ·.1))) = canonicalize env (.obj (others.filter (part ·.1))) ∧
      canonicalize env (.obj (fields.filter (!part ·.1))) = canonicalize env (.obj (others.filter (!part ·.1))) := by
  let form (field : String × Json) : String × Json := (field.1,arranged (normalForm env field.2))
  have parts (keep : String → Bool) (fields : List (String × Json)) :
      (fields.filter (keep ·.1)).map form = (fields.map form).filter (keep ·.1) := by
    rw [List.filter_map]
    rfl
  rw [canonicalizeFields steady keyed keyed',canonicalizeFields steady (filterKeyed _ keyed) (filterKeyed _ keyed'),
    canonicalizeFields steady (filterKeyed _ keyed) (filterKeyed _ keyed')]
  have first := parts part
  have rest := parts (!part ·)
  show (fields.map form).Perm (others.map form) ↔ ((fields.filter _).map form).Perm ((others.filter _).map form) ∧
    ((fields.filter _).map form).Perm ((others.filter _).map form)
  rw [first,first,rest,rest]
  constructor
  · intro perm
    exact ⟨perm.filter _,perm.filter _⟩
  · rintro ⟨some,others'⟩
    have whole (values : List (String × Json)) : (values.filter (part ·.1) ++ values.filter (!part ·.1)).Perm values := by
      simpa using List.filter_append_perm (fun field : String × Json => part field.1) values
    exact (whole _).symm.trans ((some.append others').trans (whole _))

end

end McpMemory.Canonical
