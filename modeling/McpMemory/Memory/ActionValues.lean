import McpMemory.Memory.Identity
import McpMemory.Memory.Written

/-! `canonicalize_action_value` on values whose objects have plain names, each once: it returns, a
second pass changes nothing, and a set is told by its members alone. -/
namespace McpMemory.Memory
open Canonical Text

/- A normal form is normal, also once its line endings are. -/
structure Steady (unicode : Unicode) : Prop extends unicode.Plain where
  lines : ∀ text, unicode.nfc (String.ofList (lineEndings (unicode.nfc text).toList)) =
    String.ofList (lineEndings (unicode.nfc text).toList)

section
variable {env : Canonical.Env}

theorem lineEndingsClear (text : List Char) : '\r' ∉ lineEndings text := by
  fun_induction lineEndings text with
  | case1 rest ih => simpa using ih
  | case2 rest _ ih => simpa using ih
  | case3 c rest _ other ih =>
    rintro (_ | ⟨_,member⟩)
    · exact other rfl
    · exact ih member
  | case4 => simp

theorem normalClear (value : String) : '\r' ∉ (normalizeText env value).toList := by
  rw [normalizeText,String.toList_ofList]
  exact lineEndingsClear _

variable (steady : Steady env.unicode)
include steady

/- Any part of a normalised text is left alone. -/
theorem normalPart {value part : String} (inside : part.toList <:+: (normalizeText env value).toList) :
    normalizeText env part = part := by
  have fixed : env.unicode.nfc (normalizeText env value) = normalizeText env value := steady.lines value
  have same : env.unicode.nfc part = part := env.unicode.nfcPart _ part (by rwa [fixed])
  rw [normalizeText,same,lineEndingsPlain fun member => normalClear value (inside.subset member),String.ofList_toList]

theorem normalIdem (value : String) : normalizeText env (normalizeText env value) = normalizeText env value :=
  normalPart steady List.infix_rfl

theorem normalCollapse (value : String) : normalizeText env (collapseText env value) = collapseText env value :=
  normalPart steady (stripInfix _)

theorem collapseIdem (value : String) : collapseText env (collapseText env value) = collapseText env value := by
  show strip (normalizeText env (collapseText env value)) = _
  rw [normalCollapse steady,collapseText,stripIdem]

theorem normalPlain {value : String} (plain : isPlain value) : normalizeText env value = value := by
  have clear : '\r' ∉ value.toList := fun member => by
    have here := List.all_eq_true.mp plain _ member
    simp at here
  rw [normalizeText,steady.nfc value plain,lineEndingsPlain clear,String.ofList_toList]

end

mutual

/- The names of every object are plain and stand there once. -/
def WellKeyed : Json → Prop
  | .arr items => WellKeyedItems items
  | .obj fields => (fields.map (·.1)).Nodup ∧ (∀ field ∈ fields, isPlain field.1) ∧ WellKeyedFields fields
  | _ => True

def WellKeyedItems : List Json → Prop
  | [] => True
  | item::rest => WellKeyed item ∧ WellKeyedItems rest

def WellKeyedFields : List (String × Json) → Prop
  | [] => True
  | (_,value)::rest => WellKeyed value ∧ WellKeyedFields rest

end

theorem wellKeyedItems {items : List Json} : WellKeyedItems items ↔ ∀ item ∈ items, WellKeyed item := by
  induction items with
  | nil => simp [WellKeyedItems]
  | cons item rest ih => simp [WellKeyedItems,ih]

theorem wellKeyedFields {fields : List (String × Json)} : WellKeyedFields fields ↔ ∀ field ∈ fields, WellKeyed field.2 := by
  induction fields with
  | nil => simp [WellKeyedFields]
  | cons field rest ih => simp [WellKeyedFields,ih]

mutual

theorem wellKeyedDistinct : ∀ {value : Json}, WellKeyed value → Distinct value
  | .null,_ | .bool _,_ | .int _,_ | .str _,_ => trivial
  | .arr _,keyed => wellKeyedDistinctItems keyed
  | .obj _,keyed => ⟨keyed.1,wellKeyedDistinctFields keyed.2.2⟩

theorem wellKeyedDistinctItems : ∀ {items : List Json}, WellKeyedItems items → DistinctItems items
  | [],_ => trivial
  | _::_,keyed => ⟨wellKeyedDistinct keyed.1,wellKeyedDistinctItems keyed.2⟩

theorem wellKeyedDistinctFields : ∀ {fields : List (String × Json)}, WellKeyedFields fields → DistinctFields fields
  | [],_ => trivial
  | (_,_)::_,keyed => ⟨wellKeyedDistinct keyed.1,wellKeyedDistinctFields keyed.2⟩

end

theorem sortedSetNodup (values : List String) : (sortedSet values).Nodup :=
  (List.perm_insertionSort _ _).nodup_iff.mpr (List.nodup_dedup values)

theorem sortedSetSame {values others : List String} : sortedSet values = sortedSet others ↔
    ∀ text, text ∈ values ↔ text ∈ others := by
  constructor
  · intro same text
    rw [← memSortedSet,same,memSortedSet]
  · intro same
    have perm : (sortedSet values).Perm (sortedSet others) :=
      (List.perm_ext_iff_of_nodup (sortedSetNodup values) (sortedSetNodup others)).mpr fun text => by
        rw [memSortedSet,memSortedSet,same]
    exact perm.eq_of_pairwise (fun _ _ _ _ => le_antisymm) (List.pairwise_insertionSort _ _) (List.pairwise_insertionSort _ _)

theorem sortedSetIdem (values : List String) : sortedSet (sortedSet values) = sortedSet values :=
  sortedSetSame.mpr fun _ => memSortedSet

/- The canonical text of a value that is normalised already. -/
def textOf (value : Json) : String := String.ofList (dump compact value)

theorem sameTextOf {value other : Json} (left : Distinct value) (right : Distinct other) :
    textOf value = textOf other ↔ arranged value = arranged other := by
  rw [← sameText compactMarked left right]
  exact ⟨String.ofList_injective,congrArg String.ofList⟩

/- The items of a set, each once, in the order of their texts. -/
def uniques (items : List Json) : List Json :=
  (sortedSet (items.map textOf)).filterMap fun text => items.reverse.find? (textOf · == text)

section
variable (env : Canonical.Env)

def identityText (key : Option String) (value : String) : String :=
  if actionIdentifierKeys.contains (key.getD "") then collapseText env value else normalizeText env value

def isSetKey (key : Option String) : Bool := actionSetListKeys.contains (key.getD "")

mutual

/- What `canonicalize_action_value` makes of a value, and of one that stands under a key. -/
def canonValue (key : Option String) : Json → Json
  | .str value => .str (identityText env key value)
  | .arr items => .arr (if isSetKey key then uniques (canonItems key items) else canonItems key items)
  | .obj fields => .obj (canonFields fields)
  | value => value

def canonItems (key : Option String) : List Json → List Json
  | [] => []
  | item::rest => canonValue key item :: canonItems key rest

def canonFields : List (String × Json) → List (String × Json)
  | [] => []
  | (name,value)::rest => (name,canonValue (some name) value) :: canonFields rest

end

end

section
variable {env : Canonical.Env}

theorem canonItemsMap (key : Option String) (items : List Json) : canonItems env key items = items.map (canonValue env key) := by
  induction items with
  | nil => rfl
  | cons item rest ih => rw [canonItems,ih,List.map_cons]

theorem canonFieldsMap (fields : List (String × Json)) :
    canonFields env fields = fields.map fun field => (field.1,canonValue env (some field.1) field.2) := by
  induction fields with
  | nil => rfl
  | cons field rest ih => rw [canonFields,ih,List.map_cons]

theorem canonFieldsKeys (fields : List (String × Json)) : (canonFields env fields).map (·.1) = fields.map (·.1) := by
  rw [canonFieldsMap,List.map_map]
  rfl

theorem uniquesFound {items : List Json} {text : String} (listed : text ∈ sortedSet (items.map textOf)) :
    ∃ item ∈ items, items.reverse.find? (textOf · == text) = some item ∧ textOf item = text := by
  obtain ⟨item,member,same⟩ := List.mem_map.mp (memSortedSet.mp listed)
  cases found : items.reverse.find? (textOf · == text) with
  | none =>
    have apart := List.find?_eq_none.mp found item (List.mem_reverse.mpr member)
    exact absurd (beq_iff_eq.mpr same) apart
  | some other =>
    exact ⟨other,List.mem_reverse.mp (List.mem_of_find?_eq_some found),rfl,eq_of_beq (List.find?_some found :)⟩

theorem memUniques {items : List Json} {item : Json} (member : item ∈ uniques items) : item ∈ items := by
  obtain ⟨text,_,found⟩ := List.mem_filterMap.mp member
  exact List.mem_reverse.mp (List.mem_of_find?_eq_some found)

theorem uniquesTexts (items : List Json) : (uniques items).map textOf = sortedSet (items.map textOf) := by
  have kept : ∀ texts : List String, (∀ text ∈ texts, text ∈ sortedSet (items.map textOf)) →
      (texts.filterMap fun text => items.reverse.find? (textOf · == text)).map textOf = texts := by
    intro texts listed
    induction texts with
    | nil => rfl
    | cons text rest ih =>
      obtain ⟨item,_,found,same⟩ := uniquesFound (listed text List.mem_cons_self)
      rw [List.filterMap_cons,found,List.map_cons,same,ih fun other member => listed other (List.mem_cons_of_mem _ member)]
  exact kept _ fun _ => id

theorem eqOfTexts {items others : List Json} (texts : items.map textOf = others.map textOf)
    (within : ∀ item ∈ items, item ∈ others) (distinct : (others.map textOf).Nodup) : items = others := by
  refine List.ext_getElem (by simpa using congrArg List.length texts) fun n left right => ?_
  refine List.inj_on_of_nodup_map distinct (within _ (List.getElem_mem left)) (List.getElem_mem right) ?_
  have same := List.getElem_of_eq texts (by simpa using left)
  simpa using same

theorem uniquesIdem (items : List Json) : uniques (uniques items) = uniques items := by
  have texts : (uniques (uniques items)).map textOf = (uniques items).map textOf := by
    rw [uniquesTexts,uniquesTexts,sortedSetIdem]
  refine eqOfTexts texts (fun item => memUniques) ?_
  rw [uniquesTexts]
  exact sortedSetNodup _

theorem normalizeItemsFixed {items : List Json} (fixed : ∀ item ∈ items, Canonical.normalize env item = .ok item) :
    normalizeItems env items = .ok items := by
  induction items with
  | nil => rfl
  | cons item rest ih =>
    rw [normalizeItems,fixed item List.mem_cons_self,ih fun other member => fixed other (List.mem_cons_of_mem _ member)]
    rfl

theorem normalizeFieldsFixed (steady : Steady env.unicode) {seen : List String} {fields : List (String × Json)}
    (distinct : (fields.map (·.1)).Nodup) (fresh : ∀ field ∈ fields, field.1 ∉ seen)
    (plain : ∀ field ∈ fields, isPlain field.1) (fixed : ∀ field ∈ fields, Canonical.normalize env field.2 = .ok field.2) :
    normalizeFields env seen fields = .ok fields := by
  induction fields generalizing seen with
  | nil => rfl
  | cons field rest ih =>
    obtain ⟨key,value⟩ := field
    rw [List.map_cons,List.nodup_cons] at distinct
    rw [List.forall_mem_cons] at fresh plain fixed
    have later : ∀ field ∈ rest, field.1 ∉ key::seen := by
      intro other member
      rw [List.mem_cons]
      rintro (same | old)
      · exact distinct.1 (List.mem_map.mpr ⟨other,member,same⟩)
      · exact fresh.2 other member old
    have here : seen.contains key = false := by simpa using fresh.1
    rw [normalizeFields]
    simp only [normalPlain steady plain.1,here,fixed.1,ih distinct.2 later plain.2 fixed.2]
    rfl

theorem uniqueItemsOk {items : List Json} (fixed : ∀ item ∈ items, Canonical.normalize env item = .ok item) :
    uniqueItems env items = .ok (uniques items) := by
  have keyed : items.mapM (fun item => do .ok ((← canonicalize env item),item) : Json → Except String (String × Json)) =
      .ok (items.map fun item => (textOf item,item)) := by
    induction items with
    | nil => rfl
    | cons item rest ih =>
      rw [List.forall_mem_cons] at fixed
      rw [List.mapM_cons,ih fixed.2,canonicalize,fixed.1]
      rfl
  have texts : (items.map fun item => (textOf item,item)).map (·.1) = items.map textOf := by
    rw [List.map_map]
    rfl
  have found (text : String) : ((items.map fun item => (textOf item,item)).reverse.find? (·.1 == text)).map (·.2) =
      items.reverse.find? (textOf · == text) := by
    rw [← List.map_reverse,List.find?_map,Option.map_map]
    exact Option.map_id'
  rw [uniqueItems,keyed]
  simp only [bind,Except.bind,texts,found]
  rfl

theorem identityNormal (steady : Steady env.unicode) (key : Option String) (value : String) :
    normalizeText env (identityText env key value) = identityText env key value := by
  unfold identityText
  split
  · exact normalCollapse steady value
  · exact normalIdem steady value

theorem identityIdem (steady : Steady env.unicode) (key : Option String) (value : String) :
    identityText env key (identityText env key value) = identityText env key value := by
  unfold identityText
  split
  · exact collapseIdem steady value
  · exact normalIdem steady value

mutual

theorem normalizeCanon (steady : Steady env.unicode) (key : Option String) : ∀ {value : Json}, WellKeyed value →
    Canonical.normalize env (canonValue env key value) = .ok (canonValue env key value)
  | .null,_ | .bool _,_ | .int _,_ => rfl
  | .str value,_ => by
    rw [canonValue,Canonical.normalize,identityNormal steady]
  | .arr items,keyed => by
    have fixed : ∀ item ∈ canonItems env key items, Canonical.normalize env item = .ok item := normalizeCanonItems steady key keyed
    rw [canonValue,Canonical.normalize]
    split
    · rw [normalizeItemsFixed fun item member => fixed item (memUniques member)]
      rfl
    · rw [normalizeItemsFixed fixed]
      rfl
  | .obj fields,keyed => by
    have fixed := normalizeCanonFields steady keyed.2.2
    have plain : ∀ field ∈ canonFields env fields, isPlain field.1 := by
      intro field member
      rw [canonFieldsMap,List.mem_map] at member
      obtain ⟨old,there,rfl⟩ := member
      exact keyed.2.1 old there
    rw [canonValue,Canonical.normalize,normalizeFieldsFixed steady (canonFieldsKeys fields ▸ keyed.1) (fun _ _ => List.not_mem_nil) plain fixed]
    rfl

theorem normalizeCanonItems (steady : Steady env.unicode) (key : Option String) : ∀ {items : List Json}, WellKeyedItems items →
    ∀ item ∈ canonItems env key items, Canonical.normalize env item = .ok item
  | [],_ => fun _ none => absurd none List.not_mem_nil
  | _::_,keyed => List.forall_mem_cons.mpr ⟨normalizeCanon steady key keyed.1,normalizeCanonItems steady key keyed.2⟩

theorem normalizeCanonFields (steady : Steady env.unicode) : ∀ {fields : List (String × Json)}, WellKeyedFields fields →
    ∀ field ∈ canonFields env fields, Canonical.normalize env field.2 = .ok field.2
  | [],_ => fun _ none => absurd none List.not_mem_nil
  | (_,_)::_,keyed =>
    List.forall_mem_cons.mpr ⟨normalizeCanon steady _ keyed.1,normalizeCanonFields steady keyed.2⟩

end

mutual

/- The pass returns. -/
theorem actionValueCanon (steady : Steady env.unicode) (key : Option String) : ∀ {value : Json}, WellKeyed value →
    canonicalActionValue env key value = .ok (canonValue env key value)
  | .null,_ | .bool _,_ | .int _,_ | .str _,_ => rfl
  | .arr items,keyed => by
    rw [canonicalActionValue,actionItemsCanon steady key keyed,canonValue]
    cases set : isSetKey key with
    | true =>
      have listed : actionSetListKeys.contains (key.getD "") = true := set
      simp only [bind,Except.bind,listed,if_true,uniqueItemsOk (normalizeCanonItems steady key keyed)]
    | false =>
      have other : actionSetListKeys.contains (key.getD "") = false := set
      simp only [bind,Except.bind,other,Bool.false_eq_true,if_false]
  | .obj fields,keyed => by
    rw [canonicalActionValue,actionFieldsCanon steady [] keyed.2.2 keyed.2.1 (by simpa using keyed.1)]
    rfl

theorem actionItemsCanon (steady : Steady env.unicode) (key : Option String) : ∀ {items : List Json}, WellKeyedItems items →
    canonicalActionItems env key items = .ok (canonItems env key items)
  | [],_ => rfl
  | _::_,keyed => by
    rw [canonicalActionItems,actionValueCanon steady key keyed.1,actionItemsCanon steady key keyed.2]
    rfl

theorem actionFieldsCanon (steady : Steady env.unicode) : ∀ {fields : List (String × Json)} (done : List (String × Json)),
    WellKeyedFields fields → (∀ field ∈ fields, isPlain field.1) → ((done ++ fields).map (·.1)).Nodup →
    canonicalActionFields env done fields = .ok (done ++ canonFields env fields)
  | [],done,_,_,_ => by rw [canonicalActionFields,canonFields,List.append_nil]
  | (name,value)::rest,done,keyed,plain,distinct => by
    rw [List.forall_mem_cons] at plain
    have fresh : done.any (·.1 == name) = false := by
      rw [List.any_eq_false]
      intro other member same
      rw [List.map_append,List.nodup_append] at distinct
      exact distinct.2.2 other.1 (List.mem_map_of_mem member) name (by simp) (eq_of_beq same)
    have added : Json.set done name (canonValue env (some name) value) = done ++ [(name,canonValue env (some name) value)] := by
      rw [Json.set,fresh]
      rfl
    have later := actionFieldsCanon steady (done ++ [(name,canonValue env (some name) value)]) keyed.2 plain.2 (by simpa using distinct)
    rw [canonicalActionFields]
    simp only [normalPlain steady plain.1,actionValueCanon steady (some name) keyed.1,bind,Except.bind,added]
    rw [later,canonFields,List.append_assoc]
    rfl

end

mutual

theorem canonWellKeyed (key : Option String) : ∀ {value : Json}, WellKeyed value → WellKeyed (canonValue env key value)
  | .null,_ | .bool _,_ | .int _,_ | .str _,_ => trivial
  | .arr items,keyed => by
    have each := canonWellKeyedItems key keyed
    rw [canonValue,WellKeyed,wellKeyedItems]
    split
    · exact fun item member => each item (memUniques member)
    · exact each
  | .obj fields,keyed => by
    rw [canonValue,WellKeyed,canonFieldsKeys,wellKeyedFields]
    refine ⟨keyed.1,fun field member => ?_,canonWellKeyedFields keyed.2.2⟩
    rw [canonFieldsMap,List.mem_map] at member
    obtain ⟨old,there,rfl⟩ := member
    exact keyed.2.1 old there

theorem canonWellKeyedItems (key : Option String) : ∀ {items : List Json}, WellKeyedItems items →
    ∀ item ∈ canonItems env key items, WellKeyed item
  | [],_ => fun _ none => absurd none List.not_mem_nil
  | _::_,keyed => List.forall_mem_cons.mpr ⟨canonWellKeyed key keyed.1,canonWellKeyedItems key keyed.2⟩

theorem canonWellKeyedFields : ∀ {fields : List (String × Json)}, WellKeyedFields fields →
    ∀ field ∈ canonFields env fields, WellKeyed field.2
  | [],_ => fun _ none => absurd none List.not_mem_nil
  | (_,_)::_,keyed => List.forall_mem_cons.mpr ⟨canonWellKeyed _ keyed.1,canonWellKeyedFields keyed.2⟩

end

mutual

/- A second pass changes nothing. -/
theorem canonIdem (steady : Steady env.unicode) (key : Option String) : ∀ {value : Json}, WellKeyed value →
    canonValue env key (canonValue env key value) = canonValue env key value
  | .null,_ | .bool _,_ | .int _,_ => rfl
  | .str value,_ => by rw [canonValue,canonValue,identityIdem steady]
  | .arr items,keyed => by
    have each := canonIdemItems steady key keyed
    have still {kept : List Json} (within : ∀ item ∈ kept, item ∈ canonItems env key items) : canonItems env key kept = kept := by
      rw [canonItemsMap]
      exact (List.map_congr_left fun item member => each item (within item member)).trans (List.map_id kept)
    rw [canonValue,canonValue]
    split
    · rw [still fun item => memUniques,uniquesIdem]
    · rw [still fun item => id]
  | .obj fields,keyed => by
    rw [canonValue,canonValue]
    congr 1
    rw [canonFieldsMap (canonFields env fields)]
    have each := canonIdemFields steady keyed.2.2
    have same : (canonFields env fields).map (fun field => (field.1,canonValue env (some field.1) field.2)) =
        (canonFields env fields).map id := List.map_congr_left fun field member => Prod.ext rfl (each field member)
    rw [same,List.map_id]

theorem canonIdemItems (steady : Steady env.unicode) (key : Option String) : ∀ {items : List Json}, WellKeyedItems items →
    ∀ item ∈ canonItems env key items, canonValue env key item = item
  | [],_ => fun _ none => absurd none List.not_mem_nil
  | _::_,keyed => List.forall_mem_cons.mpr ⟨canonIdem steady key keyed.1,canonIdemItems steady key keyed.2⟩

theorem canonIdemFields (steady : Steady env.unicode) : ∀ {fields : List (String × Json)}, WellKeyedFields fields →
    ∀ field ∈ canonFields env fields, canonValue env (some field.1) field.2 = field.2
  | [],_ => fun _ none => absurd none List.not_mem_nil
  | (_,_)::_,keyed => List.forall_mem_cons.mpr ⟨canonIdem steady _ keyed.1,canonIdemFields steady keyed.2⟩

end

/- Two lists with the same members, as far as a reading of them tells. -/
def SameMembers {α β : Type} (reading : α → β) (items others : List α) : Prop :=
  ∀ value, value ∈ items.map reading ↔ value ∈ others.map reading

theorem sameMembers {α β : Type} {reading : α → β} {items others : List α} : SameMembers reading items others ↔
    (∀ item ∈ items, ∃ other ∈ others, reading other = reading item) ∧
    ∀ other ∈ others, ∃ item ∈ items, reading item = reading other := by
  simp only [SameMembers,List.mem_map]
  constructor
  · intro same
    exact ⟨fun item member => (same _).mp ⟨item,member,rfl⟩,fun other member => (same _).mpr ⟨other,member,rfl⟩⟩
  · rintro ⟨right,left⟩ value
    constructor
    · rintro ⟨item,member,rfl⟩
      exact right item member
    · rintro ⟨other,member,rfl⟩
      exact left other member

/- Readings that tell the same items apart find the same members. -/
theorem sameReadings {α β γ : Type} {first : α → β} {second : α → γ} {items others : List α}
    (agree : ∀ item ∈ items, ∀ other ∈ others, first other = first item ↔ second other = second item) :
    SameMembers first items others ↔ SameMembers second items others := by
  rw [sameMembers,sameMembers]
  refine and_congr (forall₂_congr fun item left => exists_congr fun other => ?_)
    (forall₂_congr fun other right => exists_congr fun item => ?_)
  · exact and_congr_right fun right => agree item left other right
  · exact and_congr_right fun left => eq_comm.trans ((agree item left other right).trans eq_comm)

/- A set is written as its members are, whatever their order and number. -/
theorem sameSet {items others : List Json} (left : ∀ item ∈ items, Distinct item) (right : ∀ other ∈ others, Distinct other) :
    arranged (.arr (uniques items)) = arranged (.arr (uniques others)) ↔ SameMembers arranged items others := by
  have lists : ∀ kept rest : List Json, (∀ item ∈ kept, Distinct item) → (∀ other ∈ rest, Distinct other) →
      (kept.map arranged = rest.map arranged ↔ kept.map textOf = rest.map textOf) := by
    intro kept
    induction kept with
    | nil => intro rest _ _; cases rest <;> simp
    | cons item kept ih =>
      intro rest left right
      cases rest with
      | nil => simp
      | cons other rest =>
        rw [List.forall_mem_cons] at left right
        simp only [List.map_cons,List.cons.injEq,ih rest left.2 right.2,sameTextOf left.1 right.1]
  rw [sameItems,lists _ _ (fun item member => left item (memUniques member)) (fun other member => right other (memUniques member)),
    uniquesTexts,uniquesTexts,sortedSetSame]
  exact sameReadings fun item member other there => sameTextOf (right other there) (left item member)

end

end McpMemory.Memory
