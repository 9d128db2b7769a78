import McpMemory.Memory.Identity

/-! Values that have a canonical form. The only refusal is a key that two fields of an object
share after normalisation, so plain and distinct keys are enough. -/
namespace McpMemory.Memory
open Canonical Text

variable {env : Canonical.Env}

def Normal (env : Canonical.Env) (value : Json) : Prop := ∃ result, normalize env value = .ok result

theorem plainText (plain : env.unicode.Plain) {text : String} (fine : isPlain text) :
    normalizeText env text = text := by
  unfold normalizeText
  rw [plain.nfc text fine,lineEndingsPlain,String.ofList_toList]
  intro member
  have here := List.all_eq_true.mp fine _ member
  simp at here

theorem normalString (text : String) : Normal env (.str text) := ⟨_,rfl⟩

theorem normalItems {items : List Json} (each : ∀ item ∈ items, Normal env item) : Normal env (.arr items) := by
  have whole : ∃ result, normalizeItems env items = .ok result := by
    induction items with
    | nil => exact ⟨_,rfl⟩
    | cons item rest ih =>
      obtain ⟨first,head⟩ := each item List.mem_cons_self
      obtain ⟨others,tail⟩ := ih fun other member => each other (List.mem_cons_of_mem _ member)
      exact ⟨first::others,by simp only [normalizeItems,head,tail,bind,Except.bind]⟩
  obtain ⟨result,done⟩ := whole
  exact ⟨.arr result,by rw [Canonical.normalize,done]; rfl⟩

theorem normalStrings (texts : List String) : Normal env (.arr (texts.map .str)) :=
  normalItems fun item member => by
    obtain ⟨text,_,rfl⟩ := List.mem_map.mp member
    exact normalString text

theorem normalFields (plain : env.unicode.Plain) {fields : Json.Object}
    (named : ∀ field ∈ fields, isPlain field.1 ∧ Normal env field.2)
    (distinct : (fields.map (·.1)).Nodup) : Normal env (.obj fields) := by
  have whole : ∀ seen : List String, (∀ key ∈ seen, key ∉ fields.map (·.1)) →
      ∃ result, normalizeFields env seen fields = .ok result := by
    induction fields with
    | nil => exact fun _ _ => ⟨_,rfl⟩
    | cons field rest ih =>
      obtain ⟨key,value⟩ := field
      intro seen apart
      obtain ⟨fine,normal,head⟩ := named _ List.mem_cons_self
      rw [List.map_cons,List.nodup_cons] at distinct
      have fresh : seen.contains key = false := by
        rw [List.contains_eq_mem,decide_eq_false_iff_not]
        exact fun member => apart key member (List.mem_cons_self ..)
      obtain ⟨others,tail⟩ := ih (fun other member => named other (List.mem_cons_of_mem _ member)) distinct.2
        (key::seen) fun other member => by
          rcases List.mem_cons.mp member with rfl | member
          · exact distinct.1
          · exact fun here => apart other member (List.mem_cons_of_mem _ here)
      refine ⟨(key,normal)::others,?_⟩
      simp only [normalizeFields,plainText plain fine,fresh,head,tail,bind,Except.bind,Bool.false_eq_true,if_false]
  obtain ⟨result,done⟩ := whole [] fun _ member => by cases member
  exact ⟨.obj result,by rw [Canonical.normalize,done]; rfl⟩

theorem normalHash {value : Json} (normal : Normal env value) : ∃ hash, stableHash env value = .ok hash := by
  obtain ⟨result,done⟩ := normal
  exact ⟨_,by rw [stableHash,canonicalize,done]; rfl⟩

mutual

/- Every object in the value has plain and distinct keys. -/
def Tidy : Json → Prop
  | .obj fields => (fields.map (·.1)).Nodup ∧ TidyFields fields
  | .arr items => TidyItems items
  | _ => True

def TidyItems : List Json → Prop
  | [] => True
  | item::rest => Tidy item ∧ TidyItems rest

def TidyFields : List (String × Json) → Prop
  | [] => True
  | (key,value)::rest => isPlain key ∧ Tidy value ∧ TidyFields rest

end

theorem tidyItemsEach {items : List Json} : TidyItems items ↔ ∀ item ∈ items, Tidy item := by
  induction items with
  | nil => simp [TidyItems]
  | cons item rest ih => simp [TidyItems,ih]

theorem tidyFieldsEach {fields : Json.Object} :
    TidyFields fields ↔ ∀ field ∈ fields, isPlain field.1 ∧ Tidy field.2 := by
  induction fields with
  | nil => simp [TidyFields]
  | cons field rest ih => simp [TidyFields,ih,and_assoc]

mutual

theorem tidyNormal (plain : env.unicode.Plain) : ∀ value : Json, Tidy value → Normal env value
  | .null,_ => ⟨_,rfl⟩
  | .bool _,_ => ⟨_,rfl⟩
  | .int _,_ => ⟨_,rfl⟩
  | .str text,_ => normalString text
  | .arr items,tidy => by
    rw [Tidy] at tidy
    exact normalItems (tidyNormalItems plain items tidy)
  | .obj fields,tidy => by
    rw [Tidy] at tidy
    exact normalFields plain (tidyNormalFields plain fields tidy.2) tidy.1

theorem tidyNormalItems (plain : env.unicode.Plain) : ∀ items : List Json, TidyItems items →
    ∀ item ∈ items, Normal env item
  | [],_,_,member => by cases member
  | item::rest,tidy,other,member => by
    rw [TidyItems] at tidy
    rcases List.mem_cons.mp member with same | member
    · exact same ▸ tidyNormal plain item tidy.1
    · exact tidyNormalItems plain rest tidy.2 other member

theorem tidyNormalFields (plain : env.unicode.Plain) : ∀ fields : Json.Object, TidyFields fields →
    ∀ field ∈ fields, isPlain field.1 ∧ Normal env field.2
  | [],_,_,member => by cases member
  | (key,value)::rest,tidy,other,member => by
    rw [TidyFields] at tidy
    rcases List.mem_cons.mp member with same | member
    · exact same ▸ ⟨tidy.1,tidyNormal plain value tidy.2.1⟩
    · exact tidyNormalFields plain rest tidy.2.2 other member

end

theorem setFresh {object : Json.Object} {key value} (absent : key ∉ object.map (·.1)) :
    Json.set object key value = object ++ [(key,value)] := by
  unfold Json.set
  rw [if_neg]
  simpa using absent

/- What the normal form of an action keeps: the keys, and that the value is tidy. -/

theorem tidyUnique (plain : env.unicode.Plain) {items : List Json} (tidy : TidyItems items) :
    ∃ result, uniqueItems env items = .ok result ∧ TidyItems result := by
  have keyed : ∃ keyed, (items.mapM fun item => do .ok ((← canonicalize env item),item)) =
      (.ok keyed : Except String (List (String × Json))) ∧ ∀ pair ∈ keyed, pair.2 ∈ items := by
    have normal := tidyNormalItems plain items tidy
    clear tidy
    induction items with
    | nil => exact ⟨[],rfl,fun _ member => by cases member⟩
    | cons item rest ih =>
      obtain ⟨first,head⟩ := normal item List.mem_cons_self
      obtain ⟨others,tail,inside⟩ := ih fun other member => normal other (List.mem_cons_of_mem _ member)
      refine ⟨(String.ofList (dump compact first),item)::others,?_,fun pair member => ?_⟩
      · rw [List.mapM_cons,tail,canonicalize,head]
        rfl
      · rcases List.mem_cons.mp member with rfl | member
        · exact List.mem_cons_self
        · exact List.mem_cons_of_mem _ (inside pair member)
  obtain ⟨keyed,done,inside⟩ := keyed
  refine ⟨_,by rw [uniqueItems,done]; rfl,tidyItemsEach.mpr fun item member => ?_⟩
  obtain ⟨key,_,found⟩ := List.mem_filterMap.mp member
  obtain ⟨pair,look,rfl⟩ := Option.map_eq_some_iff.mp found
  have here := List.mem_of_find?_eq_some look
  rw [List.mem_reverse] at here
  exact tidyItemsEach.mp tidy _ (inside pair here)

mutual

theorem tidyAction (plain : env.unicode.Plain) : ∀ (value : Json) (key : Option String), Tidy value →
    ∃ result, canonicalActionValue env key value = .ok result ∧ Tidy result
  | .null,_,_ => ⟨_,rfl,trivial⟩
  | .bool _,_,_ => ⟨_,rfl,trivial⟩
  | .int _,_,_ => ⟨_,rfl,trivial⟩
  | .str _,_,_ => ⟨_,rfl,trivial⟩
  | .arr items,key,tidy => by
    rw [Tidy] at tidy
    obtain ⟨done,read,fine⟩ := tidyActionItems plain items key tidy
    rw [canonicalActionValue,read]
    by_cases asSet : actionSetListKeys.contains (key.getD "")
    · obtain ⟨unique,deduped,finer⟩ := tidyUnique plain fine
      exact ⟨.arr unique,by simp only [asSet,deduped,bind,Except.bind,if_true],finer⟩
    · exact ⟨.arr done,by simp only [asSet,bind,Except.bind]; rfl,fine⟩
  | .obj fields,key,tidy => by
    rw [Tidy] at tidy
    obtain ⟨done,read,distinct,fine⟩ := tidyActionFields plain fields [] (by simpa using tidy.1) tidy.2 trivial
    rw [canonicalActionValue,read]
    exact ⟨.obj done,rfl,distinct,fine⟩

theorem tidyActionItems (plain : env.unicode.Plain) : ∀ (items : List Json) (key : Option String),
    TidyItems items → ∃ result, canonicalActionItems env key items = .ok result ∧ TidyItems result
  | [],_,_ => ⟨[],rfl,trivial⟩
  | item::rest,key,tidy => by
    rw [TidyItems] at tidy
    obtain ⟨first,head,fine⟩ := tidyAction plain item key tidy.1
    obtain ⟨others,tail,finer⟩ := tidyActionItems plain rest key tidy.2
    exact ⟨first::others,by simp only [canonicalActionItems,head,tail,bind,Except.bind],fine,finer⟩

theorem tidyActionFields (plain : env.unicode.Plain) : ∀ (fields done : Json.Object),
    ((done ++ fields).map (·.1)).Nodup → TidyFields fields → TidyFields done →
    ∃ result, canonicalActionFields env done fields = .ok result ∧ (result.map (·.1)).Nodup ∧
      TidyFields result
  | [],done,distinct,_,fine => ⟨done,rfl,by simpa using distinct,fine⟩
  | (key,value)::rest,done,distinct,tidy,fine => by
    rw [TidyFields] at tidy
    obtain ⟨named,kept,others⟩ := tidy
    obtain ⟨result,read,finer⟩ := tidyAction plain value (some key) kept
    have absent : key ∉ done.map (·.1) := by
      rw [List.map_append,List.nodup_append] at distinct
      exact fun member => distinct.2.2 key member key (by simp) rfl
    have grown : TidyFields (done ++ [(key,result)]) := by
      rw [tidyFieldsEach] at fine ⊢
      intro field member
      rcases List.mem_append.mp member with old | new
      · exact fine field old
      · rw [List.mem_singleton.mp new]; exact ⟨named,finer⟩
    obtain ⟨whole,tail,unique,tidied⟩ := tidyActionFields plain rest (done ++ [(key,result)])
      (by simpa using distinct) others grown
    refine ⟨whole,?_,unique,tidied⟩
    simp only [canonicalActionFields,plainText plain named,read,bind,Except.bind,setFresh absent,tail]

end

theorem tidyIntent (plain : env.unicode.Plain) {intent : Intent} (payload : Tidy intent.payload)
    (preconditions : Tidy intent.preconditions) (tokens : (intent.expectedTokens.map (·.1)).Nodup)
    (plainTokens : ∀ item ∈ intent.expectedTokens, isPlain item.1) :
    ∃ hash, actionIntentToken env intent = .ok hash := by
  have tidy : Tidy (.obj [("schema_version",.int 1),("operation",.str intent.operation),
      ("target_ids",.arr (intent.targetIds.map .str)),
      ("expected_tokens",.obj (intent.expectedTokens.map fun item => (item.1,.str item.2))),
      ("preconditions",intent.preconditions),("payload",intent.payload)]) := by
    have targets : TidyItems (intent.targetIds.map Json.str) := tidyItemsEach.mpr fun item member => by
      obtain ⟨_,_,rfl⟩ := List.mem_map.mp member
      trivial
    have expected : TidyFields (intent.expectedTokens.map fun item => (item.1,Json.str item.2)) :=
      tidyFieldsEach.mpr fun field member => by
        obtain ⟨item,here,rfl⟩ := List.mem_map.mp member
        exact ⟨plainTokens item here,trivial⟩
    refine ⟨by simp,by decide,trivial,by decide,trivial,by decide,targets,by decide,⟨?_,expected⟩,by decide,
      preconditions,by decide,payload,trivial⟩
    simpa [List.map_map,Function.comp_def] using tokens
  obtain ⟨result,read,fine⟩ := tidyAction plain _ none tidy
  obtain ⟨hash,hashed⟩ := normalHash (tidyNormal plain result fine)
  exact ⟨hash,(congrArg (· >>= stableHash env) read).trans hashed⟩

end McpMemory.Memory
