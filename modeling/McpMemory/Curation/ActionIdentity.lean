import McpMemory.Curation.Actions

/-! Which actions share an id. -/
namespace McpMemory.Actions
open Canonical Memory Text
open History (Uuid)

variable (env : Env)

/- What an action says, with its texts in normal form. -/

def LinkAssertion.meaning (link : LinkAssertion) : LinkAssertion :=
  ⟨link.sourceId,link.targetId,collapseText env.toEnv link.linkType,link.context.map (normalizeText env.toEnv)⟩

def AbsentLinkAssertion.meaning (link : AbsentLinkAssertion) : AbsentLinkAssertion :=
  ⟨link.sourceId,link.targetId,collapseText env.toEnv link.linkType⟩

structure EvidenceMeaning where
  memoryId : Option Uuid
  link : Option LinkAssertion
  revisionToken : Option String
  excerpt : Option String

def EvidenceRef.meaning (evidence : EvidenceRef) : EvidenceMeaning :=
  ⟨evidence.memoryId,evidence.link.map (·.meaning env),evidence.revisionToken.map (normalizeText env.toEnv),
    evidence.excerpt.map (normalizeText env.toEnv)⟩

def OmittedMaterial.meaning (omitted : OmittedMaterial) : OmittedMaterial :=
  ⟨normalizeText env.toEnv omitted.material,omitted.reason⟩

def ClaimMapping.meaning (mapping : ClaimMapping) : ClaimMapping :=
  ⟨normalizeText env.toEnv mapping.output,mapping.sourceMemoryIds⟩

def ClaimManifest.meaning (manifest : ClaimManifest) : ClaimManifest :=
  ⟨manifest.preservedClaims.map (normalizeText env.toEnv),manifest.transformedClaims.map (normalizeText env.toEnv),
    manifest.omittedMaterial.map (·.meaning env),manifest.sourceMapping.map (·.meaning env),
    manifest.unresolvedTensions.map (normalizeText env.toEnv)⟩

/- The dictionaries and the two lists of links are sets. -/
structure SamePreconditions (preconditions others : ActionPreconditions) : Prop where
  recordTokens : SameMembers (fun item => (item.1,normalizeText env.toEnv item.2)) preconditions.recordTokens others.recordTokens
  requiredStatuses : SameMembers id preconditions.requiredStatuses others.requiredStatuses
  requiredLinks : SameMembers (·.meaning env) preconditions.requiredLinks others.requiredLinks
  absentLinks : SameMembers (·.meaning env) preconditions.absentLinks others.absentLinks

def SameText (text other : Option String) : Prop := text.map (normalizeText env.toEnv) = other.map (normalizeText env.toEnv)

def SameTags : Option (List String) → Option (List String) → Prop
  | none,none => True
  | some tags,some others => SameMembers (collapseText env.toEnv) tags others
  | _,_ => False

/- The kind and everything but the roles. -/
def SameParameters : Operation → Operation → Prop
  | .normalizeMemory _ title summary tags,.normalizeMemory _ title' summary' tags' =>
    SameText env title title' ∧ SameText env summary summary' ∧ SameTags env tags tags'
  | .rewriteMemory _ title content summary claimManifest,.rewriteMemory _ title' content' summary' claimManifest' =>
    SameText env title title' ∧ SameText env (some content) (some content') ∧ SameText env summary summary' ∧
      claimManifest.meaning env = claimManifest'.meaning env
  | .createLink _ _ linkType context,.createLink _ _ linkType' context'
  | .removeLink _ _ linkType context,.removeLink _ _ linkType' context' =>
    collapseText env.toEnv linkType = collapseText env.toEnv linkType' ∧ SameText env context context'
  | .mergeMemories _ _ title content summary claimManifest,.mergeMemories _ _ title' content' summary' claimManifest' =>
    SameText env title title' ∧ SameText env (some content) (some content') ∧ SameText env summary summary' ∧
      claimManifest.meaning env = claimManifest'.meaning env
  | .splitMemory _ children claimManifest,.splitMemory _ children' claimManifest' =>
    children.map (·.meaning env) = children'.map (·.meaning env) ∧ claimManifest.meaning env = claimManifest'.meaning env
  | .archiveMemory _ claimManifest,.archiveMemory _ claimManifest' => claimManifest.meaning env = claimManifest'.meaning env
  | _,_ => False

/- Everything but the roles. -/
structure AlikeButRoles (action other : CurationAction) : Prop where
  parameters : SameParameters env action.operation other.operation
  preconditions : SamePreconditions env action.preconditions other.preconditions
  evidence : SameMembers (·.meaning env) action.evidence other.evidence

structure SameOperation (action other : CurationAction) : Prop extends AlikeButRoles env action other where
  roles : SameRoles action.operation.roles other.operation.roles

/- Two operations on one set of memories that differ in the parts the memories have, and in nothing else. -/
structure RolesSwapped (action other : CurationAction) : Prop extends AlikeButRoles env action other where
  memories : SameMembers id action.operation.roles.memories other.operation.roles.memories
  roles : ¬ SameRoles action.operation.roles other.operation.roles

/- Two values under a key have one canonical text. -/
def Alike (key : Option String) (value other : Json) : Prop :=
  arranged (canonValue env.toEnv key value) = arranged (canonValue env.toEnv key other)

section
variable {env : Env} {key : Option String}

theorem alikeText (text : actionIdentifierKeys.contains (key.getD "") = false) {value other : String} :
    Alike env key (.str value) (.str other) ↔ normalizeText env.toEnv value = normalizeText env.toEnv other := by
  simp only [Alike,canonValue,identityText,text,Bool.false_eq_true,if_false,arranged,Json.str.injEq]

theorem alikeIdentifier (identifier : actionIdentifierKeys.contains (key.getD "") = true) {value other : String} :
    Alike env key (.str value) (.str other) ↔ collapseText env.toEnv value = collapseText env.toEnv other := by
  simp only [Alike,canonValue,identityText,identifier,if_true,arranged,Json.str.injEq]

theorem alikeOptional (text : actionIdentifierKeys.contains (key.getD "") = false) {value other : Option String} :
    Alike env key (optional value) (optional other) ↔ SameText env value other := by
  cases value <;> cases other
  · simp [Alike,SameText]
  · simp [Alike,SameText,Memory.optional,canonValue,arranged]
  · simp [Alike,SameText,Memory.optional,canonValue,arranged]
  · simp only [Memory.optional,SameText,Option.map_some,Option.some.injEq,alikeText text]

theorem alikeList {α β : Type} (list : isSetKey key = false) {write : α → Json} {meaning : α → β}
    (each : ∀ item other, Alike env key (write item) (write other) ↔ meaning item = meaning other) {items others : List α} :
    Alike env key (.arr (items.map write)) (.arr (others.map write)) ↔ items.map meaning = others.map meaning := by
  rw [Alike,canonValue,canonValue,list]
  simp only [Bool.false_eq_true,if_false]
  rw [sameItems,canonItemsMap,canonItemsMap,List.map_map,List.map_map,List.map_map,List.map_map]
  induction items generalizing others with
  | nil => cases others <;> simp
  | cons item rest ih =>
    cases others with
    | nil => simp
    | cons other tail =>
      rw [List.map_cons,List.map_cons,List.map_cons,List.map_cons,List.cons.injEq,List.cons.injEq,ih]
      exact and_congr_left' (each item other)

theorem alikeSet {α β : Type} (set : isSetKey key = true) {write : α → Json} {meaning : α → β}
    (each : ∀ item other, Alike env key (write item) (write other) ↔ meaning item = meaning other)
    (keyed : ∀ item, WellKeyed (write item)) {items others : List α} :
    Alike env key (.arr (items.map write)) (.arr (others.map write)) ↔ SameMembers meaning items others := by
  have distinct (items : List α) : ∀ value ∈ canonItems env.toEnv key (items.map write), Distinct value := by
    intro value member
    rw [canonItemsMap,List.map_map,List.mem_map] at member
    obtain ⟨item,_,rfl⟩ := member
    exact wellKeyedDistinct (canonWellKeyed key (keyed item))
  rw [Alike,canonValue,canonValue,set]
  simp only [if_true]
  rw [sameSet (distinct items) (distinct others),canonItemsMap,canonItemsMap]
  have read : SameMembers arranged ((items.map write).map (canonValue env.toEnv key)) ((others.map write).map (canonValue env.toEnv key)) ↔
      SameMembers (fun item => arranged (canonValue env.toEnv key (write item))) items others := by
    simp only [SameMembers,List.map_map,Function.comp_def]
  rw [read]
  exact sameReadings fun item _ other _ => each other item

theorem alikeObject {fields others : List (String × Json)} (keys : fields.map (·.1) = others.map (·.1))
    (distinct : (fields.map (·.1)).Nodup) : Alike env key (.obj fields) (.obj others) ↔
      fields.map (fun field => arranged (canonValue env.toEnv (some field.1) field.2)) =
        others.map fun field => arranged (canonValue env.toEnv (some field.1) field.2) := by
  rw [Alike,canonValue,canonValue,sameShape (by rw [canonFieldsKeys,canonFieldsKeys,keys]) (by rwa [canonFieldsKeys]),
    canonFieldsMap,canonFieldsMap,List.map_map,List.map_map]
  rfl

/- The text of a UUID is left as it is. -/
theorem identityUuid (plain : env.unicode.Plain) (id : Uuid) : identityText env.toEnv key id.text = id.text := by
  have clear : '\r' ∉ id.text.toList := fun member => by
    have here := List.all_eq_true.mp (Curation.uuidPlain id.canonical) _ member
    simp at here
  have normal : normalizeText env.toEnv id.text = id.text := by
    rw [normalizeText,plain.nfc _ (Curation.uuidPlain id.canonical),lineEndingsPlain clear,String.ofList_toList]
  unfold identityText
  split
  · rw [collapseText,normal,Curation.uuidStripped id.canonical]
  · exact normal

theorem alikeUuid (plain : env.unicode.Plain) {id other : Uuid} : Alike env key (.str id.text) (.str other.text) ↔ id = other := by
  simp only [Alike,canonValue,identityUuid plain,arranged,Json.str.injEq]
  exact ⟨History.uuidTextInjective,congrArg _⟩

theorem alikeLink (plain : env.unicode.Plain) (link other : LinkAssertion) :
    Alike env key link.json other.json ↔ link.meaning env = other.meaning env := by
  rw [LinkAssertion.json,LinkAssertion.json,alikeObject (by rfl) (by simp)]
  simp only [List.map_cons,List.map_nil,List.cons.injEq,and_true,LinkAssertion.meaning,LinkAssertion.mk.injEq]
  exact and_congr (alikeUuid plain) (and_congr (alikeUuid plain) (and_congr (alikeIdentifier rfl) (alikeOptional rfl)))

theorem alikeAbsentLink (plain : env.unicode.Plain) (link other : AbsentLinkAssertion) :
    Alike env key link.json other.json ↔ link.meaning env = other.meaning env := by
  rw [AbsentLinkAssertion.json,AbsentLinkAssertion.json,alikeObject (by rfl) (by simp)]
  simp only [List.map_cons,List.map_nil,List.cons.injEq,and_true,AbsentLinkAssertion.meaning,AbsentLinkAssertion.mk.injEq]
  exact and_congr (alikeUuid plain) (and_congr (alikeUuid plain) (alikeIdentifier rfl))

theorem alikeOptionalId (plain : env.unicode.Plain) {id other : Option Uuid} :
    Alike env key (Memory.optional (id.map (·.text))) (Memory.optional (other.map (·.text))) ↔ id = other := by
  cases id <;> cases other
  · simp [Alike]
  · simp [Alike,Memory.optional,canonValue,arranged]
  · simp [Alike,Memory.optional,canonValue,arranged]
  · simp only [Option.map_some,Memory.optional,Option.some.injEq]
    exact alikeUuid plain

theorem alikeOptionalLink (plain : env.unicode.Plain) {link other : Option LinkAssertion} :
    Alike env key (optionalLink link) (optionalLink other) ↔ link.map (·.meaning env) = other.map (·.meaning env) := by
  cases link <;> cases other
  · simp [Alike]
  · simp [Alike,optionalLink,LinkAssertion.json,canonValue,arranged]
  · simp [Alike,optionalLink,LinkAssertion.json,canonValue,arranged]
  · simp only [Option.map_some,Option.some.injEq]
    exact alikeLink plain _ _

theorem alikeEvidence (plain : env.unicode.Plain) (evidence other : EvidenceRef) :
    Alike env key evidence.json other.json ↔ evidence.meaning env = other.meaning env := by
  rw [EvidenceRef.json,EvidenceRef.json,alikeObject (by rfl) (by simp)]
  simp only [List.map_cons,List.map_nil,List.cons.injEq,and_true,EvidenceRef.meaning,EvidenceMeaning.mk.injEq]
  exact and_congr (alikeOptionalId plain) (and_congr (alikeOptionalLink plain) (and_congr (alikeOptional rfl) (alikeOptional rfl)))

theorem alikeTexts (text : actionIdentifierKeys.contains (key.getD "") = false) (list : isSetKey key = false)
    {texts others : List String} : Alike env key (.arr (texts.map .str)) (.arr (others.map .str)) ↔
      texts.map (normalizeText env.toEnv) = others.map (normalizeText env.toEnv) :=
  alikeList list fun _ _ => alikeText text

theorem alikeReason {reason other : OmissionReason} (steady : Steady env.unicode) :
    Alike env (some "reason") (.str reason.value) (.str other.value) ↔ reason = other := by
  have plain (reason : OmissionReason) : normalizeText env.toEnv reason.value = reason.value :=
    normalPlain steady (by cases reason <;> decide)
  rw [alikeText rfl,plain,plain]
  cases reason <;> cases other <;> decide

theorem alikeOmitted (steady : Steady env.unicode) (omitted other : OmittedMaterial) :
    Alike env key omitted.json other.json ↔ omitted.meaning env = other.meaning env := by
  rw [OmittedMaterial.json,OmittedMaterial.json,alikeObject (by rfl) (by simp)]
  simp only [List.map_cons,List.map_nil,List.cons.injEq,and_true,OmittedMaterial.meaning,OmittedMaterial.mk.injEq]
  exact and_congr (alikeText rfl) (alikeReason steady)

theorem alikeMapping (plain : env.unicode.Plain) (mapping other : ClaimMapping) :
    Alike env key mapping.json other.json ↔ mapping.meaning env = other.meaning env := by
  rw [ClaimMapping.json,ClaimMapping.json,alikeObject (by rfl) (by simp)]
  simp only [List.map_cons,List.map_nil,List.cons.injEq,and_true,ClaimMapping.meaning,ClaimMapping.mk.injEq]
  refine and_congr (alikeText rfl) ?_
  have ids := @alikeList env (some "source_memory_ids") Uuid Uuid rfl (fun id => .str id.text) id (fun _ _ => alikeUuid plain)
    mapping.sourceMemoryIds other.sourceMemoryIds
  rwa [List.map_id,List.map_id] at ids

theorem alikeManifest (steady : Steady env.unicode) (manifest other : ClaimManifest) :
    Alike env key manifest.json other.json ↔ manifest.meaning env = other.meaning env := by
  rw [ClaimManifest.json,ClaimManifest.json,alikeObject (by rfl) (by simp)]
  simp only [List.map_cons,List.map_nil,List.cons.injEq,and_true,ClaimManifest.meaning,ClaimManifest.mk.injEq]
  refine and_congr (alikeTexts rfl rfl) (and_congr (alikeTexts rfl rfl) (and_congr ?_ (and_congr ?_ (alikeTexts rfl rfl))))
  · exact alikeList rfl (alikeOmitted steady)
  · exact alikeList rfl (alikeMapping steady.toPlain)

/- No field of a model that holds identifiers is called like a UUID. -/
theorem uuidKey (id : Uuid) : actionIdentifierKeys.contains id.text = false := by
  rw [Bool.eq_false_iff]
  intro listed
  have letters : actionIdentifierKeys.all fun name => name.toList.any fun c => !(Curation.isHex c || c == '-') := by decide +kernel
  obtain ⟨c,member,other⟩ := List.any_eq_true.mp (List.all_eq_true.mp letters id.text (List.contains_iff_mem.mp listed))
  have hex := (Curation.uuidChars id.canonical).1 c member
  simp only [Bool.not_eq_true',Bool.or_eq_false_iff,beq_eq_false_iff_ne] at other
  rcases hex with hex | hyphen
  · rw [other.1] at hex
    cases hex
  · exact other.2 hyphen

/- The names of the fields of each model. -/
def modelNames : List (List String) := [
  ["source_id","target_id","link_type","context"],
  ["source_id","target_id","link_type"],
  ["memory_id","link","revision_token","excerpt"],
  ["material","reason"],
  ["output","source_memory_ids"],
  ["preserved_claims","transformed_claims","omitted_material","source_mapping","unresolved_tensions"],
  ["record_tokens","required_statuses","required_links","absent_links"],
  ["operation","target_id","title","summary","tags"],
  ["operation","target_id","title","content","summary","claim_manifest"],
  ["operation","source_id","target_id","link_type","context"],
  ["operation","canonical_id","source_ids","title","content","summary","claim_manifest"],
  ["operation","target_id","children","claim_manifest"],
  ["operation","target_id","claim_manifest"],
  ["action_id","rationale","evidence","preconditions"]]

theorem modelNamesFine : modelNames.all fun names => decide names.Nodup && names.all isPlain := by decide +kernel

theorem keyedObject {fields : List (String × Json)} (names : List String) (keys : fields.map (·.1) = names)
    (listed : names ∈ modelNames) (each : WellKeyedFields fields) : WellKeyed (.obj fields) := by
  have fine := List.all_eq_true.mp modelNamesFine names listed
  rw [Bool.and_eq_true,decide_eq_true_eq] at fine
  refine ⟨keys ▸ fine.1,fun field member => ?_,each⟩
  exact List.all_eq_true.mp fine.2 field.1 (keys ▸ List.mem_map_of_mem member)

theorem keyedOptional (value : Option String) : WellKeyed (Memory.optional value) := by
  cases value <;> trivial

theorem keyedList {α : Type} {write : α → Json} (each : ∀ item, WellKeyed (write item)) (items : List α) :
    WellKeyed (.arr (items.map write)) := by
  refine wellKeyedItems.mpr fun value member => ?_
  obtain ⟨item,_,rfl⟩ := List.mem_map.mp member
  exact each item

theorem textsKeyed (texts : List String) : WellKeyed (.arr (texts.map .str)) :=
  @keyedList _ Json.str (fun _ => trivial) texts

theorem idsKeyed (ids : List Uuid) : WellKeyed (.arr (ids.map fun id => .str id.text)) :=
  @keyedList _ (fun id : Uuid => .str id.text) (fun _ => trivial) ids

theorem linkKeyed (link : LinkAssertion) : WellKeyed link.json :=
  keyedObject ["source_id","target_id","link_type","context"] rfl (by simp [modelNames])
    ⟨trivial,trivial,trivial,keyedOptional _,trivial⟩

theorem absentLinkKeyed (link : AbsentLinkAssertion) : WellKeyed link.json :=
  keyedObject ["source_id","target_id","link_type"] rfl (by simp [modelNames]) ⟨trivial,trivial,trivial,trivial⟩

theorem evidenceKeyed (evidence : EvidenceRef) : WellKeyed evidence.json := by
  have link : WellKeyed (optionalLink evidence.link) := by
    cases evidence.link with
    | none => trivial
    | some link => exact linkKeyed link
  exact keyedObject ["memory_id","link","revision_token","excerpt"] rfl (by simp [modelNames])
    ⟨keyedOptional _,link,keyedOptional _,keyedOptional _,trivial⟩

theorem omittedKeyed (omitted : OmittedMaterial) : WellKeyed omitted.json :=
  keyedObject ["material","reason"] rfl (by simp [modelNames]) ⟨trivial,trivial,trivial⟩

theorem mappingKeyed (mapping : ClaimMapping) : WellKeyed mapping.json :=
  keyedObject ["output","source_memory_ids"] rfl (by simp [modelNames]) ⟨trivial,idsKeyed _,trivial⟩

theorem manifestKeyed (manifest : ClaimManifest) : WellKeyed manifest.json :=
  keyedObject ["preserved_claims","transformed_claims","omitted_material","source_mapping","unresolved_tensions"] rfl
    (by simp [modelNames]) ⟨textsKeyed _,textsKeyed _,keyedList omittedKeyed _,
      keyedList mappingKeyed _,textsKeyed _,trivial⟩

def dictJson {α : Type} (write : α → String) (items : List (Uuid × α)) : Json :=
  .obj (items.map fun item => (item.1.text,.str (write item.2)))

theorem dictKeys {α : Type} {write : α → String} {items : List (Uuid × α)} (distinct : (items.map (·.1)).Nodup) :
    ((items.map fun item => (item.1.text,Json.str (write item.2))).map (·.1)).Nodup := by
  have texts : (items.map fun item => (item.1.text,Json.str (write item.2))).map (·.1) = (items.map (·.1)).map (·.text) := by
    rw [List.map_map,List.map_map]
    rfl
  rw [texts]
  exact distinct.map fun _ _ => History.uuidTextInjective

theorem dictKeyed {α : Type} {write : α → String} {items : List (Uuid × α)} (distinct : (items.map (·.1)).Nodup) :
    WellKeyed (dictJson write items) := by
  refine ⟨dictKeys distinct,fun field member => ?_,wellKeyedFields.mpr fun field member => ?_⟩
  · obtain ⟨item,_,rfl⟩ := List.mem_map.mp member
    exact Curation.uuidPlain item.1.canonical
  · obtain ⟨item,_,rfl⟩ := List.mem_map.mp member
    trivial

theorem alikeDict {α β : Type} {write : α → String} {meaning : α → β}
    (each : ∀ item other, normalizeText env.toEnv (write item) = normalizeText env.toEnv (write other) ↔ meaning item = meaning other)
    {items others : List (Uuid × α)} (left : (items.map (·.1)).Nodup) (right : (others.map (·.1)).Nodup) :
    Alike env key (dictJson write items) (dictJson write others) ↔
      SameMembers (fun item => (item.1,meaning item.2)) items others := by
  have fields (items : List (Uuid × α)) : (canonFields env.toEnv (items.map fun item => (item.1.text,Json.str (write item.2)))).map
      (fun field => (field.1,arranged field.2)) = items.map fun item => (item.1.text,Json.str (normalizeText env.toEnv (write item.2))) := by
    rw [canonFieldsMap,List.map_map,List.map_map]
    refine List.map_congr_left fun item _ => ?_
    have text : actionIdentifierKeys.contains ((some item.1.text).getD "") = false := uuidKey item.1
    simp only [Function.comp_apply,canonValue,identityText,text,Bool.false_eq_true,if_false,arranged]
  have nodup {items : List (Uuid × α)} (distinct : (items.map (·.1)).Nodup) :
      (items.map fun item => (item.1.text,Json.str (normalizeText env.toEnv (write item.2)))).Nodup := by
    refine List.Nodup.of_map (·.1) ?_
    exact @dictKeys α (fun item => normalizeText env.toEnv (write item)) items distinct
  rw [Alike,dictJson,dictJson,canonValue,canonValue,sameObject (by rw [canonFieldsKeys]; exact dictKeys left)
    (by rw [canonFieldsKeys]; exact dictKeys right),fields,fields,List.perm_ext_iff_of_nodup (nodup left) (nodup right)]
  refine sameReadings fun item _ other _ => ?_
  rw [Prod.mk.injEq,Prod.mk.injEq,Json.str.injEq,each]
  exact and_congr_left' ⟨History.uuidTextInjective,congrArg _⟩

theorem alikePreconditions (steady : Steady env.unicode) (preconditions others : ActionPreconditions) :
    Alike env key preconditions.json others.json ↔ SamePreconditions env preconditions others := by
  have status (status other : MemoryStatus) :
      normalizeText env.toEnv status.value = normalizeText env.toEnv other.value ↔ status = other := by
    have plain (status : MemoryStatus) : normalizeText env.toEnv status.value = status.value :=
      normalPlain steady (by cases status <;> decide)
    rw [plain,plain]
    cases status <;> cases other <;> decide
  have tokens := @alikeDict env (some "record_tokens") String String id (normalizeText env.toEnv) (fun _ _ => Iff.rfl)
    preconditions.recordTokens others.recordTokens preconditions.tokensDistinct others.tokensDistinct
  have statuses := @alikeDict env (some "required_statuses") MemoryStatus MemoryStatus (·.value) id status
    preconditions.requiredStatuses others.requiredStatuses preconditions.statusesDistinct others.statusesDistinct
  have links := @alikeSet env (some "required_links") _ _ rfl _ _ (alikeLink steady.toPlain) linkKeyed
    preconditions.requiredLinks others.requiredLinks
  have absent := @alikeSet env (some "absent_links") _ _ rfl _ _ (alikeAbsentLink steady.toPlain) absentLinkKeyed
    preconditions.absentLinks others.absentLinks
  rw [ActionPreconditions.json,ActionPreconditions.json,alikeObject (by rfl) (by simp)]
  simp only [List.map_cons,List.map_nil,List.cons.injEq,and_true]
  constructor
  · rintro ⟨first,second,third,fourth⟩
    exact ⟨tokens.mp first,statuses.mp second,links.mp third,absent.mp fourth⟩
  · rintro ⟨first,second,third,fourth⟩
    exact ⟨tokens.mpr first,statuses.mpr second,links.mpr third,absent.mpr fourth⟩

theorem preconditionsKeyed (preconditions : ActionPreconditions) : WellKeyed preconditions.json :=
  keyedObject ["record_tokens","required_statuses","required_links","absent_links"] rfl (by simp [modelNames])
    ⟨@dictKeyed _ id _ preconditions.tokensDistinct,@dictKeyed _ MemoryStatus.value _ preconditions.statusesDistinct,
      keyedList linkKeyed _,keyedList absentLinkKeyed _,trivial⟩

/- What is left of an operation without its roles. -/
def Operation.arguments (operation : Operation) : Json.Object :=
  operation.fields.filter isArgument ++ [("operation",.str operation.name)]

theorem fieldsKeyed (operation : Operation) : WellKeyed (.obj operation.fields) := by
  cases operation with
  | normalizeMemory targetId title summary tags =>
    have listed : WellKeyed (tagsJson tags) := by
      cases tags with
      | none => trivial
      | some tags => exact textsKeyed tags
    exact keyedObject ["operation","target_id","title","summary","tags"] rfl (by simp [modelNames])
      ⟨trivial,trivial,keyedOptional _,keyedOptional _,listed,trivial⟩
  | rewriteMemory targetId title content summary claimManifest =>
    exact keyedObject ["operation","target_id","title","content","summary","claim_manifest"] rfl (by simp [modelNames])
      ⟨trivial,trivial,keyedOptional _,trivial,keyedOptional _,manifestKeyed _,trivial⟩
  | createLink sourceId targetId linkType context | removeLink sourceId targetId linkType context =>
    exact keyedObject ["operation","source_id","target_id","link_type","context"] rfl (by simp [modelNames])
      ⟨trivial,trivial,trivial,trivial,keyedOptional _,trivial⟩
  | mergeMemories canonicalId sourceIds title content summary claimManifest =>
    exact keyedObject ["operation","canonical_id","source_ids","title","content","summary","claim_manifest"] rfl
      (by simp [modelNames]) ⟨trivial,trivial,idsKeyed _,keyedOptional _,trivial,keyedOptional _,manifestKeyed _,trivial⟩
  | splitMemory targetId children claimManifest =>
    exact keyedObject ["operation","target_id","children","claim_manifest"] rfl (by simp [modelNames])
      ⟨trivial,trivial,keyedList mappingKeyed _,manifestKeyed _,trivial⟩
  | archiveMemory targetId claimManifest =>
    exact keyedObject ["operation","target_id","claim_manifest"] rfl (by simp [modelNames]) ⟨trivial,trivial,manifestKeyed _,trivial⟩

theorem argumentsFresh (operation : Operation) : ∀ field ∈ operation.fields.filter isArgument, field.1 ≠ "operation" := by
  intro field member same
  have argument := (List.mem_filter.mp member).2
  rw [isArgument,same] at argument
  revert argument
  decide

theorem argumentsKeyed (operation : Operation) : WellKeyed (.obj operation.arguments) := by
  obtain ⟨distinct,plain,each⟩ := fieldsKeyed operation
  refine ⟨?_,?_,wellKeyedFields.mpr ?_⟩
  · rw [Operation.arguments,List.map_append,List.nodup_append]
    refine ⟨distinct.sublist (List.filter_sublist.map _),List.nodup_singleton _,fun name member other there => ?_⟩
    obtain ⟨field,kept,rfl⟩ := List.mem_map.mp member
    obtain rfl := List.mem_singleton.mp there
    exact argumentsFresh operation field kept
  · refine List.forall_mem_append.mpr ⟨fun field member => plain field (List.mem_of_mem_filter member),?_⟩
    have named : isPlain "operation" := by decide +kernel
    exact List.forall_mem_singleton.mpr named
  · refine List.forall_mem_append.mpr ⟨fun field member => wellKeyedFields.mp each field (List.mem_of_mem_filter member),?_⟩
    exact List.forall_mem_singleton.mpr trivial

theorem dumpKeyed (action : CurationAction) : WellKeyed (.obj (modelDump action)) := by
  obtain ⟨distinct,plain,each⟩ := fieldsKeyed action.operation
  have heads : WellKeyed (.obj [("action_id",.str action.actionId.text),("rationale",.str action.rationale),
      ("evidence",.arr (action.evidence.map (·.json))),("preconditions",action.preconditions.json)]) :=
    keyedObject ["action_id","rationale","evidence","preconditions"] rfl (by simp [modelNames])
      ⟨trivial,trivial,keyedList evidenceKeyed _,preconditionsKeyed _,trivial⟩
  refine ⟨?_,List.forall_mem_append.mpr ⟨heads.2.1,plain⟩,wellKeyedFields.mpr (List.forall_mem_append.mpr
    ⟨wellKeyedFields.mp heads.2.2,wellKeyedFields.mp each⟩)⟩
  rw [modelDump,List.map_append,List.nodup_append]
  refine ⟨heads.1,distinct,fun name member other there => ?_⟩
  rintro rfl
  revert member there
  cases action.operation <;> simp [Operation.fields] <;> grind

theorem namePlain (operation : Operation) : isPlain operation.name := by
  have plain : ["normalize_memory","rewrite_memory","create_link","remove_link","merge_memories","split_memory",
      "archive_memory"].all isPlain := by decide +kernel
  exact List.all_eq_true.mp plain _ (by cases operation <;> simp [Operation.name])

theorem argumentsDistinct (operation : Operation) : ((canonFields env.toEnv operation.arguments).map (·.1)).Nodup := by
  rw [canonFieldsKeys]
  exact (argumentsKeyed operation).1

theorem alikeNames (steady : Steady env.unicode) {operation other : Operation}
    (alike : Alike env key (.obj operation.arguments) (.obj other.arguments)) : operation.name = other.name := by
  rw [Alike,canonValue,canonValue,sameObject (argumentsDistinct operation) (argumentsDistinct other)] at alike
  have named (operation : Operation) : ("operation",Json.str operation.name) ∈
      (canonFields env.toEnv operation.arguments).map fun field => (field.1,arranged field.2) := by
    rw [canonFieldsMap,List.map_map,List.mem_map]
    refine ⟨("operation",.str operation.name),List.mem_append_right _ List.mem_cons_self,?_⟩
    have text : identityText env.toEnv (some "operation") operation.name = operation.name := normalPlain steady (namePlain operation)
    simp only [Function.comp_apply,canonValue,text,arranged]
  have distinct : (((canonFields env.toEnv other.arguments).map fun field => (field.1,arranged field.2)).map (·.1)).Nodup := by
    rw [List.map_map]
    exact argumentsDistinct other
  have same := List.inj_on_of_nodup_map distinct (alike.mem_iff.mp (named operation)) (named other) rfl
  exact Json.str.inj (Prod.mk.inj same).2

theorem alikeTags (tags others : Option (List String)) :
    Alike env (some "tags") (tagsJson tags) (tagsJson others) ↔ SameTags env tags others := by
  cases tags <;> cases others
  · simp [Alike,SameTags]
  · simp [Alike,SameTags,tagsJson,canonValue,arranged]
  · simp [Alike,SameTags,tagsJson,canonValue,arranged]
  · exact alikeSet rfl (fun _ _ => alikeIdentifier rfl) fun _ => trivial

theorem alikeContent {value other : String} (text : actionIdentifierKeys.contains (key.getD "") = false) :
    Alike env key (.str value) (.str other) ↔ SameText env (some value) (some other) := by
  rw [alikeText text,SameText,Option.map_some,Option.map_some,Option.some.injEq]

theorem alikeArguments (steady : Steady env.unicode) (operation other : Operation) :
    Alike env none (.obj operation.arguments) (.obj other.arguments) ↔ SameParameters env operation other := by
  by_cases kind : operation.name = other.name
  · have named : Alike env (some "operation") (.str operation.name) (.str other.name) := by rw [kind]; rfl
    have shape {names : List String} (left : operation.arguments.map (·.1) = names) (right : other.arguments.map (·.1) = names) :=
      @alikeObject env none _ _ (left.trans right.symm) (argumentsKeyed operation).1
    cases operation <;> cases other <;> first | (simp [Operation.name] at kind; done) | skip
    case normalizeMemory.normalizeMemory =>
      refine (shape rfl rfl).trans ?_
      show [_,_,_,_] = [_,_,_,_] ↔ _
      simp only [List.cons.injEq,and_true]
      exact and_congr (alikeOptional rfl) (and_congr (alikeOptional rfl) ((and_iff_left named).trans (alikeTags _ _)))
    case rewriteMemory.rewriteMemory | mergeMemories.mergeMemories =>
      refine (shape rfl rfl).trans ?_
      show [_,_,_,_,_] = [_,_,_,_,_] ↔ _
      simp only [List.cons.injEq,and_true]
      refine and_congr (alikeOptional rfl) (and_congr (alikeContent rfl) (and_congr (alikeOptional rfl) ?_))
      exact (and_iff_left named).trans (alikeManifest steady _ _)
    case createLink.createLink | removeLink.removeLink =>
      refine (shape rfl rfl).trans ?_
      show [_,_,_] = [_,_,_] ↔ _
      simp only [List.cons.injEq,and_true]
      exact and_congr (alikeIdentifier rfl) ((and_iff_left named).trans (alikeOptional rfl))
    case splitMemory.splitMemory =>
      refine (shape rfl rfl).trans ?_
      show [_,_,_] = [_,_,_] ↔ _
      simp only [List.cons.injEq,and_true]
      exact and_congr (alikeList rfl (alikeMapping steady.toPlain)) ((and_iff_left named).trans (alikeManifest steady _ _))
    case archiveMemory.archiveMemory =>
      refine (shape rfl rfl).trans ?_
      show [_,_] = [_,_] ↔ _
      simp only [List.cons.injEq,and_true]
      exact (and_iff_left named).trans (alikeManifest steady _ _)
  · refine iff_of_false (fun alike => kind (alikeNames steady alike)) fun same => kind ?_
    cases operation <;> cases other <;> first | rfl | cases same

theorem getCanon (fields : Json.Object) (name : String) :
    Json.get (canonFields env.toEnv fields) name = (Json.get fields name).map (canonValue env.toEnv (some name)) := by
  unfold Json.get
  induction fields with
  | nil => rfl
  | cons field rest ih =>
    obtain ⟨other,value⟩ := field
    rw [canonFields,List.lookup_cons,List.lookup_cons]
    cases same : name == other with
    | true => rw [eq_of_beq same]; rfl
    | false => exact ih

theorem argumentsCanon (steady : Steady env.unicode) (action : CurationAction) :
    Json.set ((canonFields env.toEnv (modelDump action)).filter isArgument) "operation" (.str action.operation.name) =
      canonFields env.toEnv action.operation.arguments := by
  have kept : (modelDump action).filter isArgument = action.operation.fields.filter isArgument := by
    rw [modelDump,List.filter_append]
    rfl
  have filtered : (canonFields env.toEnv (modelDump action)).filter isArgument =
      canonFields env.toEnv (action.operation.fields.filter isArgument) := by
    rw [canonFieldsMap,List.filter_map,canonFieldsMap,← kept]
    rfl
  have fresh : (canonFields env.toEnv (action.operation.fields.filter isArgument)).any (·.1 == "operation") = false := by
    rw [canonFieldsMap,List.any_map,List.any_eq_false]
    intro field member same
    exact argumentsFresh action.operation field member (eq_of_beq same)
  have text : identityText env.toEnv (some "operation") action.operation.name = action.operation.name :=
    normalPlain steady (namePlain action.operation)
  rw [filtered,Json.set,fresh,Operation.arguments,canonFieldsMap,canonFieldsMap,List.map_append]
  simp only [Bool.false_eq_true,if_false,List.map_cons,List.map_nil,canonValue,text]

theorem stringsOf {items : List Json} (strings : ∀ item ∈ items, ∃ text, item = .str text) :
    ∃ texts : List String, items = texts.map .str := by
  induction items with
  | nil => exact ⟨[],rfl⟩
  | cons item rest ih =>
    rw [List.forall_mem_cons] at strings
    obtain ⟨text,rfl⟩ := strings.1
    obtain ⟨texts,rfl⟩ := ih strings.2
    exact ⟨text::texts,rfl⟩

/- A set of texts keeps its members. -/
theorem uniquesStrings (texts : List String) : ∃ kept : List String, uniques (texts.map .str) = kept.map .str ∧
    ∀ text, text ∈ kept ↔ text ∈ texts := by
  obtain ⟨kept,shape⟩ := @stringsOf (uniques (texts.map .str)) fun item member => by
    obtain ⟨text,_,rfl⟩ := List.mem_map.mp (memUniques member)
    exact ⟨text,rfl⟩
  have injective : Function.Injective fun text => textOf (.str text) := by
    intro text other same
    have read := (@sameTextOf (.str text) (.str other) trivial trivial).mp same
    exact Json.str.inj read
  refine ⟨kept,shape,fun text => ?_⟩
  have texts' : text ∈ kept ↔ textOf (.str text) ∈ (uniques (texts.map .str)).map textOf := by
    rw [shape,List.map_map]
    exact (List.mem_map_of_injective injective).symm
  rw [texts',uniquesTexts,memSortedSet,List.map_map]
  exact List.mem_map_of_injective injective

def targetIdsOf (data : Json.Object) : List Json :=
  ["target_id","source_id","canonical_id"].filterMap (Json.get data) ++ Json.items (Json.get data "source_ids")

/- The targets are the memories of the operation, whatever their roles. -/
theorem targetsRead (plain : env.unicode.Plain) (action : CurationAction) : ∃ texts : List String,
    targetIdsOf (canonFields env.toEnv (modelDump action)) = texts.map .str ∧
    ∀ text, text ∈ texts ↔ text ∈ action.operation.roles.memories.map (·.text) := by
  have single (name : String) (id : Uuid) : canonValue env.toEnv (some name) (.str id.text) = .str id.text := by
    rw [canonValue,identityUuid plain]
  have read : targetIdsOf (canonFields env.toEnv (modelDump action)) =
      ["target_id","source_id","canonical_id"].filterMap (fun name =>
        (Json.get (modelDump action) name).map (canonValue env.toEnv (some name))) ++
      Json.items ((Json.get (modelDump action) "source_ids").map (canonValue env.toEnv (some "source_ids"))) := by
    simp only [targetIdsOf,getCanon]
  rw [read]
  obtain ⟨actionId,rationale,evidence,preconditions,operation,valid⟩ := action
  cases operation with
  | normalizeMemory targetId | rewriteMemory targetId | splitMemory targetId | archiveMemory targetId =>
    refine ⟨[targetId.text],?_,fun text => Iff.rfl⟩
    exact congrArg (fun value => [value]) (single "target_id" targetId)
  | createLink sourceId targetId | removeLink sourceId targetId =>
    refine ⟨[targetId.text,sourceId.text],?_,fun text => Iff.rfl⟩
    exact congrArg₂ (fun value other => [value,other]) (single "target_id" targetId) (single "source_id" sourceId)
  | mergeMemories canonicalId sourceIds =>
    obtain ⟨kept,shape,members⟩ := uniquesStrings (sourceIds.map (·.text))
    have sources : canonValue env.toEnv (some "source_ids") (.arr (sourceIds.map fun id => .str id.text)) = .arr (kept.map .str) := by
      have each : canonItems env.toEnv (some "source_ids") (sourceIds.map fun id => .str id.text) =
          (sourceIds.map (·.text)).map .str := by
        rw [canonItemsMap,List.map_map,List.map_map]
        exact List.map_congr_left fun id _ => single "source_ids" id
      rw [canonValue,each,shape]
      rfl
    refine ⟨canonicalId.text::kept,?_,fun text => ?_⟩
    · exact congrArg₂ (fun value other => value :: Json.items (some other)) (single "canonical_id" canonicalId) sources
    · rw [List.mem_cons,members]
      exact List.mem_cons.symm

/- What an action is named after. -/
def nameOf (env : Env) (planId : String) (position : Int) (action : CurationAction) : Json :=
  .obj [("schema_version",.int 1),("plan_id",.str (collapseText env.toEnv planId)),("position",.int position),
    ("operation",.str action.operation.name),
    ("target_ids",.arr ((sortedSet (action.operation.roles.memories.map (·.text))).map .str)),
    ("arguments",canonValue env.toEnv none (.obj action.operation.arguments)),
    ("preconditions",canonValue env.toEnv none action.preconditions.json),
    ("evidence",canonValue env.toEnv (some "evidence") (.arr (action.evidence.map (·.json))))]

theorem operationRead (steady : Steady env.unicode) (action : CurationAction) :
    identifier env ((Json.get (canonFields env.toEnv (modelDump action)) "operation").getD .null) = .ok action.operation.name := by
  have given : Json.get (modelDump action) "operation" = some (.str action.operation.name) := by
    obtain ⟨actionId,rationale,evidence,preconditions,operation,valid⟩ := action
    cases operation <;> rfl
  have text : identityText env.toEnv (some "operation") action.operation.name = action.operation.name :=
    normalPlain steady (namePlain action.operation)
  have tight : strip action.operation.name = action.operation.name := by
    have all : ["normalize_memory","rewrite_memory","create_link","remove_link","merge_memories","split_memory",
        "archive_memory"].all fun name => strip name == name := by decide +kernel
    exact eq_of_beq (List.all_eq_true.mp all _ (by cases action.operation <;> simp [Operation.name]))
  rw [getCanon,given]
  simp only [Option.map_some,Option.getD_some,canonValue,text,identifier,collapseText,normalPlain steady (namePlain _),tight]

theorem targetsNamed (plain : env.unicode.Plain) (action : CurationAction) : ∃ targets,
    (targetIdsOf (canonFields env.toEnv (modelDump action))).mapM (identifier env) = .ok targets ∧
    sortedSet targets = sortedSet (action.operation.roles.memories.map (·.text)) := by
  obtain ⟨texts,shape,members⟩ := targetsRead plain action
  have whole : ∀ text ∈ texts, collapseText env.toEnv text = text := by
    intro text member
    obtain ⟨id,_,rfl⟩ := List.mem_map.mp ((members text).mp member)
    exact @identityUuid env (some "id") plain id
  have all : ∀ texts : List String, (∀ text ∈ texts, collapseText env.toEnv text = text) →
      (texts.map Json.str).mapM (identifier env) = .ok texts := by
    intro texts whole
    induction texts with
    | nil => rfl
    | cons text rest ih =>
      rw [List.forall_mem_cons] at whole
      rw [List.map_cons,List.mapM_cons,ih whole.2,identifier,whole.1]
      rfl
  rw [shape]
  exact ⟨texts,all texts whole,sortedSetSame.mpr members⟩

/- A value that is canonical already. -/
theorem canonAgain (steady : Steady env.unicode) (key : Option String) {value : Json} (keyed : WellKeyed value) :
    canonicalActionValue env.toEnv key (canonValue env.toEnv key value) = .ok (canonValue env.toEnv key value) := by
  rw [actionValueCanon steady key (canonWellKeyed key keyed),canonIdem steady key keyed]

theorem evidenceAgain (steady : Steady env.unicode) (evidence : List EvidenceRef) :
    canonicalActionValue env.toEnv none (canonValue env.toEnv (some "evidence") (.arr (evidence.map (·.json)))) =
      .ok (canonValue env.toEnv (some "evidence") (.arr (evidence.map (·.json)))) := by
  have keyed := keyedList evidenceKeyed evidence
  have whole := actionValueCanon steady none (@canonWellKeyed env.toEnv (some "evidence") _ keyed)
  have each : ∀ item ∈ uniques (canonItems env.toEnv (some "evidence") (evidence.map (·.json))),
      canonValue env.toEnv none item = item := by
    intro item member
    have listed := memUniques member
    rw [canonItemsMap,List.map_map,List.mem_map] at listed
    obtain ⟨given,_,rfl⟩ := listed
    -- An object does not look at the key that it stands under.
    exact canonIdem steady none (evidenceKeyed given)
  have still : canonItems env.toEnv none (uniques (canonItems env.toEnv (some "evidence") (evidence.map (·.json)))) =
      uniques (canonItems env.toEnv (some "evidence") (evidence.map (·.json))) := by
    rw [canonItemsMap]
    exact (List.map_congr_left each).trans (List.map_id _)
  rw [whole]
  exact congrArg (fun items => Except.ok (Json.arr items)) still

theorem nameRead (steady : Steady env.unicode) (planId : String) (position : Int) (action : CurationAction) :
    actionName env planId position (canonFields env.toEnv (modelDump action)) = .ok (nameOf env planId position action) := by
  obtain ⟨targets,read,same⟩ := targetsNamed steady.toPlain action
  have arguments := canonAgain steady none (argumentsKeyed action.operation)
  have preconditions := canonAgain steady none (preconditionsKeyed action.preconditions)
  have given : Json.get (canonFields env.toEnv (modelDump action)) "preconditions" =
      some (canonValue env.toEnv none action.preconditions.json) := by
    rw [getCanon]
    rfl
  have listed : Json.get (canonFields env.toEnv (modelDump action)) "evidence" =
      some (canonValue env.toEnv (some "evidence") (.arr (action.evidence.map (·.json)))) := by
    rw [getCanon]
    rfl
  unfold targetIdsOf at read
  unfold actionName
  rw [operationRead steady,given,listed]
  simp only [bind,Except.bind,read,argumentsCanon steady,Option.getD_some,preconditions,evidenceAgain steady,same]
  have whole : canonicalActionValue env.toEnv none (.obj (canonFields env.toEnv action.operation.arguments)) =
      .ok (canonValue env.toEnv none (.obj action.operation.arguments)) := arguments
  rw [whole]
  rfl

theorem nameNormal (steady : Steady env.unicode) (planId : String) (position : Int) (action : CurationAction) :
    Canonical.normalize env.toEnv (nameOf env planId position action) = .ok (nameOf env planId position action) := by
  have plan : Canonical.normalize env.toEnv (.str (collapseText env.toEnv planId)) = .ok (.str (collapseText env.toEnv planId)) := by
    rw [Canonical.normalize,normalCollapse steady]
  have operation : Canonical.normalize env.toEnv (.str action.operation.name) = .ok (.str action.operation.name) := by
    rw [Canonical.normalize,normalPlain steady (namePlain _)]
  have targets : Canonical.normalize env.toEnv (.arr ((sortedSet (action.operation.roles.memories.map (·.text))).map .str)) =
      .ok (.arr ((sortedSet (action.operation.roles.memories.map (·.text))).map .str)) := by
    have each : ∀ item ∈ (sortedSet (action.operation.roles.memories.map (·.text))).map Json.str,
        Canonical.normalize env.toEnv item = .ok item := by
      intro item member
      obtain ⟨text,listed,rfl⟩ := List.mem_map.mp member
      obtain ⟨id,_,rfl⟩ := List.mem_map.mp (memSortedSet.mp listed)
      rw [Canonical.normalize,normalPlain steady (Curation.uuidPlain id.canonical)]
    rw [Canonical.normalize,normalizeItemsFixed each]
    rfl
  have fixed := @normalizeFieldsFixed env.toEnv steady []
    [("schema_version",.int 1),("plan_id",.str (collapseText env.toEnv planId)),("position",.int position),
      ("operation",.str action.operation.name),
      ("target_ids",.arr ((sortedSet (action.operation.roles.memories.map (·.text))).map .str)),
      ("arguments",canonValue env.toEnv none (.obj action.operation.arguments)),
      ("preconditions",canonValue env.toEnv none action.preconditions.json),
      ("evidence",canonValue env.toEnv (some "evidence") (.arr (action.evidence.map (·.json))))]
    (by simp) (fun _ _ => List.not_mem_nil) ?_ ?_
  · rw [nameOf,Canonical.normalize,fixed]
    rfl
  · have names : ["schema_version","plan_id","position","operation","target_ids","arguments","preconditions","evidence"].all isPlain := by
      decide +kernel
    intro field member
    exact List.all_eq_true.mp names field.1 (List.mem_map_of_mem member)
  · simp only [List.forall_mem_cons]
    exact ⟨rfl,plan,rfl,operation,targets,normalizeCanon steady none (argumentsKeyed _),normalizeCanon steady none (preconditionsKeyed _),
      normalizeCanon steady _ (keyedList evidenceKeyed _),fun _ none => absurd none List.not_mem_nil⟩

/- The text that an id is made of. -/
theorem actionTextOf (steady : Steady env.unicode) (planId : String) (position : Int) (action : CurationAction) :
    actionText env planId position action = .ok (textOf (nameOf env planId position action)) := by
  have data : canonicalActionValue env.toEnv none (.obj (modelDump action)) = .ok (.obj (canonFields env.toEnv (modelDump action))) :=
    actionValueCanon steady none (dumpKeyed action)
  unfold actionText
  rw [data]
  simp only [bind,Except.bind,nameRead steady]
  rw [canonicalize,nameNormal steady]
  rfl

theorem nameDistinct (planId : String) (position : Int) (action : CurationAction) :
    Distinct (nameOf env planId position action) := by
  have targets : WellKeyed (.arr ((sortedSet (action.operation.roles.memories.map (·.text))).map .str)) := textsKeyed _
  refine ⟨by simp,trivial,trivial,trivial,trivial,wellKeyedDistinct targets,?_,?_,?_,trivial⟩
  · exact wellKeyedDistinct (canonWellKeyed none (argumentsKeyed _))
  · exact wellKeyedDistinct (canonWellKeyed none (preconditionsKeyed _))
  · exact wellKeyedDistinct (canonWellKeyed _ (keyedList evidenceKeyed _))

/- Actions are named alike exactly when they agree in all but the roles of one set of memories. -/
theorem namedAlike (steady : Steady env.unicode) (planId : String) (position : Int) (action other : CurationAction) :
    actionText env planId position action = actionText env planId position other ↔ AlikeButRoles env action other ∧
      SameMembers id action.operation.roles.memories other.operation.roles.memories := by
  have memories : sortedSet (action.operation.roles.memories.map (·.text)) = sortedSet (other.operation.roles.memories.map (·.text)) ↔
      SameMembers id action.operation.roles.memories other.operation.roles.memories := by
    rw [sortedSetSame]
    exact sameReadings fun id _ other _ => ⟨History.uuidTextInjective,congrArg _⟩
  have evidence := @alikeSet env (some "evidence") _ _ rfl _ _ (alikeEvidence steady.toPlain) evidenceKeyed
    action.evidence other.evidence
  rw [actionTextOf steady,actionTextOf steady,Except.ok.injEq,sameTextOf (nameDistinct _ _ _) (nameDistinct _ _ _),nameOf,nameOf,
    sameShape (by rfl) (by simp)]
  simp only [List.map_cons,List.map_nil,List.cons.injEq,true_and,and_true]
  constructor
  · rintro ⟨_,targets,arguments,preconditions,references⟩
    have ids := Json.arr.inj targets
    rw [arrangedItemsMap,arrangedItemsMap,List.map_map,List.map_map] at ids
    have texts := List.map_injective_iff.mpr (fun _ _ => Json.str.inj) ids
    exact ⟨⟨(alikeArguments steady _ _).mp arguments,(alikePreconditions steady _ _).mp preconditions,evidence.mp references⟩,
      memories.mp texts⟩
  · rintro ⟨⟨arguments,preconditions,references⟩,same⟩
    have alike := (alikeArguments steady _ _).mpr arguments
    refine ⟨?_,by rw [memories.mpr same],alike,(alikePreconditions steady _ _).mpr preconditions,evidence.mpr references⟩
    rw [alikeNames steady alike]

theorem sameRolesMemories {roles others : Roles} (same : SameRoles roles others) :
    SameMembers id roles.memories others.memories := by
  intro id
  have sources := same.sources id
  rw [List.map_id,List.map_id] at sources ⊢
  simp only [Roles.memories,same.target,same.source,same.canonical,List.mem_append,sources]

/- The id tells two actions apart exactly when they are different operations, save for two that give
one set of memories different roles. -/
theorem actionIdFaithful (steady : Steady env.unicode) (planId : String) (position : Int) (action other : CurationAction)
    (apart : ∀ text text', actionText env planId position action = .ok text → actionText env planId position other = .ok text' →
      env.uuid5 text = env.uuid5 text' → text = text') :
    (actionId env planId position action = actionId env planId position other ↔ SameOperation env action other) ↔
      ¬ RolesSwapped env action other := by
  have ids : actionId env planId position action = actionId env planId position other ↔
      actionText env planId position action = actionText env planId position other := by
    rw [actionId,actionId,actionTextOf steady,actionTextOf steady,Except.map,Except.map,Except.ok.injEq,Except.ok.injEq]
    exact ⟨apart _ _ (actionTextOf steady _ _ _) (actionTextOf steady _ _ _),congrArg _⟩
  rw [ids,namedAlike steady]
  constructor
  · intro faithful swapped
    exact swapped.roles (faithful.mp ⟨swapped.toAlikeButRoles,swapped.memories⟩).roles
  · intro kept
    constructor
    · rintro ⟨alike,memories⟩
      by_contra different
      exact kept ⟨alike,memories,fun roles => different ⟨alike,roles⟩⟩
    · intro same
      exact ⟨same.toAlikeButRoles,sameRolesMemories same.roles⟩

end

/- Two links between the same memories, each in its own direction. -/
def memoryA : Uuid := ⟨"00000000-0000-0000-0000-00000000000a",by decide +kernel⟩

def memoryB : Uuid := ⟨"00000000-0000-0000-0000-00000000000b",by decide +kernel⟩

theorem causesValid : (canonicalLinkType "CAUSES" && 2 ≤ (Ingest.words (strip ((some "a b").getD ""))).length) = true := by decide +kernel

def linking (sourceId targetId : Uuid) : CurationAction where
  actionId := memoryA
  rationale := ""
  evidence := []
  preconditions := ⟨[],[],[],[],List.nodup_nil,List.nodup_nil⟩
  operation := .createLink sourceId targetId "CAUSES" (some "a b")
  valid := causesValid

/- Every text is its own normal form, and its own id. -/
def textIds : Env := ⟨⟨⟨id,id,id,idParts⟩,id⟩,id⟩

theorem textsSteady : Steady textIds.unicode where
  nfc _ _ := rfl
  lower _ _ := rfl
  lines _ := rfl

theorem actionIdFaithfulSample :
    (actionId textIds "p" 0 (linking memoryA memoryB) = actionId textIds "p" 0 (linking memoryA memoryA) ↔
      SameOperation textIds (linking memoryA memoryB) (linking memoryA memoryA)) ↔
    ¬ RolesSwapped textIds (linking memoryA memoryB) (linking memoryA memoryA) :=
  actionIdFaithful textsSteady "p" 0 _ _ fun _ _ _ _ => id

/- The direction of a link is lost. -/
theorem directionLost : ¬ (actionId textIds "p" 0 (linking memoryA memoryB) = actionId textIds "p" 0 (linking memoryB memoryA) ↔
    SameOperation textIds (linking memoryA memoryB) (linking memoryB memoryA)) := by
  intro faithful
  have alike : AlikeButRoles textIds (linking memoryA memoryB) (linking memoryB memoryA) :=
    ⟨⟨rfl,rfl⟩,⟨fun _ => Iff.rfl,fun _ => Iff.rfl,fun _ => Iff.rfl,fun _ => Iff.rfl⟩,fun _ => Iff.rfl⟩
  have memories : SameMembers id (linking memoryA memoryB).operation.roles.memories
      (linking memoryB memoryA).operation.roles.memories := by
    intro id
    simp [linking,Operation.roles,Roles.memories,or_comm]
  have texts := (namedAlike textsSteady "p" 0 _ _).mpr ⟨alike,memories⟩
  have same := (faithful.mp (congrArg (Except.map textIds.uuid5) texts)).roles.target
  exact absurd same (by decide +kernel)

end McpMemory.Actions
