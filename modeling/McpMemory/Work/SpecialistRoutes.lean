import McpMemory.Curation.ActionIdentity
import McpMemory.Memory.NormalForm
import McpMemory.Work.Uniqueness

/-! `enqueue_specialist_route` of `core/task_handlers/maintenance_work_items.py`, over the SQLite
store of work items. JSON has no fractions here, so a confidence is a whole number of some small unit.
Tokens are texts, and a payload is stored with its letters as they are. -/
namespace McpMemory.SpecialistRoutes
open Actions Canonical Connection Memory Text Transaction Work

inductive MaintenanceFamily where
  | curator
  | summarizer
  | taxonomist
  | graphLinker
  | conflictReview
  | deduplicator
  | defragmenter
  | projectManager
  | factChecker
  deriving DecidableEq, Repr

def MaintenanceFamily.value : MaintenanceFamily → String
  | .curator => "curator"
  | .summarizer => "summarizer"
  | .taxonomist => "taxonomist"
  | .graphLinker => "graph_linker"
  | .conflictReview => "conflict_review"
  | .deduplicator => "deduplicator"
  | .defragmenter => "defragmenter"
  | .projectManager => "project_manager"
  | .factChecker => "fact_checker"

/- `SPECIALIST_ROUTE_WORK_FAMILIES` -/
def specialistRouteWorkFamilies : MaintenanceFamily → Option String
  | .conflictReview => some "conflict_review"
  | .deduplicator => some "memory_dedup_review"
  | .graphLinker => some "graph_link_review"
  | .taxonomist => some "memory_tagging"
  | _ => none

def operatorReview : String := "operator_review"

def workFamily (family : MaintenanceFamily) : String := (specialistRouteWorkFamilies family).getD operatorReview

inductive CurationValidationReasonCode where
  | needsDifferentSpecialist
  deriving DecidableEq, Repr

def CurationValidationReasonCode.value : CurationValidationReasonCode → String
  | .needsDifferentSpecialist => "needs_different_specialist"

structure CurationSpecialistRoute where
  action : CurationAction
  confidence : Int
  family : MaintenanceFamily
  reasonCode : CurationValidationReasonCode

/- What the function reads of its context, where that has it. -/
structure RouteContext where
  recordTokens : Option (List (String × String))
  graphTokens : Option (List (String × String))

structure Enqueueing where
  route : CurationSpecialistRoute
  context : RouteContext
  workspaceId : Option String
  priority : Int

inductive RouteError where
  | duplicateKey (key : String)
  | unreadable
  | idempotencyConflict
  deriving DecidableEq, Repr

def strings (texts : List String) : Json := .arr (texts.map .str)

/- `_route_target_ids` -/
def routeTargetIds (route : CurationSpecialistRoute) : List String :=
  sortedSet (route.action.operation.roles.memories.map (·.text))

variable (env : Canonical.Env)

def tokenOf (tokens : Option (List (String × String))) (memoryId : String) : Option String := tokens.bind (·.lookup memoryId)

def contextToken (context : RouteContext) (memoryId : String) : Except String (Option String) :=
  match tokenOf context.recordTokens memoryId,tokenOf context.graphTokens memoryId with
  | some record,some graph => (stableHash env (.obj [("record",.str record),("graph",.str graph)])).map some
  | some record,none => .ok (some record)
  | none,some graph => .ok (some graph)
  | none,none => .ok none

def revisionTokens (enqueueing : Enqueueing) : Except String (List String) := do
  let action := enqueueing.route.action
  let targetIds := routeTargetIds enqueueing.route
  let given ← targetIds.mapM (contextToken env enqueueing.context)
  .ok (sortedSet ((action.evidence.filterMap (·.revisionToken)).filter (· != "") ++
    (action.preconditions.recordTokens.filter fun item => targetIds.contains item.1.text).map (·.2) ++ given.filterMap id))

def revisionContent (route : CurationSpecialistRoute) (tokens : List String) : Json :=
  .obj [("target_ids",strings (routeTargetIds route)),("revision_tokens",strings tokens)]

/- `_route_target_revision_token` -/
def routeTargetRevisionToken (enqueueing : Enqueueing) : Except String String := do
  let tokens ← revisionTokens env enqueueing
  stableHash env (revisionContent enqueueing.route tokens)

def actionPayload (route : CurationSpecialistRoute) : Json.Object := ("confidence",.int route.confidence) :: modelDump route.action

def isExcluded (key : String) : Bool := ["confidence","rationale","evidence"].contains key

def operationPayload (route : CurationSpecialistRoute) : Json.Object := (actionPayload route).filter (!isExcluded ·.1)

def keyContent (route : CurationSpecialistRoute) (token : String) : Json.Object :=
  [("family",.str route.family.value),("reason_code",.str route.reasonCode.value),("target_revision_token",.str token),
    ("operation",.obj (operationPayload route))]

def operatorFields (family : MaintenanceFamily) : Json.Object :=
  if workFamily family == operatorReview then
    [("operator_review_required",.bool true),("operator_review_reason",.str "unsupported_specialist_family")]
  else []

def routePayload (route : CurationSpecialistRoute) (token : String) : Json.Object :=
  [("route_kind",.str "specialist_route"),("primary_family",.str route.family.value),("work_family",.str (workFamily route.family)),
    ("operation",.str route.action.operation.name),("action_id",.str route.action.actionId.text),
    ("target_ids",strings (routeTargetIds route)),("target_revision_token",.str token),("reason_code",.str route.reasonCode.value),
    ("action",.obj (actionPayload route))] ++ operatorFields route.family

def idempotencyKey (enqueueing : Enqueueing) (token : String) : Except String String :=
  (stableHash env (.obj (keyContent enqueueing.route token))).map ("specialist-route:" ++ ·)

def dumps (payload : Json.Object) : String := String.ofList (dump spaced (.obj payload))

/- The payload of a record; a stored payload is an object. -/
def storedPayload (record : WorkItem) : Except RouteError Json.Object :=
  match loads (if record.payloadJson = "" then "\x7b\x7d" else record.payloadJson) with
  | some (.obj payload) => .ok payload
  | _ => .error .unreadable

def canonicalToken (payload : Json.Object) : Except RouteError String :=
  match stableHash env (.obj payload) with
  | .ok token => .ok token
  | .error key => .error (.duplicateKey key)

/- The answer that the record of the store leads to. -/
def settled (payload : Json.Object) (record : WorkItem) (created : Bool) : Except RouteError (WorkItem × Bool) := do
  let stored ← storedPayload record
  if created then .ok (record,created)
  else do
    let kept ← canonicalToken env stored
    let given ← canonicalToken env payload
    if kept = given then .ok (record,created) else .error .idempotencyConflict

def workRequest (enqueueing : Enqueueing) : Except String (Json.Object × WorkRequest) := do
  let token ← routeTargetRevisionToken env enqueueing
  let key ← idempotencyKey env enqueueing token
  let payload := routePayload enqueueing.route token
  .ok (payload,⟨workFamily enqueueing.route.family,"agentic",dumps payload,enqueueing.workspaceId,enqueueing.priority,none,some key⟩)

def enqueueSpecialistRoute (enqueueing : Enqueueing) : Call (Except RouteError (WorkItem × Bool)) :=
  match workRequest env enqueueing with
  | .error key => pure (.error (.duplicateKey key))
  | .ok (payload,request) => do
    let (record,created) ← enqueueUnique request
    pure (settled env payload record created)

/- The canonical texts that are hashed. -/

def revisionText (enqueueing : Enqueueing) : Except String String := do
  let tokens ← revisionTokens env enqueueing
  canonicalize env (revisionContent enqueueing.route tokens)

def keyText (enqueueing : Enqueueing) : Except String String := do
  let token ← routeTargetRevisionToken env enqueueing
  canonicalize env (.obj (keyContent enqueueing.route token))

def payloadText (enqueueing : Enqueueing) : Except String String := do
  let token ← routeTargetRevisionToken env enqueueing
  canonicalize env (.obj (routePayload enqueueing.route token))

def hashedTexts (enqueueing : Enqueueing) : List (Except String String) :=
  [revisionText env enqueueing,keyText env enqueueing,payloadText env enqueueing]

/- SHA-256 gives plain texts and tells the texts of two calls apart. -/
structure Digests (first second : Enqueueing) : Prop where
  plain : ∀ text, isPlain (env.sha256 text)
  apart : ∀ text other, .ok text ∈ hashedTexts env first ++ hashedTexts env second →
    .ok other ∈ hashedTexts env first ++ hashedTexts env second → env.sha256 text = env.sha256 other → text = other

/- What two calls agree on, as canonical JSON: the parts of the key, and the parts of the action that it leaves out. -/

def SameRevisions (first second : Enqueueing) : Prop := revisionText env first = revisionText env second

def SameOperation (first second : Enqueueing) : Prop :=
  canonicalize env (.obj (operationPayload first.route)) = canonicalize env (.obj (operationPayload second.route))

structure SameKey (first second : Enqueueing) : Prop where
  family : first.route.family = second.route.family
  reason : first.route.reasonCode = second.route.reasonCode
  revisions : SameRevisions env first second
  operation : SameOperation env first second

def excludedPayload (route : CurationSpecialistRoute) : Json.Object := (actionPayload route).filter (isExcluded ·.1)

def SameExcluded (first second : Enqueueing) : Prop :=
  canonicalize env (.obj (excludedPayload first.route)) = canonicalize env (.obj (excludedPayload second.route))

section
variable {env : Canonical.Env} {route other : CurationSpecialistRoute} {tokens others : List String}

def hashOf (env : Canonical.Env) (value : Json) : String := "v1:" ++ env.sha256 (textOf (normalForm env value))

theorem stableHashKeyed (steady : Steady env.unicode) {value : Json} (keyed : WellKeyed value) :
    stableHash env value = .ok (hashOf env value) := by
  rw [stableHash,canonicalizeKeyed steady keyed]
  rfl

theorem plainObject {fields : List (String × Json)} (names : List String) (keys : fields.map (·.1) = names)
    (fine : (decide names.Nodup && names.all isPlain) = true) (each : WellKeyedFields fields) : WellKeyed (.obj fields) := by
  rw [Bool.and_eq_true,decide_eq_true_eq] at fine
  refine ⟨keys ▸ fine.1,fun field member => ?_,each⟩
  exact List.all_eq_true.mp fine.2 field.1 (keys ▸ List.mem_map_of_mem member)

theorem revisionKeyed : WellKeyed (revisionContent route tokens) :=
  plainObject ["target_ids","revision_tokens"] rfl (by decide +kernel) ⟨textsKeyed _,textsKeyed _,trivial⟩

theorem confidenceApart (operation : Actions.Operation) (value : Json) : ("confidence",value) ∉ operation.fields := by
  cases operation <;> simp [Actions.Operation.fields]

theorem actionKeyed : WellKeyed (.obj (actionPayload route)) := by
  obtain ⟨distinct,plain,each⟩ := dumpKeyed route.action
  have named : isPlain "confidence" := by decide +kernel
  have fresh : "confidence" ∉ (modelDump route.action).map (·.1) := by
    simp [modelDump,confidenceApart]
  exact ⟨List.nodup_cons.mpr ⟨fresh,distinct⟩,List.forall_mem_cons.mpr ⟨named,plain⟩,trivial,each⟩

theorem operationKeyed : WellKeyed (.obj (operationPayload route)) := filterKeyed _ actionKeyed

theorem keyKeyed {token : String} : WellKeyed (.obj (keyContent route token)) :=
  plainObject ["family","reason_code","target_revision_token","operation"] rfl (by decide +kernel)
    ⟨trivial,trivial,trivial,operationKeyed,trivial⟩

def payloadNames (family : MaintenanceFamily) : List String :=
  ["route_kind","primary_family","work_family","operation","action_id","target_ids","target_revision_token","reason_code",
    "action"] ++ (operatorFields family).map (·.1)

theorem payloadKeyed {token : String} : WellKeyed (.obj (routePayload route token)) := by
  have fine : (decide (payloadNames route.family).Nodup && (payloadNames route.family).all isPlain) = true := by
    cases route.family <;> decide +kernel
  have fields : WellKeyedFields (operatorFields route.family) := by
    unfold operatorFields
    split
    · exact ⟨trivial,trivial,trivial⟩
    · trivial
  refine plainObject (payloadNames route.family) (by rw [routePayload,List.map_append]; rfl) fine ?_
  exact ⟨trivial,trivial,trivial,trivial,trivial,textsKeyed _,trivial,trivial,actionKeyed,fields⟩

theorem contextTokenOk (steady : Steady env.unicode) (context : RouteContext) (memoryId : String) :
    ∃ token, contextToken env context memoryId = .ok token := by
  unfold contextToken
  split
  · rename_i record graph _ _
    have keyed : WellKeyed (.obj [("record",.str record),("graph",.str graph)]) :=
      plainObject ["record","graph"] rfl (by decide +kernel) ⟨trivial,trivial,trivial⟩
    exact ⟨_,by rw [stableHashKeyed steady keyed]; rfl⟩
  all_goals exact ⟨_,rfl⟩

theorem eachOk {α β : Type} {f : α → Except String β} (ok : ∀ item, ∃ reply, f item = .ok reply) (items : List α) :
    ∃ replies, items.mapM f = .ok replies := by
  induction items with
  | nil => exact ⟨[],rfl⟩
  | cons item rest ih =>
    obtain ⟨reply,first⟩ := ok item
    obtain ⟨replies,later⟩ := ih
    exact ⟨reply::replies,by rw [List.mapM_cons,first,later]; rfl⟩

theorem revisionTokensOk (steady : Steady env.unicode) (enqueueing : Enqueueing) :
    ∃ tokens, revisionTokens env enqueueing = .ok tokens := by
  obtain ⟨given,read⟩ := eachOk (contextTokenOk steady enqueueing.context) (routeTargetIds enqueueing.route)
  exact ⟨_,by unfold revisionTokens; simp only [read]; rfl⟩

end

/- One call with the tokens that it finds. -/
structure Prepared (enqueueing : Enqueueing) (tokens : List String) : Prop where
  steady : Steady env.unicode
  found : revisionTokens env enqueueing = .ok tokens

section
variable {env : Canonical.Env} {enqueueing : Enqueueing} {tokens : List String}

theorem prepares (steady : Steady env.unicode) (enqueueing : Enqueueing) : ∃ tokens, Prepared env enqueueing tokens := by
  obtain ⟨tokens,found⟩ := revisionTokensOk steady enqueueing
  exact ⟨tokens,steady,found⟩

def tokenFor (env : Canonical.Env) (enqueueing : Enqueueing) (tokens : List String) : String :=
  hashOf env (revisionContent enqueueing.route tokens)

def keyFor (env : Canonical.Env) (enqueueing : Enqueueing) (tokens : List String) : String :=
  "specialist-route:" ++ hashOf env (.obj (keyContent enqueueing.route (tokenFor env enqueueing tokens)))

def payloadFor (env : Canonical.Env) (enqueueing : Enqueueing) (tokens : List String) : Json.Object :=
  routePayload enqueueing.route (tokenFor env enqueueing tokens)

def requestFor (env : Canonical.Env) (enqueueing : Enqueueing) (tokens : List String) : WorkRequest :=
  ⟨workFamily enqueueing.route.family,"agentic",dumps (payloadFor env enqueueing tokens),enqueueing.workspaceId,
    enqueueing.priority,none,some (keyFor env enqueueing tokens)⟩

variable (prepared : Prepared env enqueueing tokens)
include prepared

theorem revisionTokenRead : routeTargetRevisionToken env enqueueing = .ok (tokenFor env enqueueing tokens) := by
  unfold routeTargetRevisionToken
  rw [prepared.found]
  exact stableHashKeyed prepared.steady revisionKeyed

theorem requestRead : workRequest env enqueueing = .ok (payloadFor env enqueueing tokens,requestFor env enqueueing tokens) := by
  unfold workRequest idempotencyKey
  rw [revisionTokenRead prepared]
  simp only [bind,Except.bind,stableHashKeyed prepared.steady keyKeyed,Except.map]
  rfl

theorem textsRead : hashedTexts env enqueueing = [revisionContent enqueueing.route tokens,
    .obj (keyContent enqueueing.route (tokenFor env enqueueing tokens)),.obj (payloadFor env enqueueing tokens)].map
      fun value => .ok (textOf (normalForm env value)) := by
  have revision : revisionText env enqueueing = .ok (textOf (normalForm env (revisionContent enqueueing.route tokens))) := by
    unfold revisionText
    rw [prepared.found]
    exact canonicalizeKeyed prepared.steady revisionKeyed
  have key : keyText env enqueueing = .ok (textOf (normalForm env (.obj (keyContent enqueueing.route (tokenFor env enqueueing tokens))))) := by
    unfold keyText
    rw [revisionTokenRead prepared]
    exact canonicalizeKeyed prepared.steady keyKeyed
  have payload : payloadText env enqueueing = .ok (textOf (normalForm env (.obj (payloadFor env enqueueing tokens)))) := by
    unfold payloadText
    rw [revisionTokenRead prepared]
    exact canonicalizeKeyed prepared.steady payloadKeyed
  rw [hashedTexts,revision,key,payload]
  rfl

end

/- What the hashes of two calls tell. -/

def contents (env : Canonical.Env) (enqueueing : Enqueueing) (tokens : List String) : List Json :=
  [revisionContent enqueueing.route tokens,.obj (keyContent enqueueing.route (tokenFor env enqueueing tokens)),
    .obj (payloadFor env enqueueing tokens)]

theorem contentsKeyed {env : Canonical.Env} {enqueueing : Enqueueing} {tokens : List String} :
    ∀ content ∈ contents env enqueueing tokens, WellKeyed content := by
  simp only [contents,List.forall_mem_cons]
  exact ⟨revisionKeyed,keyKeyed,payloadKeyed,nofun⟩

section
variable {env : Canonical.Env} {first second : Enqueueing} {tokens others : List String}
variable (prepared : Prepared env first tokens) (prepared' : Prepared env second others) (digests : Digests env first second)
include prepared prepared' digests

theorem sameHash {content content' : Json} (left : content ∈ contents env first tokens)
    (right : content' ∈ contents env second others) :
    hashOf env content = hashOf env content' ↔ canonicalize env content = canonicalize env content' := by
  have hashed : .ok (textOf (normalForm env content)) ∈ hashedTexts env first ++ hashedTexts env second := by
    rw [textsRead prepared]
    exact List.mem_append_left _ (List.mem_map_of_mem left)
  have hashed' : .ok (textOf (normalForm env content')) ∈ hashedTexts env first ++ hashedTexts env second := by
    rw [textsRead prepared']
    exact List.mem_append_right _ (List.mem_map_of_mem right)
  rw [canonicalizeKeyed prepared.steady (contentsKeyed _ left),canonicalizeKeyed prepared.steady (contentsKeyed _ right),
    Except.ok.injEq,hashOf,hashOf,String.append_right_inj]
  exact ⟨digests.apart _ _ hashed hashed',congrArg env.sha256⟩

theorem sameRevisions : tokenFor env first tokens = tokenFor env second others ↔ SameRevisions env first second := by
  rw [tokenFor,tokenFor,sameHash prepared prepared' digests (by simp [contents]) (by simp [contents]),SameRevisions,revisionText,
    revisionText,prepared.found,prepared'.found]
  rfl

omit prepared prepared' in
theorem tokenNormal (steady : Steady env.unicode) (enqueueing : Enqueueing) (tokens : List String) :
    normalizeText env (tokenFor env enqueueing tokens) = tokenFor env enqueueing tokens := by
  have plain : isPlain (tokenFor env enqueueing tokens) := by
    have digest := digests.plain (textOf (normalForm env (revisionContent enqueueing.route tokens)))
    unfold isPlain at digest ⊢
    rw [tokenFor,hashOf,String.toList_append,List.all_append,digest]
    decide +kernel
  exact normalPlain steady plain

omit prepared prepared' digests in
theorem familyNormal (steady : Steady env.unicode) (family : MaintenanceFamily) :
    normalizeText env family.value = family.value :=
  normalPlain steady (by cases family <;> decide +kernel)

omit prepared prepared' digests in
theorem familyInjective {family family' : MaintenanceFamily} (same : family.value = family'.value) : family = family' := by
  cases family <;> cases family' <;> simp_all [MaintenanceFamily.value]

theorem sameKey : keyFor env first tokens = keyFor env second others ↔ SameKey env first second := by
  have steady := prepared.steady
  have reasons : first.route.reasonCode = second.route.reasonCode := by
    cases first.route.reasonCode
    cases second.route.reasonCode
    rfl
  have names : (keyContent first.route (tokenFor env first tokens)).map (·.1) =
      (keyContent second.route (tokenFor env second others)).map (·.1) := rfl
  rw [keyFor,keyFor,String.append_right_inj,sameHash prepared prepared' digests (by simp [contents]) (by simp [contents]),
    canonicalizeShape steady keyKeyed keyKeyed names]
  simp only [keyContent,List.map_cons,List.map_nil,List.cons.injEq,and_true,normalForm,arranged,Json.str.injEq,familyNormal steady,
    tokenNormal digests steady,sameRevisions prepared prepared' digests,reasons]
  constructor
  · rintro ⟨family,_,revisions,operation⟩
    exact ⟨familyInjective family,reasons,revisions,(canonicalizeSame steady operationKeyed operationKeyed).mpr operation⟩
  · intro same
    exact ⟨congrArg _ same.family,trivial,same.revisions,(canonicalizeSame steady operationKeyed operationKeyed).mp same.operation⟩

omit prepared prepared' digests in
theorem routePayloadNames (route : CurationSpecialistRoute) (token : String) :
    (routePayload route token).map (·.1) = payloadNames route.family := by
  rw [routePayload,List.map_append]
  rfl

omit prepared prepared' digests in
theorem partOfKey (steady : Steady env.unicode) (same : SameOperation env first second) {key : String} {value other : Json}
    (kept : isExcluded key = false) (left : (key,value) ∈ actionPayload first.route) (right : (key,other) ∈ actionPayload second.route) :
    arranged (normalForm env value) = arranged (normalForm env other) := by
  have inKey {route : CurationSpecialistRoute} {value : Json} (there : (key,value) ∈ actionPayload route) :
      (key,value) ∈ operationPayload route := List.mem_filter.mpr ⟨there,by simp [kept]⟩
  exact canonicalizeField steady operationKeyed operationKeyed same (inKey left) (inKey right)

omit prepared prepared' digests in
theorem operationThere (route : CurationSpecialistRoute) : ("operation",.str route.action.operation.name) ∈ actionPayload route := by
  refine List.mem_cons_of_mem _ (List.mem_append_right _ ?_)
  cases route.action.operation <;> simp [Actions.Operation.fields,Actions.Operation.name]

/- Two calls of one key have one payload if they agree on what the key leaves out. -/
theorem samePayload (same : SameKey env first second) :
    canonicalize env (.obj (payloadFor env first tokens)) = canonicalize env (.obj (payloadFor env second others)) ↔
      SameExcluded env first second := by
  have steady := prepared.steady
  have names : (payloadFor env first tokens).map (·.1) = (payloadFor env second others).map (·.1) := by
    rw [payloadFor,payloadFor,routePayloadNames,routePayloadNames,same.family]
  have operation := partOfKey steady same.operation (by decide) (operationThere first.route) (operationThere second.route)
  have actionId : arranged (normalForm env (.str first.route.action.actionId.text)) =
      arranged (normalForm env (.str second.route.action.actionId.text)) :=
    partOfKey steady same.operation (by decide) (List.mem_cons_of_mem _ List.mem_cons_self) (List.mem_cons_of_mem _ List.mem_cons_self)
  have revisions := (sameRevisions prepared prepared' digests).mpr same.revisions
  have targets : arranged (normalForm env (strings (routeTargetIds first.route))) =
      arranged (normalForm env (strings (routeTargetIds second.route))) := by
    have agreed := same.revisions
    rw [SameRevisions,revisionText,revisionText,prepared.found,prepared'.found] at agreed
    exact canonicalizeField steady revisionKeyed revisionKeyed agreed List.mem_cons_self List.mem_cons_self
  have action : arranged (normalForm env (.obj (actionPayload first.route))) =
      arranged (normalForm env (.obj (actionPayload second.route))) ↔ SameExcluded env first second := by
    rw [← canonicalizeSame steady actionKeyed actionKeyed,canonicalizeParts steady isExcluded actionKeyed actionKeyed]
    exact and_iff_left same.operation
  unfold payloadFor at names ⊢
  rw [canonicalizeShape steady payloadKeyed payloadKeyed names]
  simp only [routePayload,List.map_append,List.map_cons,List.map_nil,same.family,same.reason,operation,actionId,revisions,targets,
    List.append_left_inj,List.cons.injEq,true_and,and_true,action]

omit digests in
theorem sameTargets (same : SameRevisions env first second) : routeTargetIds first.route = routeTargetIds second.route := by
  have steady := prepared.steady
  rw [SameRevisions,revisionText,revisionText,prepared.found,prepared'.found] at same
  have read := canonicalizeField steady revisionKeyed revisionKeyed same List.mem_cons_self List.mem_cons_self
  have texts (route : CurationSpecialistRoute) :
      (routeTargetIds route).map ((arranged ∘ normalForm env) ∘ Json.str) = (routeTargetIds route).map Json.str := by
    refine List.map_congr_left fun text member => ?_
    obtain ⟨id,_,rfl⟩ := List.mem_map.mp (memSortedSet.mp member)
    exact congrArg Json.str (normalPlain steady (Curation.uuidPlain id.canonical))
  rw [strings,strings,normalForm,normalForm,sameItems,normalItemsMap,normalItemsMap,List.map_map,List.map_map,List.map_map,
    List.map_map,texts,texts] at read
  exact List.map_injective_iff.mpr (fun _ _ => Json.str.inj) read

end

/- The first of two calls answered, and then the queues were used. -/
structure Enqueued (env : Canonical.Env) (first : Enqueueing) where
  queues : Queues
  unique : Unique queues
  oracle : Oracle StoreError
  quiet : Quiet oracle
  moment : Nat
  item : WorkItem
  created : Bool
  after : Session (Connection Queues)
  ran : enqueueSpecialistRoute env first oracle ⟨⟨queues,none⟩,moment⟩ = (.ok (.ok (item,created)),after)
  uses : List Use

def Enqueued.connection {env : Canonical.Env} {first : Enqueueing} (enqueued : Enqueued env first) : Connection Queues :=
  Work.uses enqueued.after.data enqueued.uses

section
variable {env : Canonical.Env} {first second : Enqueueing} (enqueued : Enqueued env first)

/- The second call returns the item and creates nothing. -/
def Repeats (second : Enqueueing) (oracle : Oracle StoreError) (moment : Nat) : Prop :=
  ∃ record after, enqueueSpecialistRoute env second oracle ⟨enqueued.connection,moment⟩ = (.ok (.ok (record,false)),after) ∧
    identity record = identity enqueued.item ∧ after.data.seen = enqueued.connection.seen

/- Whatever the second call returns, it is not the item. -/
def Separate (second : Enqueueing) (oracle : Oracle StoreError) (moment : Nat) : Prop :=
  ∀ record created after, enqueueSpecialistRoute env second oracle ⟨enqueued.connection,moment⟩ =
    (.ok (.ok (record,created)),after) → record.id ≠ enqueued.item.id

structure Idempotent (second : Enqueueing) : Prop where
  repeats : SameKey env first second → ∀ oracle moment, Quiet oracle → Repeats enqueued second oracle moment
  separate : ¬(SameOperation env first second ∧ routeTargetIds first.route = routeTargetIds second.route ∧
    SameRevisions env first second) → ∀ oracle moment, Quiet oracle → Separate enqueued second oracle moment

end

section
variable {env : Canonical.Env} {enqueueing : Enqueueing} {tokens : List String} (prepared : Prepared env enqueueing tokens)
include prepared

theorem routeRuns (oracle : Oracle StoreError) (session : Session (Connection Queues)) :
    enqueueSpecialistRoute env enqueueing oracle session = match enqueueUnique (requestFor env enqueueing tokens) oracle session with
      | (.ok (record,created),after) => (.ok (settled env (payloadFor env enqueueing tokens) record created),after)
      | (.error error,after) => (.error error,after) := by
  unfold enqueueSpecialistRoute
  rw [requestRead prepared]
  dsimp only
  rw [bindRuns]
  rcases enqueueUnique (requestFor env enqueueing tokens) oracle session with ⟨error | ⟨record,created⟩,after⟩ <;> rfl

theorem payloadToken : canonicalToken env (payloadFor env enqueueing tokens) =
    .ok (hashOf env (.obj (payloadFor env enqueueing tokens))) := by
  have keyed : WellKeyed (.obj (payloadFor env enqueueing tokens)) := payloadKeyed
  rw [canonicalToken,stableHashKeyed prepared.steady keyed]

/- What is stored for a payload reads back as one of its token. -/
theorem payloadStored {record : WorkItem} (written : record.payloadJson = dumps (payloadFor env enqueueing tokens)) :
    ∃ stored, storedPayload record = .ok stored ∧ canonicalToken env stored = canonicalToken env (payloadFor env enqueueing tokens) := by
  have keyed : WellKeyed (.obj (payloadFor env enqueueing tokens)) := payloadKeyed
  have read := loadsDump spacedMarked (.obj (payloadFor env enqueueing tokens))
  have something : dumps (payloadFor env enqueueing tokens) ≠ "" := by
    intro empty
    have unread : loads "" = none := by decide +kernel
    rw [dumps] at empty
    rw [empty,unread] at read
    cases read
  obtain ⟨stored,same⟩ : ∃ stored, arranged (.obj (payloadFor env enqueueing tokens)) = .obj stored := ⟨_,arrangedObject keyed.1⟩
  refine ⟨stored,?_,?_⟩
  · rw [storedPayload,written,if_neg something,dumps,read,same]
  · have agreed := canonicalizeArranged prepared.steady keyed
    rw [same] at agreed
    rw [canonicalToken,canonicalToken,stableHash,stableHash,agreed]

theorem routeCreated {oracle : Oracle StoreError} (quiet : Quiet oracle) (session : Session (Connection Queues))
    (fits : session.data.seen.workItems.any
      (workItems.clashes (newItem (oracle session.moment) (requestFor env enqueueing tokens))) = false) :
    ∃ after, enqueueSpecialistRoute env enqueueing oracle session =
      (.ok (.ok (newItem (oracle session.moment) (requestFor env enqueueing tokens),true)),after) := by
  have keyed : (requestFor env enqueueing tokens).idempotencyKey = some (keyFor env enqueueing tokens) := rfl
  obtain ⟨moment,ran⟩ := @enqueueFresh oracle ⟨session.data,session.moment + 1⟩ _ (hasKey (keyFor env enqueueing tokens)) quiet fits
  obtain ⟨stored,read,_⟩ := @payloadStored env enqueueing tokens prepared
    (newItem (oracle session.moment) (requestFor env enqueueing tokens)) rfl
  rw [routeRuns prepared,enqueueUniqueRuns keyed,ran]
  dsimp only
  rw [settled,read]
  exact ⟨_,rfl⟩

omit prepared in
theorem settledOk {payload : Json.Object} {record item : WorkItem} {created flag : Bool}
    (ok : settled env payload record created = .ok (item,flag)) : item = record ∧ flag = created ∧
      (created = false → ∃ stored, storedPayload record = .ok stored ∧ canonicalToken env stored = canonicalToken env payload) := by
  unfold settled at ok
  cases read : storedPayload record with
  | error error =>
    rw [read] at ok
    cases ok
  | ok stored =>
    rw [read] at ok
    cases created with
    | true =>
      cases ok
      exact ⟨rfl,rfl,nofun⟩
    | false =>
      cases kept : canonicalToken env stored with
      | error error => simp [bind,Except.bind,kept] at ok
      | ok token =>
        cases given : canonicalToken env payload with
        | error error => simp [bind,Except.bind,kept,given] at ok
        | ok other =>
          by_cases agree : token = other
          · simp [bind,Except.bind,kept,given,agree] at ok
            exact ⟨ok.1.symm,ok.2,fun _ => ⟨stored,rfl,by rw [kept,agree]⟩⟩
          · simp [bind,Except.bind,kept,given,agree] at ok

end

/- What an answer leaves in the store. -/
structure Left (env : Canonical.Env) (enqueueing : Enqueueing) (tokens : List String) (item : WorkItem)
    (connection : Connection Queues) : Prop where
  key : item.idempotencyKey = some (keyFor env enqueueing tokens)
  stored : ∃ stored, storedPayload item = .ok stored ∧ canonicalToken env stored = canonicalToken env (payloadFor env enqueueing tokens)
  held : SeesOnly (Holds item) connection

section
variable {env : Canonical.Env} {first second : Enqueueing} {tokens others : List String}

theorem firstLeaves (prepared : Prepared env first tokens) (enqueued : Enqueued env first) :
    Left env first tokens enqueued.item enqueued.connection := by
  have ran := enqueued.ran
  rw [routeRuns prepared] at ran
  rcases asked : enqueueUnique (requestFor env first tokens) enqueued.oracle ⟨⟨enqueued.queues,none⟩,enqueued.moment⟩ with
    ⟨error | ⟨record,created⟩,after⟩
  · rw [asked] at ran
    cases ran
  · rw [asked] at ran
    dsimp only at ran
    obtain ⟨answered,rfl⟩ := Prod.mk.inj ran
    obtain ⟨rfl,_,agreed⟩ := settledOk (Except.ok.inj answered)
    have kept : SeesOnly (Holds enqueued.item) enqueued.after.data → SeesOnly (Holds enqueued.item) enqueued.connection :=
      usesHolds enqueued.uses
    obtain ⟨rfl,found⟩ | ⟨rfl,fits,made,data⟩ := enqueueUniqueOk enqueued.quiet rfl asked
    · have there : SeesOnly (Holds enqueued.item) (⟨enqueued.queues,none⟩ : Connection Queues) :=
        ⟨⟨enqueued.unique,List.mem_map_of_mem (List.mem_of_find?_eq_some found)⟩,nofun⟩
      have later : SeesOnly (Holds enqueued.item) (enqueueUnique (requestFor env first tokens) enqueued.oracle
          ⟨⟨enqueued.queues,none⟩,enqueued.moment⟩).2.data :=
        (performHolds enqueued.item (.enqueueUnique (requestFor env first tokens)) enqueued.oracle _ there).1
      rw [asked] at later
      exact ⟨eq_of_beq (List.find?_some found :),agreed rfl,kept later⟩
    · refine ⟨?_,payloadStored prepared (by rw [made]; rfl),kept ?_⟩
      · rw [made]
        rfl
      · rw [data]
        refine ⟨⟨insertUnique enqueued.unique fits,?_⟩,nofun⟩
        exact List.mem_map_of_mem (List.mem_append_right _ List.mem_cons_self)

/- A call whose key is there is settled with the item that has it. -/
theorem secondFinds (prepared : Prepared env second others) {item : WorkItem} {connection : Connection Queues}
    (held : SeesOnly (Holds item) connection) (key : item.idempotencyKey = some (keyFor env second others))
    {oracle : Oracle StoreError} (quiet : Quiet oracle) (moment : Nat) :
    ∃ record after, identity record = identity item ∧ after.data.seen = connection.seen ∧
      enqueueSpecialistRoute env second oracle ⟨connection,moment⟩ =
        (.ok (settled env (payloadFor env second others) record false),after) := by
  obtain ⟨record,found,same⟩ := holdsFound (seesSeen held) key
  have given : (requestFor env second others).idempotencyKey = some (keyFor env second others) := rfl
  obtain ⟨after,ran,seen⟩ := @enqueueUniqueFound oracle ⟨connection,moment⟩ _ _ _ quiet given found
  exact ⟨record,after,same,seen,by rw [routeRuns prepared,ran]⟩

variable (prepared : Prepared env first tokens) (prepared' : Prepared env second others) (digests : Digests env first second)
variable (enqueued : Enqueued env first)
include prepared prepared' digests

/- The second call of a key repeats the first if it agrees on the rest of the action as well. -/
theorem repeatsIff (same : SameKey env first second) {oracle : Oracle StoreError} (quiet : Quiet oracle) (moment : Nat) :
    Repeats enqueued second oracle moment ↔ SameExcluded env first second := by
  have left := firstLeaves prepared enqueued
  have key := left.key
  rw [(sameKey prepared prepared' digests).mpr same] at key
  obtain ⟨record,after,one,seen,ran⟩ := secondFinds prepared' left.held key quiet moment
  obtain ⟨stored,read,token⟩ := left.stored
  have again : storedPayload record = .ok stored := by
    have written : record.payloadJson = enqueued.item.payloadJson := congrArg (·.2.2) one
    rw [storedPayload,written]
    exact read
  have hashes : canonicalToken env stored = canonicalToken env (payloadFor env second others) ↔ SameExcluded env first second := by
    rw [token,payloadToken prepared,payloadToken prepared',Except.ok.injEq,sameHash prepared prepared' digests (by simp [contents])
      (by simp [contents])]
    exact samePayload prepared prepared' digests same
  rw [← hashes]
  constructor
  · rintro ⟨_,_,repeated,_⟩
    rw [ran] at repeated
    obtain ⟨_,_,agreed⟩ := settledOk (Except.ok.inj (Prod.mk.inj repeated).1)
    obtain ⟨found,readAgain,agree⟩ := agreed rfl
    rw [again] at readAgain
    cases readAgain
    exact agree
  · intro agree
    refine ⟨record,after,?_,one,seen⟩
    rw [ran,settled,again]
    simp [bind,Except.bind,agree,payloadToken prepared']

/- An item answers the calls of its own key. -/
theorem keysApart {oracle : Oracle StoreError} (quiet : Quiet oracle) {moment : Nat} {record : WorkItem} {created : Bool} {after}
    (ran : enqueueSpecialistRoute env second oracle ⟨enqueued.connection,moment⟩ = (.ok (.ok (record,created)),after))
    (one : record.id = enqueued.item.id) : SameKey env first second := by
  have left := firstLeaves prepared enqueued
  have holds := seesSeen left.held
  rw [routeRuns prepared'] at ran
  rcases asked : enqueueUnique (requestFor env second others) oracle ⟨enqueued.connection,moment⟩ with ⟨error | ⟨found,flag⟩,later⟩
  · rw [asked] at ran
    cases ran
  · rw [asked] at ran
    obtain ⟨rfl,_,_⟩ := settledOk (Except.ok.inj (Prod.mk.inj ran).1)
    refine (sameKey prepared prepared' digests).mp ?_
    obtain ⟨_,there⟩ | ⟨_,fits,_,_⟩ := enqueueUniqueOk quiet rfl asked
    · have same := holdsRow holds (List.mem_of_find?_eq_some there) one
      have key : record.idempotencyKey = enqueued.item.idempotencyKey := congrArg (·.2.1) same
      have chosen : record.idempotencyKey = some (keyFor env second others) := eq_of_beq (List.find?_some there :)
      exact Option.some.inj (left.key.symm.trans (key.symm.trans chosen))
    · obtain ⟨row,there,same⟩ := List.mem_map.mp holds.stored
      have id : row.id = record.id := (congrArg (·.1) same).trans one.symm
      exact absurd (by simp [workItems,id]) (List.any_eq_false.mp fits row there)

end

/- The key leaves out the confidence, the rationale and the evidence; what is compared with the
stored payload does not. -/
theorem routesOnce {env : Canonical.Env} {first second : Enqueueing} (steady : Steady env.unicode)
    (digests : Digests env first second) (enqueued : Enqueued env first) :
    Idempotent enqueued second ↔ (SameKey env first second → SameExcluded env first second) := by
  obtain ⟨tokens,prepared⟩ := prepares steady first
  obtain ⟨others,prepared'⟩ := prepares steady second
  constructor
  · intro idempotent same
    have repeated := idempotent.repeats same enqueued.oracle enqueued.moment enqueued.quiet
    exact (repeatsIff prepared prepared' digests enqueued same enqueued.quiet enqueued.moment).mp repeated
  · intro agree
    constructor
    · intro same oracle moment quiet
      exact (repeatsIff prepared prepared' digests enqueued same quiet moment).mpr (agree same)
    · intro apart oracle moment quiet record created after ran one
      have same := keysApart prepared prepared' digests enqueued quiet ran one
      exact apart ⟨same.operation,sameTargets prepared prepared' same.revisions,same.revisions⟩

/- A link, routed with some confidence. -/
def linkRoute (confidence : Int) : Enqueueing :=
  ⟨⟨linking memoryA memoryB,confidence,.graphLinker,.needsDifferentSpecialist⟩,⟨none,none⟩,none,100⟩

/- Every letter as its number, in strokes. -/
def strokes (text : List Char) : List Char := text.flatMap fun c => List.replicate c.toNat 'a' ++ ['b']

theorem strokesInjective {text other : List Char} (same : strokes text = strokes other) : text = other := by
  have counted (n : Nat) (rest : List Char) : (List.replicate n 'a' ++ 'b'::rest).takeWhile (· == 'a') = List.replicate n 'a' := by
    induction n with
    | zero => simp
    | succ n ih => simp [List.replicate_succ,ih]
  induction text generalizing other with
  | nil =>
    cases other with
    | nil => rfl
    | cons d rest => simp [strokes] at same
  | cons c text ih =>
    cases other with
    | nil => simp [strokes] at same
    | cons d rest =>
      have split : List.replicate c.toNat 'a' ++ 'b' :: strokes text = List.replicate d.toNat 'a' ++ 'b' :: strokes rest := by
        simpa [strokes] using same
      have heads := congrArg (List.takeWhile (· == 'a')) split
      rw [counted,counted] at heads
      have number : c.toNat = d.toNat := by simpa using congrArg List.length heads
      rw [number] at split
      have tails := List.append_cancel_left split
      rw [Char.toNat_inj.mp number,ih (List.cons.inj tails).2]

def strokeHash : Canonical.Env := ⟨textIds.unicode,fun text => String.ofList (strokes text.toList)⟩

theorem strokeSteady : Steady strokeHash.unicode := textsSteady

theorem strokeDigests (first second : Enqueueing) : Digests strokeHash first second where
  plain text := by
    have letters : isPlain (String.ofList (strokes text.toList)) = true := by
      rw [isPlain,String.toList_ofList,strokes,List.all_flatMap]
      refine List.all_eq_true.mpr fun c _ => ?_
      rw [List.all_append,List.all_replicate]
      split <;> decide
    exact letters
  apart text other _ _ same := String.toList_injective (strokesInjective (String.ofList_injective same))

def stillOracle : Oracle StoreError := fun _ => ⟨none,"item","",0⟩

def emptyQueues : Queues := ⟨[],[]⟩

theorem firstEnqueued (confidence : Int) : Nonempty (Enqueued strokeHash (linkRoute confidence)) := by
  obtain ⟨tokens,prepared⟩ := @prepares strokeHash strokeSteady (linkRoute confidence)
  have quiet : Quiet stillOracle := fun _ => rfl
  obtain ⟨after,ran⟩ := routeCreated prepared quiet ⟨⟨emptyQueues,none⟩,0⟩ rfl
  exact ⟨⟨emptyQueues,List.Pairwise.nil,stillOracle,quiet,0,_,true,after,ran,[]⟩⟩

theorem routesOnceSample : ∃ enqueued : Enqueued strokeHash (linkRoute 9),
    Idempotent enqueued (linkRoute 8) ↔
      (SameKey strokeHash (linkRoute 9) (linkRoute 8) → SameExcluded strokeHash (linkRoute 9) (linkRoute 8)) := by
  obtain ⟨enqueued⟩ := firstEnqueued 9
  exact ⟨enqueued,routesOnce strokeSteady (strokeDigests _ _) enqueued⟩

/- The second route is less sure. -/
theorem routeConflicts : ∃ enqueued : Enqueued strokeHash (linkRoute 9), ¬ Idempotent enqueued (linkRoute 8) := by
  obtain ⟨tokens,prepared⟩ := @prepares strokeHash strokeSteady (linkRoute 9)
  obtain ⟨others,prepared'⟩ := @prepares strokeHash strokeSteady (linkRoute 8)
  obtain ⟨enqueued⟩ := firstEnqueued 9
  have revisions : SameRevisions strokeHash (linkRoute 9) (linkRoute 8) := by
    simp only [SameRevisions,revisionText,revisionTokens,revisionContent,routeTargetIds,linkRoute]
  have operation : operationPayload (linkRoute 9).route = operationPayload (linkRoute 8).route := by
    simp [operationPayload,actionPayload,linkRoute,isExcluded]
  have same : SameKey strokeHash (linkRoute 9) (linkRoute 8) := ⟨rfl,rfl,revisions,by rw [SameOperation,operation]⟩
  refine ⟨enqueued,fun idempotent => ?_⟩
  have quiet : Quiet stillOracle := fun _ => rfl
  have agreed := (repeatsIff prepared prepared' (strokeDigests _ _) enqueued same quiet 0).mp (idempotent.repeats same _ 0 quiet)
  have sure (confidence : Int) : ("confidence",.int confidence) ∈ excludedPayload (linkRoute confidence).route :=
    List.mem_filter.mpr ⟨List.mem_cons_self,rfl⟩
  have confidences := canonicalizeField strokeSteady (filterKeyed _ actionKeyed) (filterKeyed _ actionKeyed) agreed (sure 9) (sure 8)
  cases confidences

end McpMemory.SpecialistRoutes
