import McpMemory.Curation.Actions
import McpMemory.Curation.Footprint
import McpMemory.Curation.Reconciliation

/-! The two verifiers of `core/curation_verifier.py` side by side: `verify` looks at the action and
`verify_descriptor` at what is stored of it. They ask the same graph in another order, and of a
split the stored ids are compared with texts. -/
namespace McpMemory.Curation.Reconciliation
open Memory Text Transaction
open History (Uuid)
open Actions (CurationAction)

/- `str` is that of Python for a value of JSON. -/
structure VerifierEnv where
  actions : Curation.Env
  str : Json → String
  descriptorOf : String → Option VerificationDescriptor
  strText : ∀ text, str (.str text) = text

variable (env : VerifierEnv)

def verifyCreateLink (current : ActionReceipt) (sourceId targetId linkType : String) (context : Option String)
    (expectedIds : List String) : Verification :=
  freshContexts expectedIds fun contexts =>
    required (receiptIds current == expectedIds) "affected_ids_mismatch" <|
    checkedToken env.actions current contexts expectedIds <|
    contextOf contexts sourceId fun source =>
      match hasExactEdge env.actions source sourceId targetId linkType (context.getD "") with
      | .error error => .fail error
      | .ok edge => required edge "edge_missing" (.done none)

def verifyRemoveLink (current : ActionReceipt) (sourceId targetId linkType : String) (expectedIds : List String) :
    Verification :=
  freshContexts expectedIds fun contexts =>
    required (receiptIds current == expectedIds) "affected_ids_mismatch" <|
    checkedToken env.actions current contexts expectedIds <|
    contextOf contexts sourceId fun source =>
      match hasAnyEdge env.actions source sourceId targetId linkType with
      | .error error => .fail error
      | .ok edge => required (!edge) "edge_still_present" (.done none)

def mergeIds (canonicalId : String) (sourceIds : List String) : List String :=
  sortedSet (canonicalId :: sourceIds.filter (· != canonicalId))

def verifyMergeAction (current : ActionReceipt) (canonicalId : String) (sourceIds expectedIds : List String) : Verification :=
  freshContexts expectedIds fun contexts =>
    required (receiptIds current == expectedIds) "affected_ids_mismatch" <|
    checkedToken env.actions current contexts expectedIds <|
    contextOf contexts canonicalId fun canonical =>
      let merged := sortedSet (sourceIds.filter (· != canonicalId))
      required (listsIds merged (canonical.record.metadata.lookup "merged_source_ids")) "merge_lineage_missing" <|
      verifyMergedSources env.actions contexts canonical canonicalId merged

/- None is a mismatch that is raised and that nothing catches. -/
def splitChildIds (context : ReadContext) : Option (List String) :=
  match context.record.metadata.lookup "split_child_memory_ids" with
  | some (.arr values) =>
    let childIds := values.map env.str
    if values.isEmpty || !decide childIds.Nodup then none else some childIds
  | _ => none

def areTexts : List Json → List String → Bool
  | [],[] => true
  | value::values,text::texts => isText text value && areTexts values texts
  | _,_ => false

def listsTexts (texts : List String) : Option Json → Bool
  | some (.arr values) => areTexts values texts
  | _ => false

def isTextOf (text : String) (value : Option Json) : Bool := value.any (isText text)

def splitLinkType : String := "DEPENDS_ON"

def splitLinkContext : String := "Derived from a provider-free memory split."

def verifySplitChildren (contexts : Contexts) (targetId groupId : String) (childIds : List String) :
    Nat → List String → Verification
  | _,[] => .done none
  | index,childId::rest => contextOf contexts childId fun child =>
    let metadata := child.record.metadata
    required (isTextOf targetId (metadata.lookup "split_from_memory_id")) "split_lineage_missing" <|
    required (isTextOf groupId (metadata.lookup "split_group_id")) "split_group_missing" <|
    required (isCount (some (Int.ofNat index)) (metadata.lookup "split_part_index") &&
      isCount (some (Int.ofNat childIds.length)) (metadata.lookup "split_part_count")) "split_part_metadata_missing" <|
    required (listsTexts childIds (metadata.lookup "split_child_memory_ids") &&
      listsTexts (childIds.filter (· != childId)) (metadata.lookup "split_sibling_memory_ids"))
      "split_child_metadata_missing" <|
    match hasExactEdge env.actions child childId targetId splitLinkType splitLinkContext with
    | .error error => .fail error
    | .ok edge => required edge "split_edge_missing"
        (verifySplitChildren contexts targetId groupId childIds (index + 1) rest)

def verifySplit (current : ActionReceipt) (actionId targetId : String) : Verification :=
  .call targetId fun
    | .error error => .fail error
    | .ok none => .done (some "record_missing")
    | .ok (some original) =>
      if original.record.id ≠ targetId then .done (some "record_missing")
      else match splitChildIds env original with
        | none => .fail (.other "_PostconditionMismatch")
        | some childIds =>
          let expectedIds := sorted (targetId :: childIds)
          freshContexts expectedIds fun contexts =>
            required (receiptIds current == expectedIds) "affected_ids_mismatch" <|
            checkedToken env.actions current contexts expectedIds <|
            contextOf contexts targetId fun context =>
              required (listsTexts childIds (context.record.metadata.lookup "split_child_memory_ids"))
                "split_children_missing" <|
              required (isCount (some (Int.ofNat childIds.length)) (context.record.metadata.lookup "split_child_count"))
                "split_child_count_missing" <|
              verifySplitChildren env contexts targetId actionId childIds 1 childIds

/- What `verify` asks of the graph for an action. -/
def verifyAction (current : ActionReceipt) (action : CurationAction) : Verification :=
  match action.operation with
  | .normalizeMemory targetId .. | .rewriteMemory targetId .. | .archiveMemory targetId _ =>
    verifyRecordAction env.actions current [targetId.text] none
  | .createLink sourceId targetId linkType context =>
    verifyCreateLink env current sourceId.text targetId.text linkType context (sortedSet [sourceId.text,targetId.text])
  | .removeLink sourceId targetId linkType _ =>
    verifyRemoveLink env current sourceId.text targetId.text linkType (sortedSet [sourceId.text,targetId.text])
  | .mergeMemories canonicalId sourceIds .. =>
    verifyMergeAction env current canonicalId.text (sourceIds.map (·.text)) (mergeIds canonicalId.text (sourceIds.map (·.text)))
  | .splitMemory targetId .. => verifySplit env current action.actionId.text targetId.text

/- A graph that stays as it is. -/
def answered (graph : String → Option ReadContext) : Verification → Except ActionError Verdict
  | .done verdict => .ok verdict
  | .fail error => .error error
  | .call memoryId next => answered graph (next (.ok (graph memoryId)))

variable (clock : Clock) (graph : String → Option ReadContext)

def verificationError (message : String) : ActionError := .other ("CurationVerificationError: " ++ message)

/- `current` is what the store has of the receipt. -/

def verify (current : Option ActionReceipt) (action : CurationAction) : Except ActionError ActionReceipt :=
  match current with
  | none => .error (verificationError "curation receipt was not found")
  | some current =>
    if current.status ≠ .appliedUnverified then .ok current
    else if current.actionId ≠ action.actionId.text then .error (verificationError "receipt identity does not match action")
    else if current.operation ≠ action.operation.name then
      .error (verificationError "receipt operation does not match action")
    else (answered graph (verifyAction env current action)).map (settledReceipt clock current)

def verifyStored (current : Option ActionReceipt) (descriptor : VerificationDescriptor) : Except ActionError ActionReceipt :=
  match current with
  | none => .error (verificationError "curation receipt was not found")
  | some current =>
    if current.status ≠ .appliedUnverified then .ok current
    else if current.verificationDescriptor.bind env.descriptorOf ≠ some descriptor then
      .ok (settledReceipt clock current (some "descriptor_mismatch"))
    else (answered graph (verifyDescriptor env.actions current descriptor)).map (settledReceipt clock current)

/- `CurationVerificationDescriptor` with the bounds of its fields and `validate_shape`. -/

def recordOperations : List String := ["normalize_memory","rewrite_memory","archive_memory"]

def linkOperations : List String := ["create_link","remove_link"]

def verificationStatuses : List String := ["active","stale","degraded","archived"]

def VerificationDescriptor.bounded (descriptor : VerificationDescriptor) : Bool :=
  descriptor.schemaVersion == 1 &&
    (recordOperations ++ linkOperations ++ ["merge_memories","split_memory"]).contains descriptor.operation &&
    descriptor.targetIds.length ≤ 64 && descriptor.targetStatus.all verificationStatuses.contains &&
    descriptor.linkType.all Actions.canonicalLinkType && descriptor.context.all (·.length ≤ 512) &&
    descriptor.sourceIds.length ≤ 64 && descriptor.childIds.length ≤ 64 &&
    descriptor.splitGroupId.all (·.length ≤ 128) && descriptor.childCount.all (1 ≤ ·)

def VerificationDescriptor.given (descriptor : VerificationDescriptor) : List String :=
  [("target_ids",!descriptor.targetIds.isEmpty),("target_status",descriptor.targetStatus.isSome),
    ("source_id",descriptor.sourceId.isSome),("target_id",descriptor.targetId.isSome),
    ("link_type",descriptor.linkType.isSome),("context",descriptor.context.isSome),("exists",descriptor.present.isSome),
    ("canonical_id",descriptor.canonicalId.isSome),("source_ids",!descriptor.sourceIds.isEmpty),
    ("child_ids",!descriptor.childIds.isEmpty),("split_group_id",descriptor.splitGroupId.isSome),
    ("child_count",descriptor.childCount.isSome)].filterMap fun field => if field.2 then some field.1 else none

def allowedFields (operation : String) : List String :=
  if recordOperations.contains operation then ["target_ids","target_status"]
  else if linkOperations.contains operation then ["target_ids","source_id","target_id","link_type","context","exists"]
  else if operation = "merge_memories" then ["target_ids","canonical_id","source_ids"]
  else ["target_ids","target_id","child_ids","split_group_id","child_count"]

def VerificationDescriptor.exact (descriptor : VerificationDescriptor) : Bool :=
  if recordOperations.contains descriptor.operation then
    descriptor.targetIds.length == 1 && descriptor.targetStatus.isSome &&
      (descriptor.operation != "archive_memory" || descriptor.targetStatus == some "archived")
  else if linkOperations.contains descriptor.operation then
    descriptor.targetIds.length == 2 && descriptor.linkType.isSome && descriptor.context.isSome && descriptor.present.isSome &&
      match descriptor.sourceId,descriptor.targetId with
      | some sourceId,some targetId => sortedSet descriptor.targetIds == sortedSet [sourceId,targetId]
      | _,_ => false
  else if descriptor.operation = "merge_memories" then
    descriptor.canonicalId.any fun canonicalId => !descriptor.sourceIds.isEmpty && !descriptor.sourceIds.contains canonicalId &&
      sortedSet descriptor.targetIds == sortedSet (canonicalId :: descriptor.sourceIds)
  else descriptor.targetId.any (descriptor.targetIds == [·]) && !descriptor.childIds.isEmpty &&
    descriptor.splitGroupId.isSome && descriptor.childCount == some (Int.ofNat descriptor.childIds.length)

def VerificationDescriptor.valid (descriptor : VerificationDescriptor) : Bool :=
  descriptor.bounded && descriptor.given.all (allowedFields descriptor.operation).contains &&
    decide descriptor.targetIds.Nodup && decide descriptor.sourceIds.Nodup && decide descriptor.childIds.Nodup && descriptor.exact

/- The descriptors as the executor of an action makes them. -/

def describeRecord (operation targetId status : String) : VerificationDescriptor :=
  ⟨1,operation,[targetId],some status,none,none,none,none,none,none,[],[],none,none⟩

def describeLink (operation sourceId targetId linkType : String) (context : Option String) (present : Bool) :
    VerificationDescriptor :=
  ⟨1,operation,[sourceId,targetId],none,some sourceId,some targetId,some (strip linkType),some (strip (context.getD "")),
    some present,none,[],[],none,none⟩

def describeMerge (canonicalId : String) (sourceIds : List String) : VerificationDescriptor :=
  ⟨1,"merge_memories",mergeIds canonicalId sourceIds,none,none,none,none,none,none,some canonicalId,sourceIds,[],none,none⟩

def describeSplit (targetId actionId : String) (childIds : List String) : VerificationDescriptor :=
  ⟨1,"split_memory",[targetId],none,none,some targetId,none,none,none,none,[],childIds,some actionId,
    some (Int.ofNat childIds.length)⟩

/- `status` is what is required of a record that keeps its status, and `childIds` are those of the
memories that a split has made. -/
def describe (action : CurationAction) (status : String) (childIds : List Uuid) : VerificationDescriptor :=
  match action.operation with
  | .normalizeMemory targetId .. => describeRecord "normalize_memory" targetId.text status
  | .rewriteMemory targetId .. => describeRecord "rewrite_memory" targetId.text status
  | .archiveMemory targetId _ => describeRecord "archive_memory" targetId.text "archived"
  | .createLink sourceId targetId linkType context =>
    describeLink "create_link" sourceId.text targetId.text linkType context true
  | .removeLink sourceId targetId linkType context =>
    describeLink "remove_link" sourceId.text targetId.text linkType context false
  | .mergeMemories canonicalId sourceIds .. => describeMerge canonicalId.text (sourceIds.map (·.text))
  | .splitMemory targetId .. => describeSplit targetId.text action.actionId.text (childIds.map (·.text))

/- Reading some memories of the graph. -/

def contextsOf : List String → Option Contexts
  | [] => some []
  | memoryId::rest => ((graph memoryId).filter (·.record.id == memoryId)).bind fun context =>
    (contextsOf rest).map ((memoryId,context) :: ·)

variable {env graph}

theorem freshAnswered {next : Contexts → Verification} {ids : List String} : answered graph (freshContexts ids next) =
    match contextsOf graph ids with
    | none => .ok (some "record_missing")
    | some contexts => answered graph (next contexts) := by
  induction ids generalizing next with
  | nil => rfl
  | cons memoryId rest ih =>
    rw [freshContexts,answered,contextsOf]
    cases here : graph memoryId with
    | none => rfl
    | some context =>
      dsimp only
      by_cases same : context.record.id = memoryId
      · rw [if_neg (not_not.mpr same),ih,Option.filter_some,if_pos (beq_iff_eq.mpr same),Option.bind_some]
        cases contextsOf graph rest <;> rfl
      · rw [if_pos same,Option.filter_some,if_neg (mt beq_iff_eq.mp same)]
        rfl

theorem requiredAnswered {condition : Bool} {errorCode : String} {next : Verification} :
    answered graph (required condition errorCode next) = if condition then answered graph next else .ok (some errorCode) := by
  unfold required
  split <;> rfl

/- Reading first and the ids of the receipt first come to the same where one of the two holds and what follows agrees. -/
theorem orderAgrees {receipt : ActionReceipt} {ids : List String} {left right : Contexts → Verification} :
    answered graph (freshContexts ids fun contexts => required (receiptIds receipt == ids) "affected_ids_mismatch" (left contexts)) =
      answered graph (required (receiptIds receipt == ids) "affected_ids_mismatch" (freshContexts ids right)) ↔
    (receiptIds receipt = ids ∨ (contextsOf graph ids).isSome) ∧ ∀ contexts, contextsOf graph ids = some contexts →
      receiptIds receipt = ids → answered graph (left contexts) = answered graph (right contexts) := by
  rw [freshAnswered,requiredAnswered,freshAnswered]
  by_cases affected : receiptIds receipt = ids
  · rw [if_pos (beq_iff_eq.mpr affected)]
    cases contextsOf graph ids with
    | none => simp [affected]
    | some contexts => simp [affected,requiredAnswered]
  · rw [if_neg (mt beq_iff_eq.mp affected)]
    cases contextsOf graph ids with
    | none => simp [affected]
    | some contexts => simp [affected,requiredAnswered]

/- The records of the memories are those that the receipt was written for. -/
def HasToken (env : VerifierEnv) (receipt : ActionReceipt) (contexts : Contexts) (ids : List String) : Prop :=
  stateToken env.actions (contexts.map fun item => (item.1,item.2.record)) ids = .ok receipt.afterToken

theorem snapshotErrors {env : Curation.Env} {records : Records} {error} (failed : snapshots env records = .error error) :
    ∃ key, error = duplicateKey key := by
  induction records with
  | nil => cases failed
  | cons item rest ih =>
    rw [snapshots] at failed
    cases here : recordSnapshot env.toEnv item.2 with
    | error key =>
      rw [here] at failed
      exact ⟨key,(Except.error.inj failed).symm⟩
    | ok found =>
      rw [here] at failed
      cases later : snapshots env rest with
      | error other =>
        rw [later] at failed
        cases Except.error.inj failed
        exact ih later
      | ok others =>
        rw [later] at failed
        cases failed

theorem tokenErrors {env : Curation.Env} {records : Records} {ids error} (failed : stateToken env records ids = .error error) :
    ∃ key, error = duplicateKey key := by
  unfold stateToken at failed
  split at failed
  · cases failed
  · cases here : snapshots env records with
    | error other =>
      rw [here] at failed
      cases Except.error.inj failed
      exact snapshotErrors here
    | ok found =>
      rw [here] at failed
      unfold hashed at failed
      cases hash : Canonical.stableHash env.toEnv (.obj [("targets",.arr (ids.map .str)),("records",.obj found)]) with
      | error key =>
        simp only [bind,Except.bind,hash,Except.mapError] at failed
        exact ⟨key,(Except.error.inj failed).symm⟩
      | ok token =>
        simp only [bind,Except.bind,hash,Except.mapError] at failed
        cases failed

/- With the token what follows decides, and without it nothing that follows. -/
theorem tokenAnswered (receipt : ActionReceipt) (contexts : Contexts) (ids : List String) :
    HasToken env receipt contexts ids ∧
      (∀ next, answered graph (checkedToken env.actions receipt contexts ids next) = answered graph next) ∨
    ¬ HasToken env receipt contexts ids ∧ ∃ outcome,
      (outcome = .ok (some "after_token_mismatch") ∨ ∃ key, outcome = .error (duplicateKey key)) ∧
      ∀ next, answered graph (checkedToken env.actions receipt contexts ids next) = outcome := by
  unfold HasToken checkedToken
  cases found : stateToken env.actions (contexts.map fun item => (item.1,item.2.record)) ids with
  | error error =>
    obtain ⟨key,rfl⟩ := tokenErrors found
    exact .inr ⟨fun same => (by cases same),_,.inr ⟨key,rfl⟩,fun _ => rfl⟩
  | ok actual =>
    dsimp only
    by_cases same : actual = receipt.afterToken
    · rw [same]
      exact .inl ⟨rfl,fun next => by rw [if_neg (not_not.mpr rfl)]⟩
    · exact .inr ⟨fun equal => same (Except.ok.inj equal),_,.inl rfl,fun next => by rw [if_pos same]; rfl⟩

theorem tokenNot {receipt : ActionReceipt} {contexts : Contexts} {ids : List String} {next : Verification}
    {outcome : Except ActionError Verdict} (mismatch : outcome ≠ .ok (some "after_token_mismatch"))
    (error : ∀ key, outcome ≠ .error (duplicateKey key)) (done : answered graph next ≠ outcome) :
    answered graph (checkedToken env.actions receipt contexts ids next) ≠ outcome := by
  rcases @tokenAnswered env graph receipt contexts ids with ⟨_,passes⟩ | ⟨_,other,or,fails⟩
  · rw [passes]
    exact done
  · rw [fails]
    rintro rfl
    rcases or with same | ⟨key,same⟩
    · exact mismatch same
    · exact error key same

theorem codesApart {left right : String} (apart : left ≠ right) :
    (.ok (some left) : Except ActionError Verdict) ≠ .ok (some right) :=
  fun same => apart (Option.some.inj (Except.ok.inj same))

theorem codeNoError {code : String} {error : ActionError} : (.ok (some code) : Except ActionError Verdict) ≠ .error error :=
  fun same => (by cases same)

/- One memory whose record is looked at. -/
theorem recordOrder {receipt : ActionReceipt} {ids : List String} {status : String} :
    answered graph (verifyRecordAction env.actions receipt ids none) =
      answered graph (required (receiptIds receipt == ids) "affected_ids_mismatch"
        (verifyRecordAction env.actions receipt ids (some status))) ↔
    (receiptIds receipt = ids ∨ (contextsOf graph ids).isSome) ∧ ∀ contexts, contextsOf graph ids = some contexts →
      receiptIds receipt = ids → contexts.all (·.2.record.status == status) = true := by
  unfold verifyRecordAction
  rw [orderAgrees]
  refine and_congr_right fun _ => forall_congr' fun contexts => imp_congr_right fun _ => imp_congr_right fun affected => ?_
  rw [requiredAnswered,requiredAnswered,requiredAnswered,if_pos (beq_iff_eq.mpr affected),Option.all_none,if_pos rfl,Option.all_some]
  cases contexts.all (·.2.record.status == status) with
  | true => exact iff_of_true rfl rfl
  | false =>
    refine iff_of_false (fun same => ?_) Bool.false_ne_true
    rw [if_neg Bool.false_ne_true] at same
    exact tokenNot (codesApart (by decide)) (fun _ => codeNoError) (fun none => (by cases none)) same

theorem normalizeStripped {env : Curation.Env} (linkType : String) :
    normalizeLinkType env (strip linkType) = normalizeLinkType env linkType := by
  unfold normalizeLinkType
  rw [stripIdem]

theorem plainOrder {receipt : ActionReceipt} {ids : List String} {left right : Contexts → Verification}
    (same : ∀ contexts, answered graph (left contexts) = answered graph (right contexts)) :
    answered graph (freshContexts ids fun contexts => required (receiptIds receipt == ids) "affected_ids_mismatch" (left contexts)) =
      answered graph (required (receiptIds receipt == ids) "affected_ids_mismatch" (freshContexts ids right)) ↔
    receiptIds receipt = ids ∨ (contextsOf graph ids).isSome := by
  rw [orderAgrees]
  exact and_iff_left fun contexts _ _ => same contexts

theorem createOrder {receipt : ActionReceipt} {descriptor : VerificationDescriptor} {sourceId targetId linkType : String}
    {context : Option String} {ids : List String} (source : descriptor.sourceId = some sourceId)
    (target : descriptor.targetId = some targetId) (type : descriptor.linkType = some (strip linkType))
    (text : descriptor.context = some (strip (context.getD ""))) (present : descriptor.present = some true) :
    answered graph (verifyCreateLink env receipt sourceId targetId linkType context ids) =
      answered graph (required (receiptIds receipt == ids) "affected_ids_mismatch"
        (verifyLinkDescriptor env.actions receipt descriptor ids)) ↔
    receiptIds receipt = ids ∨ (contextsOf graph ids).isSome := by
  unfold verifyCreateLink verifyLinkDescriptor
  rw [source,target,type,text,present]
  refine plainOrder fun contexts => congrArg (answered graph) ?_
  refine congrArg (checkedToken env.actions receipt contexts ids) (congrArg (contextOf contexts sourceId) (funext fun found => ?_))
  unfold hasExactEdge
  dsimp only
  rw [normalizeStripped,Option.getD_some,stripIdem]
  rcases normalizeLinkType env.actions linkType with error | normalized
  · rfl
  · dsimp only [Except.map]
    cases found.outgoing.contains ⟨sourceId,targetId,normalized,strip (context.getD "")⟩ <;> rfl

theorem removeOrder {receipt : ActionReceipt} {descriptor : VerificationDescriptor} {sourceId targetId linkType : String}
    {ids : List String} (source : descriptor.sourceId = some sourceId) (target : descriptor.targetId = some targetId)
    (type : descriptor.linkType = some (strip linkType)) (absent : descriptor.present = some false) :
    answered graph (verifyRemoveLink env receipt sourceId targetId linkType ids) =
      answered graph (required (receiptIds receipt == ids) "affected_ids_mismatch"
        (verifyLinkDescriptor env.actions receipt descriptor ids)) ↔
    receiptIds receipt = ids ∨ (contextsOf graph ids).isSome := by
  unfold verifyRemoveLink verifyLinkDescriptor
  rw [source,target,type,absent]
  refine plainOrder fun contexts => congrArg (answered graph) ?_
  refine congrArg (checkedToken env.actions receipt contexts ids) (congrArg (contextOf contexts sourceId) (funext fun found => ?_))
  unfold hasAnyEdge
  dsimp only
  rw [normalizeStripped]
  rcases normalizeLinkType env.actions linkType with error | normalized
  · rfl
  · dsimp only [Except.map]
    cases found.outgoing.any fun edge => edge.sourceId == sourceId && edge.targetId == targetId && edge.linkType == normalized <;>
      rfl

theorem mergeOrder {receipt : ActionReceipt} {descriptor : VerificationDescriptor} {canonicalId : String}
    {sourceIds ids : List String} (canonical : descriptor.canonicalId = some canonicalId)
    (sources : descriptor.sourceIds = sourceIds) (full : sourceIds ≠ []) :
    answered graph (verifyMergeAction env receipt canonicalId sourceIds ids) =
      answered graph (required (receiptIds receipt == ids) "affected_ids_mismatch"
        (verifyMerge env.actions receipt descriptor ids)) ↔
    receiptIds receipt = ids ∨ (contextsOf graph ids).isSome := by
  unfold verifyMergeAction verifyMerge
  rw [canonical,sources]
  dsimp only
  rw [if_neg (mt List.isEmpty_iff.mp full),orderAgrees]
  refine and_iff_left fun contexts _ affected => ?_
  rw [requiredAnswered,if_pos (beq_iff_eq.mpr affected)]

theorem contextsLookup {ids : List String} {contexts : Contexts} (read : contextsOf graph ids = some contexts) {memoryId : String}
    (member : memoryId ∈ ids) : contexts.lookup memoryId = (graph memoryId).filter (·.record.id == memoryId) := by
  induction ids generalizing contexts with
  | nil => cases member
  | cons first rest ih =>
    obtain ⟨context,here,later⟩ := Option.bind_eq_some_iff.mp read
    obtain ⟨others,tail,rfl⟩ := Option.map_eq_some_iff.mp later
    rw [List.lookup_cons]
    cases same : memoryId == first with
    | true => rw [eq_of_beq same,here]
    | false => exact ih tail ((List.mem_cons.mp member).resolve_left (ne_of_beq_false same))

def splitChildCodes : List String := ["split_lineage_missing","split_group_missing","split_part_metadata_missing",
  "split_child_metadata_missing","split_edge_missing"]

theorem splitChildrenCode {contexts : Contexts} {targetId groupId : String} {childIds rest : List String} {index : Nat}
    {errorCode : String} (early : errorCode ∉ splitChildCodes) :
    answered graph (verifySplitChildren env contexts targetId groupId childIds index rest) ≠ .ok (some errorCode) := by
  have next {condition : Bool} {code : String} {later : Verification} (own : code ∈ splitChildCodes)
      (rest : answered graph later ≠ .ok (some errorCode)) :
      answered graph (required condition code later) ≠ .ok (some errorCode) := by
    rw [requiredAnswered]
    split
    · exact rest
    · exact codesApart fun same => early (same ▸ own)
  induction rest generalizing index with
  | nil => exact fun same => (by cases same)
  | cons childId rest ih =>
    unfold verifySplitChildren contextOf
    cases contexts.lookup childId with
    | none => exact fun same => (by cases same)
    | some child =>
      refine next (by decide) (next (by decide) (next (by decide) (next (by decide) ?_)))
      cases hasExactEdge env.actions child childId targetId splitLinkType splitLinkContext with
      | error error => exact fun same => (by cases same)
      | ok edge => exact next (by decide) ih

/- What each of the two does with a split, over the graph as it is. -/

theorem splitAnswered {receipt : ActionReceipt} {actionId targetId : String} : answered graph (verifySplit env receipt actionId targetId) =
    match (graph targetId).filter (·.record.id == targetId) with
    | none => .ok (some "record_missing")
    | some original => match splitChildIds env original with
      | none => .error (.other "_PostconditionMismatch")
      | some childIds => match contextsOf graph (sorted (targetId :: childIds)) with
        | none => .ok (some "record_missing")
        | some contexts => if receiptIds receipt = sorted (targetId :: childIds) then
            answered graph (checkedToken env.actions receipt contexts (sorted (targetId :: childIds)) <|
              required (listsTexts childIds (original.record.metadata.lookup "split_child_memory_ids")) "split_children_missing" <|
              required (isCount (some (Int.ofNat childIds.length)) (original.record.metadata.lookup "split_child_count"))
                "split_child_count_missing" <|
              verifySplitChildren env contexts targetId actionId childIds 1 childIds)
          else .ok (some "affected_ids_mismatch") := by
  unfold verifySplit
  rw [answered]
  cases here : graph targetId with
  | none => rfl
  | some original =>
    dsimp only
    by_cases same : original.record.id = targetId
    · rw [if_neg (not_not.mpr same),Option.filter_some,if_pos (beq_iff_eq.mpr same)]
      dsimp only
      cases splitChildIds env original with
      | none => rfl
      | some childIds =>
        dsimp only
        rw [freshAnswered]
        cases read : contextsOf graph (sorted (targetId :: childIds)) with
        | none => rfl
        | some contexts =>
          dsimp only
          have member : targetId ∈ sorted (targetId :: childIds) := (List.mem_insertionSort _).mpr List.mem_cons_self
          have found := contextsLookup read member
          rw [here,Option.filter_some,if_pos (beq_iff_eq.mpr same)] at found
          rw [requiredAnswered]
          unfold contextOf
          rw [found]
          simp only [beq_iff_eq]
    · rw [if_pos same,Option.filter_some,if_neg (mt beq_iff_eq.mp same)]
      rfl

theorem storedSplitAnswered {receipt : ActionReceipt} {descriptor : VerificationDescriptor} {targetId : String} {ids : List String}
    (target : descriptor.targetId = some targetId) (children : descriptor.childIds ≠ []) :
    answered graph (verifySplitDescriptor env.actions receipt descriptor ids) =
    match (graph targetId).filter (·.record.id == targetId) with
    | none => .ok (some "record_missing")
    | some _ => match contextsOf graph ids with
      | none => .ok (some "record_missing")
      | some contexts => answered graph (checkedToken env.actions receipt contexts ids (.done (some "split_children_missing"))) := by
  unfold verifySplitDescriptor
  rw [target,Option.getD_some]
  dsimp only
  rw [answered]
  cases here : graph targetId with
  | none => rfl
  | some original =>
    dsimp only
    by_cases same : original.record.id = targetId
    · rw [if_neg (not_not.mpr same),freshAnswered,Option.filter_some,if_pos (beq_iff_eq.mpr same)]
      dsimp only
      have none : descriptor.childIds.isEmpty = false := List.isEmpty_eq_false_iff.mpr children
      rw [none,Bool.and_false]
      rfl
    · rw [if_pos same,Option.filter_some,if_neg (mt beq_iff_eq.mp same)]
      rfl

variable (env graph) in
/- Where the two agree on a split. The descriptor never verifies, so that the action must not
either, and by the same code. -/
def SplitAgrees (receipt : ActionReceipt) (targetId : String) (childIds : List String) : Prop :=
  match (graph targetId).filter (·.record.id == targetId) with
  | none => receiptIds receipt = sortedSet (targetId :: childIds)
  | some original => match splitChildIds env original with
    | none => False
    | some listed => match contextsOf graph (sorted (targetId :: listed)) with
      | none => receiptIds receipt = sortedSet (targetId :: childIds) ∧ contextsOf graph (sortedSet (targetId :: childIds)) = none
      | some contexts =>
        (receiptIds receipt = sorted (targetId :: listed) ↔ receiptIds receipt = sortedSet (targetId :: childIds)) ∧
          (receiptIds receipt = sortedSet (targetId :: childIds) →
            ¬ HasToken env receipt contexts (sorted (targetId :: listed)) ∨
            listsTexts listed (original.record.metadata.lookup "split_child_memory_ids") = false)

theorem splitOrder {receipt : ActionReceipt} {descriptor : VerificationDescriptor} {actionId targetId : String}
    {childIds : List String} (target : descriptor.targetId = some targetId) (children : descriptor.childIds = childIds)
    (full : childIds ≠ []) :
    answered graph (verifySplit env receipt actionId targetId) =
      answered graph (required (receiptIds receipt == sortedSet (targetId :: childIds)) "affected_ids_mismatch"
        (verifySplitDescriptor env.actions receipt descriptor (sortedSet (targetId :: childIds)))) ↔
    SplitAgrees env graph receipt targetId childIds := by
  rw [splitAnswered,requiredAnswered,storedSplitAnswered target (children ▸ full)]
  unfold SplitAgrees
  generalize sortedSet (targetId :: childIds) = ids
  simp only [beq_iff_eq]
  cases (graph targetId).filter (·.record.id == targetId) with
  | none =>
    dsimp only
    by_cases affected : receiptIds receipt = ids
    · rw [if_pos affected]
      exact iff_of_true rfl affected
    · rw [if_neg affected]
      exact iff_of_false (codesApart (by decide)) affected
  | some original =>
    dsimp only
    cases splitChildIds env original with
    | none =>
      refine iff_of_false (fun same => ?_) id
      have error : ∀ key, (.error (.other "_PostconditionMismatch") : Except ActionError Verdict) ≠ .error (duplicateKey key) :=
        fun key same => (by cases Except.error.inj same)
      dsimp only at same
      split at same
      · cases read : contextsOf graph ids with
        | none =>
          rw [read] at same
          cases same
        | some contexts =>
          rw [read] at same
          exact absurd same.symm (tokenNot codeNoError.symm error codeNoError)
      · cases same
    | some listed =>
      dsimp only
      cases read : contextsOf graph (sorted (targetId :: listed)) with
      | none =>
        dsimp only
        by_cases affected : receiptIds receipt = ids
        · rw [if_pos affected]
          cases contextsOf graph ids with
          | none => exact iff_of_true rfl ⟨affected,rfl⟩
          | some contexts =>
            refine iff_of_false (fun same => ?_) fun both => (by cases both.2)
            exact absurd same.symm (tokenNot (codesApart (by decide)) (fun _ => codeNoError) (codesApart (by decide)))
        · rw [if_neg affected]
          exact iff_of_false (codesApart (by decide)) fun both => affected both.1
      | some contexts =>
        dsimp only
        have late : "affected_ids_mismatch" ∉ splitChildCodes ∧ "split_children_missing" ∉ splitChildCodes := by decide
        by_cases affected : receiptIds receipt = ids
        · rw [if_pos affected]
          by_cases own : receiptIds receipt = sorted (targetId :: listed)
          · have same : sorted (targetId :: listed) = ids := own.symm.trans affected
            rw [if_pos own,← same,read]
            dsimp only
            rcases tokenAnswered receipt contexts (sorted (targetId :: listed)) with ⟨has,passes⟩ | ⟨lacks,outcome,_,fails⟩
            · rw [passes,passes,requiredAnswered]
              cases listsTexts listed (original.record.metadata.lookup "split_child_memory_ids") with
              | false => exact iff_of_true rfl ⟨Iff.rfl,fun _ => .inr rfl⟩
              | true =>
                refine iff_of_false ?_ fun both => (both.2 own).elim (fun lacks => lacks has) fun none => (by cases none)
                rw [if_pos rfl,requiredAnswered]
                split
                · exact splitChildrenCode late.2
                · exact codesApart (by decide)
            · rw [fails,fails]
              exact iff_of_true rfl ⟨Iff.rfl,fun _ => .inl lacks⟩
          · rw [if_neg own]
            refine iff_of_false (fun same => ?_) fun both => own (both.1.mpr affected)
            cases there : contextsOf graph ids with
            | none =>
              rw [there] at same
              exact codesApart (by decide) same
            | some others =>
              rw [there] at same
              exact absurd same.symm (tokenNot (codesApart (by decide)) (fun _ => codeNoError) (codesApart (by decide)))
        · rw [if_neg affected]
          by_cases own : receiptIds receipt = sorted (targetId :: listed)
          · rw [if_pos own]
            refine iff_of_false ?_ fun both => affected (both.1.mp own)
            refine tokenNot (codesApart (by decide)) (fun _ => codeNoError) ?_
            rw [requiredAnswered,requiredAnswered]
            split
            · split
              · exact splitChildrenCode late.1
              · exact codesApart (by decide)
            · exact codesApart (by decide)
          · rw [if_neg own]
            exact iff_of_true rfl ⟨iff_of_false own affected,fun same => absurd same affected⟩

variable (env graph) in
/- Both orders of the first two checks come to the same, and a record has the status that was required. -/
def RecordAgrees (receipt : ActionReceipt) (targetId status : String) : Prop :=
  (receiptIds receipt = [targetId] ∨ (contextsOf graph [targetId]).isSome) ∧
    ∀ contexts, contextsOf graph [targetId] = some contexts → receiptIds receipt = [targetId] →
      contexts.all (·.2.record.status == status) = true

variable (env graph) in
def Agrees (receipt : ActionReceipt) (action : CurationAction) (status : String) (childIds : List Uuid) : Prop :=
  match action.operation with
  | .normalizeMemory targetId .. | .rewriteMemory targetId .. => RecordAgrees graph receipt targetId.text status
  | .archiveMemory targetId _ => RecordAgrees graph receipt targetId.text "archived"
  | .createLink sourceId targetId .. | .removeLink sourceId targetId .. =>
    receiptIds receipt = sortedSet [sourceId.text,targetId.text] ∨ (contextsOf graph (sortedSet [sourceId.text,targetId.text])).isSome
  | .mergeMemories canonicalId sourceIds .. =>
    receiptIds receipt = mergeIds canonicalId.text (sourceIds.map (·.text)) ∨
      (contextsOf graph (mergeIds canonicalId.text (sourceIds.map (·.text)))).isSome
  | .splitMemory targetId .. => SplitAgrees env graph receipt targetId.text (childIds.map (·.text))

section
variable {receipt : ActionReceipt} {descriptor : VerificationDescriptor} (version : descriptor.schemaVersion = 1)
  (operation : descriptor.operation = receipt.operation)
include version operation

theorem recordDescriptor (kind : descriptor.operation ∈ recordOperations) : verifyDescriptor env.actions receipt descriptor =
    required (receiptIds receipt == sortedSet descriptor.targetIds) "affected_ids_mismatch"
      (verifyRecordAction env.actions receipt (sortedSet descriptor.targetIds) descriptor.targetStatus) := by
  unfold verifyDescriptor
  rw [if_neg (by simp [version,operation])]
  simp only [recordOperations,List.mem_cons,List.not_mem_nil,or_false] at kind
  rcases kind with same | same | same <;> simp [same]

theorem linkDescriptor (kind : descriptor.operation ∈ linkOperations) : verifyDescriptor env.actions receipt descriptor =
    required (receiptIds receipt == sortedSet descriptor.targetIds) "affected_ids_mismatch"
      (verifyLinkDescriptor env.actions receipt descriptor (sortedSet descriptor.targetIds)) := by
  unfold verifyDescriptor
  rw [if_neg (by simp [version,operation])]
  simp only [linkOperations,List.mem_cons,List.not_mem_nil,or_false] at kind
  rcases kind with same | same <;> simp [same]

theorem mergeDescriptor (kind : descriptor.operation = "merge_memories") : verifyDescriptor env.actions receipt descriptor =
    required (receiptIds receipt == sortedSet descriptor.targetIds) "affected_ids_mismatch"
      (verifyMerge env.actions receipt descriptor (sortedSet descriptor.targetIds)) := by
  unfold verifyDescriptor
  rw [if_neg (by simp [version,operation])]
  simp [kind]

theorem splitDescriptor (kind : descriptor.operation = "split_memory") {targetId : String}
    (target : descriptor.targetId = some targetId) : verifyDescriptor env.actions receipt descriptor =
    required (receiptIds receipt == sortedSet (targetId :: descriptor.childIds)) "affected_ids_mismatch"
      (verifySplitDescriptor env.actions receipt descriptor (sortedSet (targetId :: descriptor.childIds))) := by
  unfold verifyDescriptor
  rw [if_neg (by simp [version,operation])]
  simp [kind,target]

end

theorem mergeSources {canonicalId : String} {sourceIds : List String} (exact : (describeMerge canonicalId sourceIds).exact = true) :
    sourceIds ≠ [] := by
  rintro rfl
  simp [VerificationDescriptor.exact,describeMerge,recordOperations,linkOperations] at exact

theorem splitChildren {targetId actionId : String} {childIds : List String}
    (exact : (describeSplit targetId actionId childIds).exact = true) : childIds ≠ [] := by
  rintro rfl
  simp [VerificationDescriptor.exact,describeSplit,recordOperations,linkOperations] at exact

theorem bodyAgrees {receipt : ActionReceipt} {action : CurationAction} {status : String} {childIds : List Uuid}
    (valid : (describe action status childIds).valid = true) (operation : receipt.operation = action.operation.name) :
    answered graph (verifyAction env receipt action) =
      answered graph (verifyDescriptor env.actions receipt (describe action status childIds)) ↔
    Agrees env graph receipt action status childIds := by
  have one (text : String) : sortedSet [text] = [text] := by simp [sortedSet,sorted]
  have record {name targetId required : String} (kind : name ∈ recordOperations) (same : receipt.operation = name) :
      answered graph (verifyRecordAction env.actions receipt [targetId] none) =
        answered graph (verifyDescriptor env.actions receipt (describeRecord name targetId required)) ↔
      RecordAgrees graph receipt targetId required := by
    rw [@recordDescriptor env receipt (describeRecord name targetId required) rfl same.symm kind]
    unfold describeRecord
    rw [one]
    exact recordOrder
  have exact := (Bool.and_eq_true_iff.mp valid).2
  unfold verifyAction Agrees
  unfold describe at exact ⊢
  cases asked : action.operation with
  | normalizeMemory targetId title summary tags =>
    rw [asked] at operation
    exact record (by decide) operation
  | rewriteMemory targetId title content summary claimManifest =>
    rw [asked] at operation
    exact record (by decide) operation
  | archiveMemory targetId claimManifest =>
    rw [asked] at operation
    exact record (by decide) operation
  | createLink sourceId targetId linkType context =>
    rw [asked] at operation
    dsimp only
    rw [linkDescriptor rfl operation.symm List.mem_cons_self]
    exact createOrder rfl rfl rfl rfl rfl
  | removeLink sourceId targetId linkType context =>
    rw [asked] at operation
    dsimp only
    rw [linkDescriptor rfl operation.symm (List.mem_cons_of_mem _ List.mem_cons_self)]
    exact removeOrder rfl rfl rfl rfl
  | mergeMemories canonicalId sourceIds title content summary claimManifest =>
    rw [asked] at operation exact
    dsimp only at exact ⊢
    rw [mergeDescriptor rfl operation.symm rfl]
    have idem : sortedSet (describeMerge canonicalId.text (sourceIds.map (·.text))).targetIds =
      mergeIds canonicalId.text (sourceIds.map (·.text)) := sortedSetIdem _
    rw [idem]
    exact mergeOrder rfl rfl (mergeSources exact)
  | splitMemory targetId children claimManifest =>
    rw [asked] at operation exact
    dsimp only at exact ⊢
    rw [splitDescriptor rfl operation.symm rfl rfl]
    exact splitOrder rfl rfl (splitChildren exact)

/- The receipt of an action with its descriptor. -/
structure ReceiptOf (env : VerifierEnv) (action : CurationAction) (descriptor : VerificationDescriptor)
    (receipt : ActionReceipt) : Prop where
  actionId : receipt.actionId = action.actionId.text
  operation : receipt.operation = action.operation.name
  stored : receipt.verificationDescriptor.bind env.descriptorOf = some descriptor

theorem settledSame {receipt : ActionReceipt} {left right : Except ActionError Verdict} :
    left.map (settledReceipt clock receipt) = right.map (settledReceipt clock receipt) ↔ left = right := by
  refine ⟨fun same => ?_,fun same => by rw [same]⟩
  rcases left with error | verdict <;> rcases right with other | verdict'
  · exact congrArg Except.error (Except.error.inj same)
  · cases same
  · cases same
  · exact congrArg Except.ok (congrArg ActionReceipt.errorCode (Except.ok.inj same))

/- The stored descriptor brings the receipt to where the action itself brings it. -/
theorem descriptorAgrees {clock : Clock} {current : Option ActionReceipt} {action : CurationAction} {status : String}
    {childIds : List Uuid} (valid : (describe action status childIds).valid = true)
    (own : ∀ receipt ∈ current, ReceiptOf env action (describe action status childIds) receipt) :
    verifyStored env clock graph current (describe action status childIds) = verify env clock graph current action ↔
      ∀ receipt ∈ current, receipt.status = .appliedUnverified → Agrees env graph receipt action status childIds := by
  cases current with
  | none => exact iff_of_true rfl fun _ member => absurd member (Option.not_mem_none _)
  | some receipt =>
    obtain ⟨actionId,operation,stored⟩ := own receipt rfl
    have single {p : ActionReceipt → Prop} : (∀ other ∈ some receipt, p other) ↔ p receipt :=
      ⟨fun every => every receipt rfl,fun here other member => Option.some.inj member ▸ here⟩
    rw [single]
    unfold verify verifyStored
    dsimp only
    by_cases applied : receipt.status = .appliedUnverified
    · rw [if_neg (not_not.mpr applied),if_neg (not_not.mpr applied),if_neg (not_not.mpr actionId),
        if_neg (not_not.mpr operation),if_neg (not_not.mpr stored),settledSame,eq_comm,bodyAgrees valid operation]
      exact ⟨fun agrees _ => agrees,fun agrees => agrees applied⟩
    · rw [if_pos applied,if_pos applied]
      exact iff_of_true rfl fun same => absurd same applied

/- The first memory is split and the second is what comes out of it. -/

def firstUuid : Uuid := ⟨firstId,rfl⟩

def secondUuid : Uuid := ⟨secondId,rfl⟩

def noClaims : Actions.ClaimManifest := ⟨[],[],[],[],[]⟩

def planned (operation : Actions.Operation) (valid : operation.valid = true) : CurationAction where
  actionId := firstUuid
  rationale := ""
  evidence := []
  preconditions := ⟨[],[],[],[],List.nodup_nil,List.nodup_nil⟩
  operation := operation
  valid := valid

def archivingAction : CurationAction := planned (.archiveMemory firstUuid noClaims) rfl

def splitting : CurationAction := planned (.splitMemory firstUuid [⟨"part",[firstUuid]⟩] noClaims) rfl

def storedText (action : CurationAction) : String :=
  match action.operation with
  | .splitMemory .. => "split"
  | _ => "archive"

def textVerifier : VerifierEnv where
  actions := ⟨⟨ascii,fun _ => "digest"⟩,fun title _ _ => title⟩
  str
    | .str text => text
    | _ => "None"
  descriptorOf text := if text = "split" then some (describe splitting "active" [secondUuid])
    else some (describe archivingAction "active" [])
  strText _ := rfl

def recordOf (memoryId status : String) (metadata : Json.Object) : MemoryRecord :=
  { plainRow memoryId 1 with
    status := status
    metadata := metadata
    workspaceIds := []
    tags := [] }

def archivedGraph (memoryId : String) : Option ReadContext :=
  if memoryId = firstId then some ⟨recordOf firstId "archived" [],[]⟩ else none

def parent : MemoryRecord := recordOf firstId "active"
  [("split_child_memory_ids",.arr [.str secondId]),("split_child_count",.int 1)]

def child : MemoryRecord := recordOf secondId "active"
  [("split_from_memory_id",.str firstId),("split_group_id",.str firstId),("split_part_index",.int 1),("split_part_count",.int 1),
    ("split_child_memory_ids",.arr [.str secondId]),("split_sibling_memory_ids",.arr [])]

def splitGraph (memoryId : String) : Option ReadContext :=
  if memoryId = firstId then some ⟨parent,[]⟩
  else if memoryId = secondId then some ⟨child,[⟨secondId,firstId,"DEPENDS_ON",splitLinkContext⟩]⟩
  else none

def receiptFor (action : CurationAction) (affectedIds : List String) (afterToken : Option String) : ActionReceipt :=
  ⟨"run",firstId,action.operation.name,affectedIds,.appliedUnverified,none,afterToken,none,none,some (storedText action),none,none,none⟩

def splitReceipt : ActionReceipt := receiptFor splitting [firstId,secondId] (some "v1:digest")

def midnight : Clock := ⟨0,"1970-01-01T00:00:00+00:00"⟩

theorem descriptorAgreesSample : verifyStored textVerifier midnight archivedGraph (some (receiptFor archivingAction [firstId] none))
      (describe archivingAction "active" []) =
    verify textVerifier midnight archivedGraph (some (receiptFor archivingAction [firstId] none)) archivingAction := by
  refine (descriptorAgrees (by decide +kernel) fun receipt member => ?_).mpr fun receipt member _ => ?_
  · rw [← Option.some.inj member]
    exact ⟨rfl,rfl,rfl⟩
  · rw [← Option.some.inj member]
    refine ⟨.inl (by decide +kernel),fun contexts read _ => ?_⟩
    rw [← Option.some.inj read]
    decide +kernel

theorem splitNeverVerifies : verifyStored textVerifier midnight splitGraph (some splitReceipt)
      (describe splitting "active" [secondUuid]) ≠ verify textVerifier midnight splitGraph (some splitReceipt) splitting := by
  have stored : (verifyStored textVerifier midnight splitGraph (some splitReceipt)
      (describe splitting "active" [secondUuid])).toOption.map (·.status) = some .verificationFailed := by decide +kernel
  have direct : (verify textVerifier midnight splitGraph (some splitReceipt) splitting).toOption.map (·.status) = some .verified := by
    decide +kernel
  intro same
  rw [same,direct] at stored
  cases stored

end McpMemory.Curation.Reconciliation
