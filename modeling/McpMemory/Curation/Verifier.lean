import McpMemory.Curation.Adapter
import McpMemory.Curation.Execute
import McpMemory.Curation.Store

/-! `core/curation_verifier.py`, as far as reconciliation uses it: what is read of the graph to
verify a receipt, and what is asked of it. Each read of a memory is a command of its own. -/
namespace McpMemory.Curation.Reconciliation
open Memory Text Transaction

structure VerificationDescriptor where
  schemaVersion : Int
  operation : String
  targetIds : List String
  targetStatus : Option String
  sourceId : Option String
  targetId : Option String
  linkType : Option String
  context : Option String
  present : Option Bool
  canonicalId : Option String
  sourceIds : List String
  childIds : List String
  splitGroupId : Option String
  childCount : Option Int
  deriving DecidableEq, Repr

/- What `peek_memory` gives, as far as the verifier looks at it. -/
structure ReadContext where
  record : MemoryRecord
  outgoing : List MemoryLink

def peekMemory (t : Tables) (memoryId : String) : Except ActionError (Option ReadContext) :=
  (repositoryMemory t memoryId).map fun found => found.map fun record =>
    ⟨record,t.links.filter (·.sourceId == record.id)⟩

/- Nothing stands for VERIFIED, an error code for VERIFICATION_FAILED. -/
abbrev Verdict := Option String

abbrev Verification := Script String (fun _ => Option ReadContext) ActionError Verdict

abbrev Contexts := List (String × ReadContext)

variable (env : Env)

def freshContexts : List String → (Contexts → Verification) → Verification
  | [],next => next []
  | memoryId::rest,next => .call memoryId fun
    | .error error => .fail error
    | .ok none => .done (some "record_missing")
    | .ok (some context) =>
      if context.record.id ≠ memoryId then .done (some "record_missing")
      else freshContexts rest fun contexts => next ((memoryId,context)::contexts)

def receiptIds (receipt : ActionReceipt) : List String := sortedSet receipt.affectedIds

def checkedToken (current : ActionReceipt) (contexts : Contexts) (ids : List String) (next : Verification) :
    Verification :=
  match stateToken env (contexts.map fun item => (item.1,item.2.record)) ids with
  | .error error => .fail error
  | .ok actual => if actual ≠ current.afterToken then .done (some "after_token_mismatch") else next

def contextOf (contexts : Contexts) (memoryId : String) (next : ReadContext → Verification) : Verification :=
  match contexts.lookup memoryId with
  | none => .fail (.other "KeyError")
  | some context => next context

def required (condition : Bool) (errorCode : String) (next : Verification) : Verification :=
  if condition then next else .done (some errorCode)

def hasExactEdge (context : ReadContext) (sourceId targetId linkType edgeContext : String) : Except ActionError Bool :=
  (normalizeLinkType env linkType).map fun normalized => context.outgoing.contains
    ⟨sourceId,targetId,normalized,strip edgeContext⟩

def hasAnyEdge (context : ReadContext) (sourceId targetId linkType : String) : Except ActionError Bool :=
  (normalizeLinkType env linkType).map fun normalized => context.outgoing.any fun edge =>
    edge.sourceId == sourceId && edge.targetId == targetId && edge.linkType == normalized

def verifyRecordAction (current : ActionReceipt) (expectedIds : List String) (targetStatus : Option String) :
    Verification :=
  freshContexts expectedIds fun contexts =>
    required (receiptIds current == expectedIds) "affected_ids_mismatch" <|
    required (targetStatus.all fun status => contexts.all (·.2.record.status == status)) "status_mismatch" <|
    checkedToken env current contexts expectedIds (.done none)

/- The assertions of the branch that a descriptor is complete. -/
def verifyLinkDescriptor (current : ActionReceipt) (descriptor : VerificationDescriptor) (expectedIds : List String) :
    Verification :=
  match descriptor.sourceId,descriptor.targetId,descriptor.linkType with
  | some sourceId,some targetId,some linkType =>
    freshContexts expectedIds fun contexts =>
      checkedToken env current contexts expectedIds <|
      contextOf contexts sourceId fun context =>
        let present := descriptor.present == some true
        match (if present then hasExactEdge env context sourceId targetId linkType (descriptor.context.getD "")
          else hasAnyEdge env context sourceId targetId linkType) with
        | .error error => .fail error
        | .ok edgePresent => required (some edgePresent == descriptor.present)
          (if present then "edge_missing" else "edge_still_present") (.done none)
  | _,_,_ => .fail (.other "AssertionError")

def mergeLinkContext : String := "Merged into canonical memory by provider-free curation."

def verifyMergedSources (contexts : Contexts) (canonical : ReadContext) (canonicalId : String) :
    List String → Verification
  | [] => .done none
  | sourceId::rest => contextOf contexts sourceId fun source =>
    required (source.record.status == "archived") "source_not_archived" <|
    match hasExactEdge env canonical canonicalId sourceId "SUPERSEDES" mergeLinkContext with
    | .error error => .fail error
    | .ok edge => required edge "merge_edge_missing" (verifyMergedSources contexts canonical canonicalId rest)

def isText (text : String) : Json → Bool
  | .str value => value == text
  | _ => false

/- The text of a value that is no text is no id. -/
def listsIds (ids : List String) : Option Json → Bool
  | some (.arr values) => ids.all fun memoryId => values.any (isText memoryId)
  | _ => false

def verifyMerge (current : ActionReceipt) (descriptor : VerificationDescriptor) (expectedIds : List String) :
    Verification :=
  match descriptor.canonicalId with
  | none => .fail (.other "AssertionError")
  | some canonicalId =>
    if descriptor.sourceIds.isEmpty then .fail (.other "ValidationError")
    else freshContexts expectedIds fun contexts =>
      required (receiptIds current == expectedIds) "affected_ids_mismatch" <|
      checkedToken env current contexts expectedIds <|
      contextOf contexts canonicalId fun canonical =>
        let merged := sortedSet (descriptor.sourceIds.filter (· != canonicalId))
        required (listsIds merged (canonical.record.metadata.lookup "merged_source_ids")) "merge_lineage_missing" <|
        verifyMergedSources env contexts canonical canonicalId merged

def isCount (count : Option Int) : Option Json → Bool
  | some (.int value) => count == some value
  | some (.bool value) => count == some (if value then 1 else 0)
  | some .null | none => count.isNone
  | _ => false

def isEmptyList : Option Json → Bool
  | some (.arr values) => values.isEmpty
  | _ => false

/- The descriptor's ids are UUIDs and the list in the metadata holds texts, so that the two are
equal only where both are empty, and no child is left to look at. -/
def verifySplitDescriptor (current : ActionReceipt) (descriptor : VerificationDescriptor) (expectedIds : List String) :
    Verification :=
  let targetId := descriptor.targetId.getD "None"
  .call targetId fun
    | .error error => .fail error
    | .ok none => .done (some "record_missing")
    | .ok (some original) =>
      if original.record.id ≠ targetId then .done (some "record_missing")
      else freshContexts expectedIds fun contexts =>
        checkedToken env current contexts expectedIds <|
        required (isEmptyList (original.record.metadata.lookup "split_child_memory_ids") &&
          descriptor.childIds.isEmpty) "split_children_missing" <|
        required (isCount descriptor.childCount (original.record.metadata.lookup "split_child_count"))
          "split_child_count_missing" (.done none)

/- The row was read again and holds the descriptor that was listed. -/
def verifyDescriptor (current : ActionReceipt) (descriptor : VerificationDescriptor) : Verification :=
  if descriptor.schemaVersion ≠ 1 ∨ descriptor.operation ≠ current.operation then .done (some "descriptor_mismatch")
  else
    let expectedIds := if descriptor.operation = "split_memory"
      then sortedSet (descriptor.targetId.getD "None" :: descriptor.childIds) else sortedSet descriptor.targetIds
    required (receiptIds current == expectedIds) "affected_ids_mismatch" <|
    if ["normalize_memory","rewrite_memory","archive_memory"].contains descriptor.operation then
      verifyRecordAction env current expectedIds descriptor.targetStatus
    else if ["create_link","remove_link"].contains descriptor.operation then
      verifyLinkDescriptor env current descriptor expectedIds
    else if descriptor.operation = "merge_memories" then verifyMerge env current descriptor expectedIds
    else if descriptor.operation = "split_memory" then verifySplitDescriptor env current descriptor expectedIds
    else .done (some "unsupported_descriptor")

end McpMemory.Curation.Reconciliation
