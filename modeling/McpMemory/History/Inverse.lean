import McpMemory.History.Events

/-! The first half of `core/mutation_restore.py`: what would undo an event, or why nothing
safely would. -/
namespace McpMemory.History
open Memory Text Canonical

variable (env : Canonical.Env)

inductive ConflictCode where
  | malformedHistory
  | incompleteHistory
  | unsupportedOperation
  | staleState
  deriving DecidableEq, Repr

def ConflictCode.text : ConflictCode → String
  | .malformedHistory => "malformed_history"
  | .incompleteHistory => "incomplete_history"
  | .unsupportedOperation => "unsupported_operation"
  | .staleState => "stale_state"

structure RestoreConflict where
  code : ConflictCode
  operation : String
  reason : String
  deriving DecidableEq, Repr

/- `present` is the field `exists`. -/
structure InverseRecordChange where
  memoryId : Uuid
  present : Bool
  snapshot : Option Json.Object
  expectedCurrentToken : Option String
  resultingToken : Option String

structure InverseLinkChange where
  sourceId : Uuid
  targetId : Uuid
  linkType : String
  context : Option String
  present : Bool

structure InverseDescription where
  sourceOperation : String
  inverseOperation : String
  recordChanges : List InverseRecordChange
  linkChanges : List InverseLinkChange

def unsupported : List String := ["rewrite_memory","remove_link","archive_memory","merge_memories","split_memory",
  "delete_memory","delete"]

def recordOperations : List String := ["normalize_memory"]

def conflict {α : Type} (code : ConflictCode) (operation reason : String) : Except RestoreConflict α :=
  .error ⟨code,operation,reason⟩

def snapshotFields : List String := ["id","title","content","summary","type","status","tags","workspace_ids","lineage",
  "mutation_metadata"]

/- `1 == True` in Python. -/
def isSchemaVersion (value : Option Json) : Bool :=
  match value with
  | some (.int version) => version == 1
  | some (.bool flag) => flag
  | _ => false

/- The record part, normalised; what `canonical_json` writes `json.loads` reads back. -/
def semanticSnapshot (snapshot : Json.Object) : Except String Json.Object :=
  match Json.get snapshot "record" with
  | some (.obj record) =>
    if (Json.get snapshot "schema_version").isNone ||
        !snapshot.all (fun field => field.1 == "schema_version" || field.1 == "record") then
      .error "snapshot is not a complete semantic snapshot"
    else if !isSchemaVersion (Json.get snapshot "schema_version") then
      .error "snapshot schema version is unsupported"
    else if !snapshotFields.all (fun field => (Json.get record field).isSome) then
      .error "snapshot record is incomplete"
    else
      let fields := snapshotFields.filterMap fun field => (Json.get record field).map (field,·)
      (normalizeFields env [] fields).mapError fun key => "duplicate canonical JSON key: '" ++ key ++ "'"
  | _ => .error "snapshot is not a complete semantic snapshot"

/- `not token`. -/
def noToken (token : Option String) : Bool := token.all (· == "")

def recordConflict (event : MutationEvent) (revision : RecordRevision) : Except RestoreConflict Unit :=
  if revision.eventId ≠ event.id ∨ revision.role ≠ .target then
    conflict .malformedHistory event.operation "revision belongs to another event"
  else if revision.beforeExists ≠ revision.beforeSnapshot.isSome ∨
      revision.afterExists ≠ revision.afterSnapshot.isSome then
    conflict .incompleteHistory event.operation "existence flags do not match snapshots"
  else if revision.beforeExists && noToken revision.beforeToken then
    conflict .incompleteHistory event.operation "before token is missing"
  else if revision.afterExists && noToken revision.afterToken then
    conflict .incompleteHistory event.operation "after token is missing"
  else match optionally (semanticSnapshot env) revision.beforeSnapshot with
    | .error reason => conflict .malformedHistory event.operation reason
    | .ok _ => match optionally (semanticSnapshot env) revision.afterSnapshot with
      | .error reason => conflict .malformedHistory event.operation reason
      | .ok _ => .ok ()

def buildRecordInverse (event : MutationEvent) (records : List RecordRevision) (links : List LinkRevision) :
    Except RestoreConflict InverseDescription :=
  match records, links with
  | [revision],[] => do
    recordConflict env event revision
    match revision.beforeSnapshot,revision.afterSnapshot with
    | some before,some _ =>
      let snapshot ← (semanticSnapshot env before).mapError fun reason => ⟨.malformedHistory,event.operation,reason⟩
      .ok ⟨event.operation,"restore_record",[⟨revision.memoryId,revision.beforeExists,some snapshot,
        revision.afterToken,revision.beforeToken⟩],[]⟩
    | _,_ => conflict .incompleteHistory event.operation "record snapshots are required"
  | _,_ => conflict .incompleteHistory event.operation "expected exactly one record revision"

def buildLinkInverse (event : MutationEvent) (records : List RecordRevision) (links : List LinkRevision) :
    Except RestoreConflict InverseDescription :=
  match records, links with
  | [],[revision] =>
    if revision.eventId ≠ event.id ∨ strip revision.linkType = "" ∨ revision.beforeExists = revision.afterExists then
      conflict .malformedHistory event.operation "link existence transition is invalid"
    else .ok ⟨event.operation,"remove_link",[],[⟨revision.sourceId,revision.targetId,revision.linkType,
      revision.context,revision.beforeExists⟩]⟩
  | _,_ => conflict .incompleteHistory event.operation "expected exactly one link revision"

def buildInverse (event : MutationEvent) (records : List RecordRevision) (links : List LinkRevision) :
    Except RestoreConflict InverseDescription :=
  if unsupported.contains event.operation then
    conflict .unsupportedOperation event.operation "this operation does not have a supported low-risk restore"
  else if event.status ≠ .applied then conflict .malformedHistory event.operation "event is not applied"
  else if recordOperations.contains event.operation then buildRecordInverse env event records links
  else if event.operation = "create_link" then buildLinkInverse event records links
  else conflict .unsupportedOperation event.operation "operation has no safe inverse"

end McpMemory.History
