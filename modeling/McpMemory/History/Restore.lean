import McpMemory.Curation.Execute
import McpMemory.History.Inverse

/-! `RestoreExecutor` of `core/mutation_restore.py` as far as it is pure: what it asks of the
action transaction for an inverse and a request. -/
namespace McpMemory.History
open Memory Text Transaction
open Curation (ActionError Command Reply UpdateValues Field)

inductive RestoreScope where
  | all
  | records
  | links
  deriving DecidableEq, Repr

def RestoreScope.text : RestoreScope → String
  | .all => "all"
  | .records => "records"
  | .links => "links"

structure RestoreRequest where
  targetEventId : Uuid
  scope : RestoreScope
  expectedRecordTokens : List (Uuid × String)
  expectedLinkTokens : List (String × String)
  actorId : Option String
  reason : String
  idempotencyKey : String
  confirmation : Bool

inductive RestoreStatus where
  | applied
  | conflict
  | rejected
  | alreadyApplied
  | failed
  deriving DecidableEq, Repr

/- The ids of requests and events are their texts. -/
structure RestoreResult where
  status : RestoreStatus
  requestId : Option String
  eventId : Option String
  targetEventId : Uuid
  conflictReason : Option String
  conflictDetails : List (String × String)
  deriving DecidableEq

structure Env extends actions : Curation.Env where
  uuid5 : Uuid → String → Uuid

def conflictResult (request : RestoreRequest) (code : ConflictCode) (reason : String)
    (conflict : Option RestoreConflict) : RestoreResult :=
  ⟨.conflict,none,none,request.targetEventId,some reason,
    ("code",code.text) :: (conflict.map fun conflict => ("operation",conflict.operation)).toList⟩

def scopeConflict (scope : RestoreScope) (inverse : InverseDescription) : Option (ConflictCode × String) :=
  let records := !inverse.recordChanges.isEmpty && inverse.linkChanges.isEmpty
  let links := !inverse.linkChanges.isEmpty && inverse.recordChanges.isEmpty
  if scope = .all ∨ scope = .records ∧ records ∨ scope = .links ∧ links then none
  else some (.unsupportedOperation,"requested restore scope does not match the supported inverse")

def recordTargetIds (inverse : InverseDescription) : List String := inverse.recordChanges.map (·.memoryId.text)

def inverseTargetIds (inverse : InverseDescription) : List String :=
  sortedSet (recordTargetIds inverse ++ inverse.linkChanges.flatMap fun change =>
    [change.sourceId.text,change.targetId.text])

def inversePreconditions (inverse : InverseDescription) : Option Curation.Preconditions :=
  if inverse.linkChanges.isEmpty then none
  else some ⟨[],[],(inverse.linkChanges.filter (!·.present)).map fun change =>
    ⟨change.sourceId.text,change.targetId.text,change.linkType,change.context⟩,[]⟩

def linkTokenTarget (targetIds : List String) (key : String) : String :=
  if startsWith key "graph:" then key
  else if targetIds.contains key then "graph:" ++ key
  else "link:" ++ key

def expectedTokens (request : RestoreRequest) (targetIds : List String) : List (String × String) :=
  let records := request.expectedRecordTokens.map fun item => (item.1.text,item.2)
  request.expectedLinkTokens.foldl (fun tokens item =>
    Curation.putToken tokens (linkTokenTarget targetIds item.1) item.2) records

/- Why no transaction is tried. -/
def refusal (request : RestoreRequest) (inverse : Except RestoreConflict InverseDescription) :
    Except RestoreResult InverseDescription :=
  match inverse with
  | .error conflict => .error (conflictResult request conflict.code conflict.reason (some conflict))
  | .ok inverse => match scopeConflict request.scope inverse with
    | some (code,reason) => .error (conflictResult request code reason none)
    | none =>
      let tokens := expectedTokens request (inverseTargetIds inverse)
      if (recordTargetIds inverse).any fun memoryId => !tokens.any (·.1 == memoryId) then
        .error (conflictResult request .incompleteHistory
          "restore requires current record tokens for every affected record" none)
      else .ok inverse

/- A field of a stored record. Writers store texts, lists of texts and a null summary; what
Python makes of anything else is not followed here, it raises. -/

def badValue {α : Type} : Except ActionError α := .error (.other "TypeError")

def textValue (record : Json.Object) (name : String) : Except ActionError (Option String) :=
  match Json.get record name with
  | some .null => .ok none
  | some (.str text) => .ok (some text)
  | _ => badValue

def requiredText (record : Json.Object) (name : String) : Except ActionError String := do
  match ← textValue record name with
  | some text => .ok text
  | none => badValue

def textItems : List Json → Except ActionError (List String)
  | [] => .ok []
  | .str text::rest => do .ok (text :: (← textItems rest))
  | _ => badValue

def textList (record : Json.Object) (name : String) : Except ActionError (Option (List String)) :=
  match Json.get record name with
  | some .null => .ok none
  | some (.arr items) => (textItems items).map some
  | _ => badValue

/- Only a mapping replaces what the memory has now. -/
def restoredMetadata (record : Json.Object) (metadata : Json.Object) (name : String) : Json.Object :=
  match Json.get record name with
  | some (.obj value) => Json.set metadata name (.obj value)
  | _ => metadata

def restoreValues (record : Json.Object) (current : MemoryRecord) : Except ActionError UpdateValues := do
  let title ← textValue record "title"
  let content ← textValue record "content"
  let summary ← textValue record "summary"
  let memoryType ← requiredText record "type"
  let status ← requiredText record "status"
  let tags ← textList record "tags"
  let workspaceIds ← textList record "workspace_ids"
  let metadata := restoredMetadata record (restoredMetadata record current.metadata "lineage") "mutation_metadata"
  .ok { UpdateValues.nothing with
    title := some title, content := some content, summary := some summary, memoryType := some memoryType
    status := some status, tags, workspaceIds, metadata := some metadata }

abbrev Restore (α : Type) := Script Command Reply ActionError α

def getRecord (memoryId : Uuid) : Restore (Option MemoryRecord) :=
  ask (R := Reply) (Command.getMemory memoryId.text)

def restoreRecord (change : InverseRecordChange) : Restore Unit :=
  match change.present,change.snapshot with
  | true,some record => do
    match ← getRecord change.memoryId with
    | none => check (.error (.stale ("target memory " ++ change.memoryId.text ++ " is missing")))
    | some current => do
      let values ← check (restoreValues record current)
      let _ ← ask (.updateMemory change.memoryId.text values)
      pure ()
  | _,_ => check (.error (.valueError "restoring a missing record is not supported"))

def restoreLink (change : InverseLinkChange) : Restore Unit :=
  if change.present then do
    let _ ← ask (.addLink change.sourceId.text change.targetId.text change.linkType (change.context.getD ""))
    pure ()
  else do
    let _ ← ask (.removeLink change.sourceId.text change.targetId.text change.linkType)
    pure ()

def forEach {α : Type} (action : α → Restore Unit) : List α → Restore Unit
  | [] => pure ()
  | item::rest => do
    action item
    forEach action rest

def restoreInverse (inverse : InverseDescription) : Curation.Callback := do
  forEach restoreRecord inverse.recordChanges
  forEach restoreLink inverse.linkChanges
  pure (some ⟨"restore",inverseTargetIds inverse,none⟩)

variable (env : Env)

def restoreActionId (request : RestoreRequest) : Uuid :=
  env.uuid5 request.targetEventId ("restore:" ++ request.idempotencyKey)

/- `fresh` is the id of a run for an event that has none. -/
def restoreRunId (event : MutationEvent) (fresh : Uuid) : Uuid := event.curationRunId.getD fresh

def restoreAction (request : RestoreRequest) (runId : Uuid) (inverse : InverseDescription) : Curation.Request where
  runId := runId.text
  actionId := (restoreActionId env request).text
  targetIds := inverseTargetIds inverse
  expectedTokens := expectedTokens request (inverseTargetIds inverse)
  preconditions := inversePreconditions inverse
  operation := some "restore"
  payload := .obj [("target_event_id",.str request.targetEventId.text),("request_id",.str request.idempotencyKey)]
  verificationDescriptor := none
  actorKind := ActorKind.restore.text
  restoresEventId := some request.targetEventId.text
  idempotencyKey := some request.idempotencyKey

end McpMemory.History
