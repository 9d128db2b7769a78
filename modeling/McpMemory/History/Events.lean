import McpMemory.History.Uuid
import McpMemory.Memory.Loads

/-! `mutation_history.py` and the row decoders of `mutation_history_store.py`. A row that some
UUID or enumeration in it does not read makes the whole read raise. -/
namespace McpMemory.History
open Memory Transaction

inductive ActorKind where
  | user
  | maintenance
  | system
  | restore
  deriving DecidableEq, Repr

def ActorKind.text : ActorKind → String
  | .user => "user"
  | .maintenance => "maintenance"
  | .system => "system"
  | .restore => "restore"

def readActorKind (text : String) : Except String ActorKind :=
  match [ActorKind.user,.maintenance,.system,.restore].find? (·.text == text) with
  | some kind => .ok kind
  | none => .error ("'" ++ text ++ "' is not a valid MutationActorKind")

inductive EventStatus where
  | applied
  | rejected
  | stale
  | failed
  deriving DecidableEq, Repr

def EventStatus.text : EventStatus → String
  | .applied => "applied"
  | .rejected => "rejected"
  | .stale => "stale"
  | .failed => "failed"

def readEventStatus (text : String) : Except String EventStatus :=
  match [EventStatus.applied,.rejected,.stale,.failed].find? (·.text == text) with
  | some status => .ok status
  | none => .error ("'" ++ text ++ "' is not a valid MutationEventStatus")

inductive RevisionRole where
  | target
  | canonical
  | source
  | original
  | splitChild
  deriving DecidableEq, Repr

def RevisionRole.text : RevisionRole → String
  | .target => "target"
  | .canonical => "canonical"
  | .source => "source"
  | .original => "original"
  | .splitChild => "split_child"

def readRevisionRole (text : String) : Except String RevisionRole :=
  match [RevisionRole.target,.canonical,.source,.original,.splitChild].find? (·.text == text) with
  | some role => .ok role
  | none => .error ("'" ++ text ++ "' is not a valid RevisionRole")

structure MutationEvent where
  id : Uuid
  operation : String
  actorKind : ActorKind
  family : Option String
  taskId : Option Uuid
  curationRunId : Option Uuid
  planId : Option Uuid
  actionId : Option Uuid
  policyVersion : Option String
  status : EventStatus
  restoresEventId : Option Uuid
  idempotencyKey : Option String
  createdAt : String
  deriving DecidableEq

structure RecordRevision where
  eventId : Uuid
  memoryId : Uuid
  role : RevisionRole
  beforeExists : Bool
  beforeSnapshot : Option Json.Object
  afterExists : Bool
  afterSnapshot : Option Json.Object
  beforeToken : Option String
  afterToken : Option String

structure LinkRevision where
  eventId : Uuid
  sourceId : Uuid
  targetId : Uuid
  linkType : String
  context : Option String
  beforeExists : Bool
  afterExists : Bool
  deriving DecidableEq

def eventFromRow (row : Memory.MutationEvent) : Except String MutationEvent := do
  let id ← readUuid row.id
  let actorKind ← readActorKind row.actorKind
  let taskId ← optionally readUuid row.taskId
  let curationRunId ← optionally readUuid row.curationRunId
  let planId ← optionally readUuid row.planId
  let actionId ← optionally readUuid row.actionId
  let status ← readEventStatus row.status
  let restoresEventId ← optionally readUuid row.restoresEventId
  .ok ⟨id,row.operation,actorKind,row.family,taskId,curationRunId,planId,actionId,row.policyVersion,status,
    restoresEventId,row.idempotencyKey,row.createdAt⟩

def linkRevisionFromRow (row : Memory.LinkRevision) : Except String LinkRevision := do
  let eventId ← readUuid row.eventId
  let sourceId ← readUuid row.sourceId
  let targetId ← readUuid row.targetId
  .ok ⟨eventId,sourceId,targetId,row.linkType,row.context,row.beforeExists,row.afterExists⟩

/- A snapshot has to be an object. -/
def readSnapshot (text : String) : Except String Json.Object :=
  match Canonical.loads text with
  | some (.obj snapshot) => .ok snapshot
  | some _ => .error "Input should be a valid dictionary"
  | none => .error "Expecting value"

def recordRevisionFromRow (row : Memory.RecordRevision) : Except String RecordRevision := do
  let eventId ← readUuid row.eventId
  let memoryId ← readUuid row.memoryId
  let role ← readRevisionRole row.role
  let beforeSnapshot ← optionally readSnapshot row.beforeSnapshot
  let afterSnapshot ← optionally readSnapshot row.afterSnapshot
  .ok ⟨eventId,memoryId,role,row.beforeExists,beforeSnapshot,row.afterExists,afterSnapshot,row.beforeToken,
    row.afterToken⟩

def readAll {α β : Type} (read : α → Except String β) : List α → Except String (List β)
  | [] => .ok []
  | row::rest => do
    let here ← read row
    .ok (here :: (← readAll read rest))

def getEvent (eventId : Uuid) (t : Tables) : Except String (Option MutationEvent) :=
  optionally eventFromRow (t.events.find? (·.id == eventId.text))

/- `LIMIT`, where it is given. -/
def limited {α : Type} (limit : Option Nat) (rows : List α) : List α :=
  match limit with
  | none => rows
  | some limit => rows.take limit

def getRecordRevisions (limit : Option Nat) (eventId : Uuid) (t : Tables) : Except String (List RecordRevision) :=
  readAll recordRevisionFromRow (limited limit (t.recordRevisions.filter (·.eventId == eventId.text)))

def getLinkRevisions (limit : Option Nat) (eventId : Uuid) (t : Tables) : Except String (List LinkRevision) :=
  readAll linkRevisionFromRow (limited limit (t.linkRevisions.filter (·.eventId == eventId.text)))

/- `append_event` and `append_link_revisions` write the row that this gives. -/

def MutationEvent.row (event : MutationEvent) : Memory.MutationEvent :=
  ⟨event.id.text,event.operation,event.actorKind.text,event.family,event.taskId.map (·.text),
    event.curationRunId.map (·.text),event.planId.map (·.text),event.actionId.map (·.text),event.policyVersion,
    event.status.text,event.restoresEventId.map (·.text),event.idempotencyKey,event.createdAt⟩

def LinkRevision.row (revision : LinkRevision) : Memory.LinkRevision :=
  ⟨revision.eventId.text,revision.sourceId.text,revision.targetId.text,revision.linkType,revision.context,
    revision.beforeExists,revision.afterExists⟩

@[simp] theorem readActorKindText (kind : ActorKind) : readActorKind kind.text = .ok kind := by cases kind <;> rfl

@[simp] theorem readEventStatusText (status : EventStatus) : readEventStatus status.text = .ok status := by
  cases status <;> rfl

@[simp] theorem readUuidTexts (id : Option Uuid) : optionally readUuid (id.map (·.text)) = .ok id := by
  cases id with
  | none => rfl
  | some id => simp [optionally,Except.map]

/- What the store writes it reads back. -/

theorem eventRoundTrip (event : MutationEvent) : eventFromRow event.row = .ok event := by
  simp [eventFromRow,MutationEvent.row,bind,Except.bind]

theorem linkRoundTrip (revision : LinkRevision) : linkRevisionFromRow revision.row = .ok revision := by
  simp [linkRevisionFromRow,LinkRevision.row,bind,Except.bind]

end McpMemory.History
