import McpMemory.History.Eligibility
import McpMemory.History.Restore

/-! The restore requests of `mutation_history_store.py`, and the checks that
`MutationHistoryService.request_restore` makes before a request is tried. A request is
registered in a status that reads as applied; its outcome is written once, later. -/
namespace McpMemory.History
open Memory Text Transaction

inductive RestoreError where
  | valueError (message : String)
  | integrity (error : IntegrityError)
  | identityConflict (message : String)
  | terminalization (message : String)
  | keyError (message : String)
  | unreadable (message : String)
  | action (error : Curation.ActionError)
  deriving DecidableEq, Repr

structure RestoreRow where
  id : String
  request : RestoreRequest
  status : RestoreStatus
  eventId : Option String
  conflictReason : Option String
  conflictDetails : List (String × String)
  createdAt : String
  terminalizedAt : Option String

abbrev Requests := List RestoreRow

def restoreResultFromRow (replay : Bool) (row : RestoreRow) : RestoreResult :=
  ⟨if replay && row.status == .applied then .alreadyApplied else row.status,some row.id,row.eventId,
    row.request.targetEventId,row.conflictReason,row.conflictDetails⟩

def registered (requestId createdAt : String) (request : RestoreRequest) : RestoreRow :=
  ⟨requestId,request,.applied,none,none,[],createdAt,none⟩

/- The foreign key to the event is checked as well. -/
def insertRequest (row : RestoreRow) (t : Tables) (requests : Requests) : Except IntegrityError Requests :=
  if requests.any (·.id == row.id) then .error (unique "memory_restore_requests.id")
  else if requests.any (·.request.idempotencyKey == row.request.idempotencyKey) then
    .error (unique "memory_restore_requests.idempotency_key")
  else if !t.events.any (·.id == row.request.targetEventId.text) then .error foreignKey
  else .ok (requests ++ [row])

/- Equal dictionaries. -/
def sameEntries {α : Type} [BEq α] (a b : List (α × String)) : Bool :=
  a.all (fun item => b.lookup item.1 == some item.2) && b.all fun item => a.lookup item.1 == some item.2

def identityMatches (stored request : RestoreRequest) : Bool :=
  stored.targetEventId == request.targetEventId && stored.scope == request.scope &&
    sameEntries stored.expectedRecordTokens request.expectedRecordTokens &&
    sameEntries stored.expectedLinkTokens request.expectedLinkTokens && stored.actorId == request.actorId &&
    stored.reason == request.reason && stored.confirmation == request.confirmation

def replayRequest (request : RestoreRequest) (requests : Requests) : Except RestoreError RestoreResult :=
  match requests.find? (·.request.idempotencyKey == request.idempotencyKey) with
  | none => .error (.integrity (unique "memory_restore_requests"))
  | some stored =>
    if identityMatches stored.request request then .ok (restoreResultFromRow true stored)
    else .error (.identityConflict ("restore idempotency key '" ++ request.idempotencyKey ++ "' is already in use"))

def readRequest (requestId : String) (requests : Requests) : Except RestoreError RestoreResult :=
  match requests.find? (·.id == requestId) with
  | none => .error (.keyError ("restore request " ++ requestId ++ " was not found"))
  | some row => .ok (restoreResultFromRow false row)

def outcome (result : RestoreResult) (terminalizedAt : String) (row : RestoreRow) : RestoreRow := { row with
  status := result.status, eventId := result.eventId, conflictReason := result.conflictReason
  conflictDetails := result.conflictDetails, terminalizedAt := some terminalizedAt }

def isOpen (requestId : String) (row : RestoreRow) : Bool := row.id == requestId && row.terminalizedAt.isNone

/- The first outcome stays; the row is then read back, which nothing changes any more. -/
def terminalizeRequest (requestId : String) (result : RestoreResult) (terminalizedAt : String) (t : Tables)
    (requests : Requests) : Except RestoreError RestoreResult × Requests :=
  let rowcount := requests.countP (isOpen requestId)
  if 0 < rowcount ∧ result.eventId.any fun eventId => !t.events.any (·.id == eventId) then
    (.error (.integrity foreignKey),requests)
  else
    let requests := Table.update (isOpen requestId) (outcome result terminalizedAt) requests
    match readRequest requestId requests with
    | .error error => (.error error,requests)
    | .ok stored =>
      if rowcount = 0 ∧ stored.status ≠ result.status then
        (.error (.terminalization ("restore request " ++ requestId ++ " already terminalized")),requests)
      else (.ok stored,requests)

/- The keyword arguments of `request_restore`. -/
structure RestoreForm where
  eventId : String
  scope : String
  expectedRecordTokens : Json
  expectedLinkTokens : Json
  actorId : Option String
  reason : String
  idempotencyKey : String
  confirmation : Bool

def parseUuid (field text : String) : Except RestoreError Uuid :=
  (readUuid text).mapError fun _ => .valueError (field ++ "_invalid")

def parseScope (text : String) : Except RestoreError RestoreScope :=
  match [RestoreScope.all,.records,.links].find? (·.text == text) with
  | some scope => .ok scope
  | none => .error (.valueError "scope_invalid")

def requiredToken (field : String) (value : Json) : Except RestoreError String :=
  match value with
  | .str token => if strip token = "" then .error (.valueError (field ++ "_must_contain_tokens")) else .ok token
  | _ => .error (.valueError (field ++ "_must_contain_tokens"))

def parseTokens {α : Type} [BEq α] (field : String) (parse : String → Except RestoreError α) :
    List (String × Json) → Except RestoreError (List (α × String))
  | [] => .ok []
  | (text,value)::rest => do
    let key ← parse text
    let token ← requiredToken field value
    let others ← parseTokens field parse rest
    -- a key that comes again takes the last value
    .ok (if others.any (·.1 == key) then others else (key,token)::others)

/- `value or {}`. -/
def orEmpty : Json → Json
  | .null | .bool false | .arr [] => .obj []
  | .int n => if n = 0 then .obj [] else .int n
  | .str text => if text = "" then .obj [] else .str text
  | value => value

def tokensOf {α : Type} [BEq α] (field : String) (parse : String → Except RestoreError α) (value : Json) :
    Except RestoreError (List (α × String)) :=
  match orEmpty value with
  | .obj fields => parseTokens field parse fields
  | _ => .error (.valueError (field ++ "_must_be_object"))

def parseRequest (form : RestoreForm) : Except RestoreError RestoreRequest := do
  let targetEventId ← parseUuid "event_id" form.eventId
  let scope ← parseScope form.scope
  if strip form.idempotencyKey = "" then .error (.valueError "idempotency_key_required")
  else if strip form.reason = "" then .error (.valueError "reason_required")
  else do
    let recordTokens ← tokensOf "expected_record_tokens" (parseUuid "memory_id") form.expectedRecordTokens
    let linkTokens ← tokensOf "expected_link_tokens" .ok form.expectedLinkTokens
    .ok ⟨targetEventId,scope,recordTokens,linkTokens,form.actorId,form.reason,form.idempotencyKey,form.confirmation⟩

def restoreConflict (target : Uuid) (code reason : String) : RestoreResult :=
  ⟨.conflict,none,none,target,some reason,[("code",code)]⟩

def restoreRejected (target : Uuid) (code reason : String) : RestoreResult :=
  ⟨.rejected,none,none,target,some reason,[("code",code)]⟩

def tokenConflict (request : RestoreRequest) (analysis : RestoreAnalysis) : Option RestoreResult :=
  match analysis.findings.recordTokens.find? fun item =>
      (request.expectedRecordTokens.find? (·.1.text == item.1)).map (·.2) != some item.2 with
  | some (memoryId,_) => some (restoreConflict request.targetEventId "stale_state"
      ("current record token is stale for " ++ memoryId))
  | none => match analysis.findings.linkTokens.find? fun item =>
      request.expectedLinkTokens.lookup item.1 != some item.2 with
    | some (key,_) => some (restoreConflict request.targetEventId "stale_state"
        ("current link token is stale for " ++ key))
    | none => none

/- What the analysis says against the request. -/
def verdict (request : RestoreRequest) (analysis : RestoreAnalysis) : Option RestoreResult :=
  match analysis.conflictCode with
  | some code => some (restoreConflict request.targetEventId code.text
      (analysis.conflictReason.getD "restore is not eligible"))
  | none => match analysis.conflict with
    | some conflict => some (restoreConflict request.targetEventId conflict.code.text conflict.reason)
    | none =>
      if protectionDenies analysis then some (restoreRejected request.targetEventId "protection_denied"
        "current protection does not allow autonomous restore")
      else if asksConfirmation analysis && !request.confirmation then
        some (restoreRejected request.targetEventId "confirmation_required"
          "explicit confirmation is required by the current policy")
      else tokenConflict request analysis

def maxHistoryRevisionRows : Nat := 100

/- `_analyze_restore` with its reads, of which all see one state here. -/
def analyze (env : Canonical.Env) (database : Database) (eventId : Uuid) : Except RestoreError RestoreAnalysis :=
  match getEvent eventId database.memory with
  | .error error => .error (.unreadable error)
  | .ok none => .error (.valueError "mutation_event_not_found")
  | .ok (some event) => (do
      let records ← getRecordRevisions (some maxHistoryRevisionRows) eventId database.memory
      let links ← getLinkRevisions (some maxHistoryRevisionRows) eventId database.memory
      analyzeRestore env database.protections database.memory event records links).mapError .unreadable

end McpMemory.History
