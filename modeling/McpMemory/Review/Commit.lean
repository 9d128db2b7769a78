import McpMemory.Postgres.Repository
import McpMemory.Review.Contract

/-! `storage/skill_review.py`: the two stores that commit a batch of dispositions. They share
the order of their steps and differ in how they read a memory, in the lock that they take on
its row and in what their JSON columns accept. -/
namespace McpMemory.Review
open Memory Text Table Transaction
open Curation (ActionError resolveMemoryId)
open Postgres (isJsonb recordOf)

/- `digest` is SHA-256 of the compact JSON text, `str` the text of a value that is none. -/
structure Env where
  digest : Json → String
  str : Json → String

structure Commit where
  reviewRunId : String
  requestDigest : String
  request : Json
  response : Json
  createdAt : String

structure Ledger where
  tables : Tables
  commits : List Commit

abbrev Reviewing (α : Type) := Tx Ledger ReviewError α

def getMemory : Tables → String → Except ActionError (Option MemoryRecord) := recordOf resolveMemoryId

def jsonb (value : Json) : Except ReviewError Unit :=
  if isJsonb value then .ok () else .error (.dataError "unsupported Unicode escape sequence")

def jsonText (_ : Json) : Except ReviewError Unit := .ok ()

def isListed (skills : List String) (skill : Option Json) : Bool := match skill with
  | some (.str text) => skills.contains text
  | _ => false

def eligibleRecord (request : SkillReviewCommitRequest) : Option MemoryRecord → Except ReviewError MemoryRecord
  | none => .error (.rejected "memory_not_found")
  | some record =>
    if record.type ≠ "observation" ∨ "skill-observation" ∉ record.tags then .error (.rejected "not_skill_observation")
    else if record.status ≠ "active" then .error (.rejected "observation_not_active")
    else if isListed request.evidence.skills (Json.get record.metadata "skill") then .ok record
    else .error (.rejected "skill_mismatch")

def statusFor : ReviewOutcome → String
  | .done => "archived"
  | .bad => "stale"

def archivedAt : ReviewOutcome → Reviewing (Option String)
  | .done => do
    let now ← observe
    pure (some now.text)
  | .bad => pure none

/- `metadata.update`. -/
def reviewed (request : SkillReviewCommitRequest) (item : SkillReviewDisposition) (metadata : Json.Object) : Json.Object :=
  [("review_status",.str item.outcome.text),("review_outcome",.str item.outcome.text),
    ("resolution_note",.str item.note),("review_run_id",.str request.reviewRunId),
    ("review_evidence",request.evidence.asDict)].foldl (fun done field => Json.set done field.1 field.2) metadata

def updateActive (memoryId : String) (set : MemoryRow → MemoryRow) (l : Ledger) : Ledger := { l with
  tables := { l.tables with
    memories := update (fun row => row.id == memoryId && row.status == "active") set l.tables.memories } }

structure Backend where
  read : Tables → String → Except ActionError (Option MemoryRecord)
  lock : MemoryRecord → Reviewing Unit
  encode : Json → Except ReviewError Unit
  replayed : SkillReviewCommitResponse → Ending SkillReviewCommitResponse

abbrev Reviewed := SkillReviewDisposition × MemoryRecord

def eligible (backend : Backend) (request : SkillReviewCommitRequest) (memoryId : String) (t : Tables) :
    Except ReviewError MemoryRecord := do
  let found ← (backend.read t memoryId).mapError .repository
  eligibleRecord request found

def eligibleRecords (backend : Backend) (request : SkillReviewCommitRequest) :
    List SkillReviewDisposition → Reviewing (List Reviewed)
  | [] => pure []
  | item::rest => do
    let record ← statement fun l => (eligible backend request item.memoryId l.tables).map (·,l)
    let records ← eligibleRecords backend request rest
    pure ((item,record)::records)

def setDisposition (request : SkillReviewCommitRequest) (pair : Reviewed) (archivedAt : Option String) (now : String)
    (row : MemoryRow) : MemoryRow := { row with
  status := statusFor pair.1.outcome
  archivedAt := archivedAt
  updatedAt := now
  metadata := reviewed request pair.1 pair.2.metadata }

def dispose (backend : Backend) (request : SkillReviewCommitRequest) (pair : Reviewed) : Reviewing Unit := do
  backend.lock pair.2
  let archivedAt ← archivedAt pair.1.outcome
  let now ← observe
  statement fun l => (backend.encode (.obj (reviewed request pair.1 pair.2.metadata))).map fun _ =>
    ((),updateActive pair.2.id (setDisposition request pair archivedAt now.text) l)

def responseTo (request : SkillReviewCommitRequest) : SkillReviewCommitResponse :=
  ⟨request.dispositions.map fun item => ⟨item.memoryId,item.outcome.text,statusFor item.outcome⟩,
    request.reviewRunId,false⟩

def storedCommit (reviewRunId : String) (l : Ledger) : Option Commit := l.commits.find? (·.reviewRunId == reviewRunId)

variable (env : Env)

def committedRow (request : SkillReviewCommitRequest) (now : String) : Commit :=
  ⟨request.reviewRunId,env.digest request.asDict,request.asDict,(responseTo request).asDict,now⟩

def insertCommit (backend : Backend) (request : SkillReviewCommitRequest) : Reviewing Unit := do
  let now ← observe
  statement fun l => do
    backend.encode request.asDict
    backend.encode (responseTo request).asDict
    if (storedCommit request.reviewRunId l).isSome then .error (.integrity (unique "skill_review_commits.review_run_id"))
    else .ok ((),{ l with commits := l.commits ++ [committedRow env request now.text] })

def storedText (item : Json.Object) (key : String) : Except ReviewError String :=
  match Json.get item key with
  | some (.str text) => .ok text
  | some value => .ok (env.str value)
  | none => .error (.other ("KeyError: '" ++ key ++ "'"))

def invalidResponse : ReviewError := .valueError "stored_skill_review_response_invalid"

def storedDispositions : List Json → Except ReviewError (List SkillReviewCommitDisposition)
  | [] => .ok []
  | .obj item::rest => do
    let memoryId ← storedText env item "memory_id"
    let outcome ← storedText env item "outcome"
    let status ← storedText env item "status"
    let items ← storedDispositions rest
    .ok (⟨memoryId,outcome,status⟩::items)
  | _::rest => (storedDispositions rest).bind fun _ => .error invalidResponse

def responseFromDict (value : Json) (idempotent : Bool) : Except ReviewError SkillReviewCommitResponse :=
  match value with
  | .obj fields =>
    if (Json.get fields "status").bind Curation.asText ≠ some "committed" then .error invalidResponse
    else match Json.get fields "dispositions" with
      | some (.arr items) => do
        let dispositions ← storedDispositions env items
        let reviewRunId ← storedText env fields "review_run_id"
        .ok ⟨dispositions,reviewRunId,idempotent⟩
      | _ => .error invalidResponse
  | _ => .error invalidResponse

def replay (request : SkillReviewCommitRequest) (existing : Commit) : Except ReviewError SkillReviewCommitResponse :=
  if existing.requestDigest ≠ env.digest request.asDict then .error .conflict
  else responseFromDict env existing.response true

def commitFresh (backend : Backend) (request : SkillReviewCommitRequest) : Reviewing (Ending SkillReviewCommitResponse) := do
  let records ← eligibleRecords backend request request.dispositions
  each (dispose backend request) records
  insertCommit env backend request
  pure (.commit (responseTo request))

def commitBody (backend : Backend) (request : SkillReviewCommitRequest) : Reviewing (Ending SkillReviewCommitResponse) := do
  match ← select (storedCommit request.reviewRunId) with
  | some existing =>
    let response ← lift (replay env request existing)
    pure (backend.replayed response)
  | none => commitFresh env backend request

def sqlite : Backend := ⟨getMemory,fun _ => pure (),jsonText,.commit⟩

/- The row's status now, this transaction's own updates included. -/
def lockActive (record : MemoryRecord) : Reviewing Unit := do
  match ← select fun l => (selectRow record.id l.tables).map (·.status) with
  | none => raise (.rejected "memory_not_found")
  | some status => if status ≠ "active" then raise (.rejected "observation_not_active") else pure ()

/- The repository reads on a connection of its own, which sees what was committed before. -/
def postgres (committed : Tables) : Backend := ⟨fun _ => Postgres.memoryOf committed,lockActive,jsonb,.rollback⟩

abbrev Outcome := Except ReviewError SkillReviewCommitResponse × Ledger

def sqliteCommit (request : SkillReviewCommitRequest) (oracle : Oracle ReviewError) (l : Ledger) : Outcome :=
  transaction (commitBody env sqlite request) oracle l

def postgresCommit (request : SkillReviewCommitRequest) (oracle : Oracle ReviewError) (l : Ledger) : Outcome :=
  transaction (commitBody env (postgres l.tables) request) oracle l

/- `commit_skill_review_service`: the request is checked first. -/
def commitSkillReview (commit : SkillReviewCommitRequest → Oracle ReviewError → Ledger → Outcome)
    (arguments : Json.Object) (oracle : Oracle ReviewError) (l : Ledger) : Outcome :=
  match parseSkillReviewCommitRequest arguments with
  | .error error => (.error error,l)
  | .ok request => commit request oracle l

end McpMemory.Review
