import McpMemory.Curation.Adapter

/-! `application/skill_review_contract.py`: the wire types of a disposition commit and the
checks that a request passes before a store sees it. -/
namespace McpMemory.Review
open Memory Text
open Curation (ActionError asText uuid)

inductive ReviewError where
  | valueError (message : String)
  | typeError (message : String)
  | rejected (code : String)
  | conflict
  | repository (error : ActionError)
  | integrity (error : IntegrityError)
  | dataError (message : String)
  | other (name : String)
  deriving DecidableEq, Repr

def protocolVersion : Int := 2

inductive ReviewOutcome where
  | done
  | bad
  deriving DecidableEq, Repr

def ReviewOutcome.text : ReviewOutcome → String
  | .done => "done"
  | .bad => "bad"

structure SkillReviewEvidence where
  skills : List String
  sourceHashes : List (String × String)
  deploymentReceiptHash : String
  ledgerSnapshotId : String
  deriving DecidableEq, Repr

structure SkillReviewDisposition where
  memoryId : String
  outcome : ReviewOutcome
  note : String
  deriving DecidableEq, Repr

structure SkillReviewCommitRequest where
  reviewRunId : String
  workspaceId : Option String
  evidence : SkillReviewEvidence
  dispositions : List SkillReviewDisposition
  deriving DecidableEq, Repr

structure SkillReviewCommitDisposition where
  memoryId : String
  outcome : String
  status : String
  deriving DecidableEq, Repr

structure SkillReviewCommitResponse where
  dispositions : List SkillReviewCommitDisposition
  reviewRunId : String
  idempotent : Bool
  deriving DecidableEq, Repr

def SkillReviewEvidence.asDict (evidence : SkillReviewEvidence) : Json := .obj [
  ("skills",.arr (evidence.skills.map .str)),
  ("source_hashes",.obj ((evidence.sourceHashes.insertionSort (·.1 ≤ ·.1)).map fun item => (item.1,.str item.2))),
  ("deployment_status",.str "passed"),
  ("deployment_receipt_hash",.str evidence.deploymentReceiptHash),
  ("ledger_snapshot_id",.str evidence.ledgerSnapshotId)]

def SkillReviewDisposition.asDict (item : SkillReviewDisposition) : Json := .obj [
  ("memory_id",.str item.memoryId),("outcome",.str item.outcome.text),("note",.str item.note)]

def SkillReviewCommitRequest.asDict (request : SkillReviewCommitRequest) : Json := .obj [
  ("protocol_version",.int protocolVersion),("review_run_id",.str request.reviewRunId),
  ("workspace_id",Memory.optional request.workspaceId),("evidence",request.evidence.asDict),
  ("dispositions",.arr (request.dispositions.map (·.asDict)))]

def SkillReviewCommitDisposition.asDict (item : SkillReviewCommitDisposition) : Json := .obj [
  ("memory_id",.str item.memoryId),("outcome",.str item.outcome),("status",.str item.status)]

def SkillReviewCommitResponse.asDict (response : SkillReviewCommitResponse) : Json := .obj [
  ("protocol_version",.int protocolVersion),("status",.str "committed"),
  ("review_run_id",.str response.reviewRunId),("idempotent",.bool response.idempotent),
  ("dispositions",.arr (response.dispositions.map (·.asDict)))]

def requiredText (value : Json.Object) (key : String) : Except ReviewError String :=
  match (Json.get value key).bind asText with
  | some text => if strip text = "" then .error (.valueError (key ++ " must be a non-empty string")) else .ok (strip text)
  | none => .error (.valueError (key ++ " must be a non-empty string"))

def optionalText (value : Json.Object) (key : String) : Except ReviewError (Option String) :=
  match Json.get value key with
  | none | some .null => .ok none
  | some _ => (requiredText value key).map some

/- `[0-9a-f]{64}`, the whole text. -/
def isSha256 (text : String) : Bool :=
  text.toList.length == 64 && text.toList.all fun c => c.isDigit || ('a' ≤ c && c ≤ 'f')

/- `str` of the value; that of any other value is no hash. -/
def hashText : Json → Option String
  | .str text => some text
  | .int value => some (toString value)
  | _ => none

def parseSkills (value : Json.Object) : Except ReviewError (List String) :=
  match Json.get value "skills" with
  | some (.arr (item::rest)) =>
    let texts := (item::rest).filterMap asText
    if texts.length = (item::rest).length ∧ texts.all (strip · != "") then .ok (texts.map strip).eraseDups
    else .error (.valueError "evidence.skills must be a non-empty array of strings")
  | _ => .error (.valueError "evidence.skills must be a non-empty array of strings")

def parseSourceHashes (skills : List String) (value : Json.Object) : Except ReviewError (List (String × String)) :=
  match Json.get value "source_hashes" with
  | some (.obj fields) =>
    let hashes := fields.filterMap fun field => (hashText field.2).map (field.1,·)
    if fields.all (skills.contains ·.1) ∧ skills.all (fun skill => fields.any (·.1 == skill)) ∧
        hashes.length = fields.length ∧ hashes.all (isSha256 ·.2) then .ok hashes
    else .error (.valueError "evidence.source_hashes must contain one sha256 hash per skill")
  | _ => .error (.valueError "evidence.source_hashes must be an object")

def requiredHash (value : Json.Object) (key : String) : Except ReviewError String := do
  let text ← requiredText value key
  if isSha256 text then .ok text
  else .error (.valueError ("evidence." ++ key ++ " must be a sha256 hash"))

def parseEvidence (value : Json.Object) : Except ReviewError SkillReviewEvidence := do
  let skills ← parseSkills value
  let sourceHashes ← parseSourceHashes skills value
  if (Json.get value "deployment_status").bind asText ≠ some "passed" then
    .error (.valueError "evidence.deployment_status must be passed")
  else
    let deploymentReceiptHash ← requiredHash value "deployment_receipt_hash"
    let ledgerSnapshotId ← requiredHash value "ledger_snapshot_id"
    .ok ⟨skills,sourceHashes,deploymentReceiptHash,ledgerSnapshotId⟩

/- A list or an object cannot be looked up in the set of outcomes. -/
def parseOutcome : Option Json → Except ReviewError ReviewOutcome
  | some (.str "done") => .ok .done
  | some (.str "bad") => .ok .bad
  | some (.arr _) => .error (.typeError "unhashable type: 'list'")
  | some (.obj _) => .error (.typeError "unhashable type: 'dict'")
  | _ => .error (.valueError "outcome must be done or bad")

def parseDisposition : Json → Except ReviewError SkillReviewDisposition
  | .obj value => do
    let memoryId ← requiredText value "memory_id"
    let outcome ← parseOutcome (Json.get value "outcome")
    let note ← requiredText value "note"
    .ok ⟨memoryId,outcome,note⟩
  | _ => .error (.valueError "each disposition must be an object")

def parseDispositions : List Json → Except ReviewError (List SkillReviewDisposition)
  | [] => .ok []
  | value::rest => do
    let item ← parseDisposition value
    let items ← parseDispositions rest
    .ok (item::items)

/- Each `memory_id` once, as it is spelled. -/
def distinctDispositions (items : List SkillReviewDisposition) : Except ReviewError (List SkillReviewDisposition) :=
  if (items.map (·.memoryId)).Nodup then .ok items
  else .error (.valueError "dispositions must not contain duplicate memory_id values")

def parseReviewRunId (arguments : Json.Object) : Except ReviewError String := do
  let reviewRunId ← requiredText arguments "review_run_id"
  match uuid reviewRunId with
  | .ok text => if text = reviewRunId then .ok reviewRunId else .error (.valueError "review_run_id must be a UUID")
  | .error _ => .error (.valueError "review_run_id must be a UUID")

def parseBody (arguments : Json.Object) (reviewRunId : String) : Except ReviewError SkillReviewCommitRequest := do
  let workspaceId ← optionalText arguments "workspace_id"
  match Json.get arguments "evidence" with
  | some (.obj fields) =>
    let evidence ← parseEvidence fields
    match Json.get arguments "dispositions" with
    | some (.arr (value::rest)) =>
      let items ← parseDispositions (value::rest)
      let dispositions ← distinctDispositions items
      .ok ⟨reviewRunId,workspaceId,evidence,dispositions⟩
    | _ => .error (.valueError "dispositions must be a non-empty array")
  | _ => .error (.valueError "evidence must be an object")

def parseSkillReviewCommitRequest (arguments : Json.Object) : Except ReviewError SkillReviewCommitRequest :=
  match Json.get arguments "protocol_version" with
  | some (.int 2) => do
    let reviewRunId ← parseReviewRunId arguments
    parseBody arguments reviewRunId
  | _ => .error (.valueError "unsupported_protocol_version")

end McpMemory.Review
