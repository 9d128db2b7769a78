import McpMemory.Ingress.Service
import McpMemory.Postgres.Repository

/-! `PostgresIngressMutationStore.execute`. The tables and most statements are those of the SQLite
store; what differs is written out here. Texts hold no NUL character, which the driver refuses. -/
namespace McpMemory.Ingress.Postgres
open Memory Text Transaction

variable (env : Env) (config : Config)

/- `batches` are the ids in `ingress_batch_evidence`, and `memory_ref_seq` gives its next number. -/
structure Store where
  database : Database
  batches : List String
  memoryRefSeq : Int

structure Work where
  shared : Ingress.Work
  batches : List String
  memoryRefSeq : Int

abbrev Action (α : Type) := Tx Work IngressError α

/- What the two stores have in common. -/
def common {α : Type} (x : Ingress.Action α) : Action α :=
  zoom (·.shared) (fun shared work => { work with shared }) x

def unknownBatch : IngressError := .other "ForeignKeyViolation: ingress_action_receipts.batch_id"

/- `ON CONFLICT (action_id) DO NOTHING RETURNING action_id`. A row that goes in names a batch that
is there. -/
def reserveReceipt (receipt : ActionReceipt) : Action Bool := statement fun work =>
  let evidence := work.shared.database.ingress
  if evidence.receipts.any (·.actionId == receipt.actionId) then .ok (false,work)
  else if !work.batches.contains receipt.batchId then .error unknownBatch
  else .ok (true,{ work with shared := { work.shared with database := { work.shared.database with
    ingress := { evidence with receipts := evidence.receipts ++ [receipt] } } } })

def notFound (memoryId : String) : IngressError := .valueError ("memory '" ++ memoryId ++ "' was not found")

def lockTarget (memoryId : String) : Action Unit := do
  if ← select fun work => work.shared.database.memory.has memoryId then pure ()
  else raise (notFound memoryId)

def lockTargets : List String → Action Unit := each lockTarget

/- `_PostgresIngressDomainTransaction`. -/

def mapTag (memoryId tag : String) : Ingress.Action Unit := do
  onTables port (insertTag tag)
  match ← onTables port (read (selectTagId tag)) with
  | none => pure ()
  | some tagId => onTables port (McpMemory.Postgres.insertMemoryTagOnce memoryId tagId)

def replaceMappings (memoryId : String) (workspaceIds tags : List String) : Ingress.Action Unit := do
  replaceWorkspaces port memoryId workspaceIds
  onTables port (deleteMemoryTags memoryId)
  each (mapTag memoryId) tags

/- `ON CONFLICT (memory_id) DO UPDATE`. The rows have no order, so that the new one comes last says
nothing. -/
def upsertDocument (document : SearchDocument) : Statement Unit := fun t =>
  if !t.has document.memoryId then .error foreignKey
  else .ok ((),{ t with searchDocuments := t.searchDocuments.filter (·.memoryId != document.memoryId) ++ [document] })

def replaceSearchDocument (memoryId title summary content : String) (tags : List String) : Ingress.Action Unit :=
  onTables port (upsertDocument ⟨memoryId,title,summary,content,String.intercalate " " tags⟩)

/- `assert record is not None`. -/
def readBack (memoryId : String) : Ingress.Action (Option MemoryRecord) := do
  match ← getMemory env memoryId with
  | none => raise (.other "AssertionError")
  | some record => pure (some record)

def insertCreated (prepared : PreparedCreate) (memoryRef : Int) : Ingress.Action (Option MemoryRecord) := do
  onTables port (insertMemory ⟨prepared.memoryId,some memoryRef,prepared.title,prepared.content,
    some prepared.summary,prepared.memoryType,prepared.status,prepared.createdAt,prepared.createdAt,
    none,prepared.metadata⟩)
  replaceMappings prepared.memoryId prepared.workspaceIds prepared.tags
  replaceSearchDocument prepared.memoryId prepared.title prepared.summary prepared.content prepared.tags
  touch prepared.memoryId
  readBack env prepared.memoryId

/- The default of `memory_ref`. -/
def nextval : Action Int := do
  let memoryRef ← inspect (·.memoryRefSeq)
  adjust fun work => { work with memoryRefSeq := work.memoryRefSeq + 1 }
  pure memoryRef

def createMemory (values : CreateValues) : Action (Option MemoryRecord) := do
  let now ← observe
  let prepared ← lift (prepareCreate env now values)
  let memoryRef ← nextval
  common (insertCreated env prepared memoryRef)

def appendMemory (values : AppendValues) : Ingress.Action (Option MemoryRecord) := do
  let memoryId ← lift (identifier env values.memoryId "memory_id")
  match ← getMemory env memoryId with
  | none => raise (notFound memoryId)
  | some existing =>
    let prepared ← lift (prepareAppend env existing values)
    let now ← observe
    onTables port (updateMemory memoryId fun row => { row with
      content := prepared.content, summary := prepared.summary, metadata := prepared.metadata, updatedAt := now.text })
    replaceMappings memoryId prepared.workspaceIds prepared.tags
    replaceSearchDocument memoryId existing.title (prepared.summary.getD "") prepared.content prepared.tags
    touch memoryId
    readBack env memoryId

def perform : (command : Command) → Action (Reply command)
  | .getMemory memoryId => common (getMemory env memoryId)
  | .createMemory values => createMemory env values
  | .appendMemory values => common (appendMemory env values)

/- A number beyond the column's type is compared as `numeric`, and no entry has it. -/
def moveClaimedJournalEntries (task : String) (ids : List Nat) : Ingress.Action Unit :=
  if ids.isEmpty then pure ()
  else do
    let now ← observe
    let recoverableUntil := now.time + Journal.recoverableRetentionSeconds
    write fun work => { work with database := { work.database with
      journal := moveOwned task ids recoverableUntil work.database.journal } }

def assignCoverage (item : SourceCoverage) : Ingress.Action Unit := do
  write fun work => { work with database := { work.database with
    ingress := insertCoverage item work.database.ingress } }
  match ← select fun work => coverageFor item.entryId work.database.ingress with
  | none => raise (.other "RuntimeError: source coverage assignment was not persisted")
  | some stored =>
    if (stored.actionId,stored.outcome) ≠ (item.actionId,item.outcome) then
      raise (.coverageConflict item.entryId stored.actionId stored.outcome item.actionId item.outcome)
    else pure ()

def reconcileJournal (p : Prepared) : Ingress.Action Unit :=
  match p.journalTask with
  | none => pure ()
  | some task => do
    moveClaimedJournalEntries task p.journalIds
    failStage config "journal_reconcile"

/- After the callback. The ids of the repair intents are fresh, so that only the key which the
statement names can be there already. -/
def recordMutation (p : Prepared) (createdAt : String) (before : Records) : Option MutationResult →
    Ingress.Action ActionReceipt
  | none => raise (.typeError "ingress callback must return IngressMutationResult")
  | some result =>
    if strip result.operation ≠ p.identity.operation then
      raise (.valueError "ingress operation does not match mutation result")
    else do
      failStage config "after_domain_mutation"
      let touched ← inspect (·.touched)
      let affected ← lift (canonicalIds env (p.identity.targetIds ++ touched ++ result.affectedIds))
      let after ← onTables port (read (readRecords affected))
      let event ← observe
      writeRepairIntents port env.toEnv config.embeddingModel before after
      failStage config "repair_intent"
      writeHistory env event.uuid p.identity.actionId p.identity.operation before after
      failStage config "history"
      let now ← observe
      let beforeTokens ← lift (tokens port env.toEnv before)
      let afterTokens ← lift (tokens port env.toEnv after)
      failStage config "before_receipt_coverage_commit"
      pure (applied p createdAt now.text (summaryOr p.mutationEvidenceId event.uuid) beforeTokens afterTokens)

def applyMutation (p : Prepared) (callback : Callback) (createdAt : String) : Action ActionReceipt := do
  common (failStage config "action_reserved")
  let before ← common (onTables port (read (readRecords p.identity.targetIds)))
  let result ← callback.play (perform env)
  common (recordMutation env config p createdAt before result)

/- Where the receipt is there already. -/
def replay (p : Prepared) : Action (Ending ActionReceipt) := do
  match ← select fun work => receiptForAction p.identity.actionId work.shared with
  | none => raise (.other "RuntimeError: ingress action receipt disappeared after conflict")
  | some existing =>
    if existing.canonicalPayloadDigest ≠ p.digest then
      raise (.identityConflict existing.actionId existing.canonicalPayloadDigest p.digest)
    else pure (.rollback existing)

/- A callback lets every exception pass: PostgreSQL has aborted the transaction by then. -/
def body (p : Prepared) (callback : Callback) : Action (Ending ActionReceipt) := do
  let now ← observe
  if ← reserveReceipt (provisional p now.text) then do
    lockTargets p.identity.targetIds
    let receipt ← applyMutation env config p callback now.text
    common (updateReceipt receipt)
    common (each assignCoverage p.coverage)
    common (reconcileJournal config p)
    pure (.commit receipt)
  else replay p

/- The sequence is not rolled back. -/
def execute (attempt : Attempt) (store : Store) : Except IngressError ActionReceipt × Store :=
  match prepare env attempt.request with
  | .error error => (.error error,store)
  | .ok p =>
    let run := body env attempt.config p attempt.callback
    let start : Work := ⟨⟨store.database,[]⟩,store.batches,store.memoryRefSeq⟩
    let after := transaction run attempt.oracle start
    let reached := ((hook >>= fun _ => run) attempt.oracle ⟨start,0⟩).2.data
    (after.1,⟨after.2.shared.database,store.batches,reached.memoryRefSeq⟩)

end McpMemory.Ingress.Postgres
