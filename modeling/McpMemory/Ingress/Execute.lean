import Mathlib.Algebra.Group.Nat.Defs
import McpMemory.Ingress.Domain

/-! `SQLiteIngressMutationStore.execute`: after the checks, one immediate transaction that
reserves the receipt, runs the callback, writes the repair intents and the history,
completes the receipt, assigns the coverage and moves the claimed journal entries. -/
namespace McpMemory.Ingress
open Memory Text Transaction

variable (env : Env) (config : Config)

def failStageAliases (stage : String) : List String :=
  if stage = "action_reserved" then ["action_reserved","reserve"]
  else if stage = "after_domain_mutation" then ["domain","after_domain_mutation"]
  else if stage = "repair_intent" then ["repair","repair_intent"]
  else if stage = "history" then ["history"]
  else if stage = "before_receipt_coverage_commit" then
    ["receipt","coverage","before_receipt_coverage_commit"]
  else if stage = "journal_reconcile" then ["journal","journal_reconcile"]
  else [stage]

/- `hook` stands for the fault injector. -/
def failStage (stage : String) : Action Unit := do
  hook
  match config.faultStage.map (replaceChar '-' '_') with
  | none => pure ()
  | some fault =>
    if (failStageAliases stage).contains fault then raise (.injectedFailure stage) else pure ()

def insertReceipt (receipt : ActionReceipt) : Action Unit := statement fun work =>
  let evidence := work.database.ingress
  if evidence.receipts.any (·.actionId == receipt.actionId) then
    .error (.integrity (unique "ingress_action_receipts.action_id"))
  else .ok ((),{ work with database := { work.database with
    ingress := { evidence with receipts := evidence.receipts ++ [receipt] } } })

/- The columns that the UPDATE sets. -/
def complete (receipt row : ActionReceipt) : ActionReceipt := { row with
  status := receipt.status
  mutationEvidenceId := receipt.mutationEvidenceId
  beforeRevisionTokens := receipt.beforeRevisionTokens
  afterRevisionTokens := receipt.afterRevisionTokens
  terminalizedAt := receipt.terminalizedAt
  errorCode := receipt.errorCode }

def updateReceipt (receipt : ActionReceipt) : Action Unit := write fun work =>
  let evidence := work.database.ingress
  { work with database := { work.database with ingress := { evidence with
    receipts := Table.update (·.actionId == receipt.actionId) (complete receipt) evidence.receipts } } }

def receiptForAction (actionId : String) (work : Work) : Option ActionReceipt :=
  work.database.ingress.receipts.find? (·.actionId == actionId)

/- `INSERT OR IGNORE INTO ingress_source_coverage`. -/
def insertCoverage (item : SourceCoverage) (evidence : Evidence) : Evidence :=
  if evidence.coverage.any (·.entryId == item.entryId) then evidence
  else { evidence with coverage := evidence.coverage ++ [item] }

def coverageFor (entryId : String) (evidence : Evidence) : Option SourceCoverage :=
  evidence.coverage.find? (·.entryId == entryId)

def assignCoverage (item : SourceCoverage) : Action Unit := do
  write fun work => { work with database := { work.database with
    ingress := insertCoverage item work.database.ingress } }
  match ← select fun work => coverageFor item.entryId work.database.ingress with
  | none => raise (.other "AssertionError")
  | some stored =>
    if (stored.actionId,stored.outcome) ≠ (item.actionId,item.outcome) then
      raise (.coverageConflict item.entryId stored.actionId stored.outcome item.actionId item.outcome)
    else pure ()

/- The claim of `task` on one of the entries, compared without stripping. -/
def isOwned (task : String) (ids : List Nat) (entry : Journal.Entry) : Bool :=
  (ids.map Int.ofNat).contains entry.id && entry.status == .claimed && entry.claimTaskId == some task

def moveOwned (task : String) (ids : List Nat) (recoverableUntil : Int) (journal : Journal.Store) :
    Journal.Store :=
  let set := (Journal.Unclaim.moveToRecoverable recoverableUntil).set
  { journal with entries := Table.update (isOwned task ids) set journal.entries }

/- An id that SQLite cannot hold is refused when it is bound. -/
def moveClaimedJournalEntries (task : String) (ids : List Nat) : Action Unit :=
  if ids.isEmpty then pure ()
  else do
    let now ← observe
    if ids.any (2 ^ 63 ≤ ·) then raise .overflowError
    else
      let recoverableUntil := now.time + Journal.recoverableRetentionSeconds
      write fun work => { work with database := { work.database with
        journal := moveOwned task ids recoverableUntil work.database.journal } }

def writeHistory (eventId actionId operation : String) (before after : Records) : Action Unit := do
  let now ← observe
  onTables port (insertEvent ⟨eventId,operation,"system",some "ingress",none,none,none,some actionId,none,
    "applied",none,none,now.text⟩)
  let memoryIds ← lift (canonicalIds env (before.map (·.1) ++ after.map (·.1)))
  each (writeRecordRevision port env.toEnv Canonical.compact eventId before after) memoryIds

def provisional (p : Prepared) (createdAt : String) : ActionReceipt :=
  ⟨p.identity.actionId,p.batchId,p.identity.operation,p.identity.entryIds,p.identity.targetIds,p.digest,
    .unobserved,p.mutationEvidenceId,createdAt,none,none,[],[]⟩

def applied (p : Prepared) (createdAt terminalizedAt evidenceId : String)
    (beforeTokens afterTokens : List (String × String)) : ActionReceipt := { provisional p createdAt with
  status := .appliedUnverified
  mutationEvidenceId := some evidenceId
  terminalizedAt := some terminalizedAt
  beforeRevisionTokens := beforeTokens
  afterRevisionTokens := afterTokens }

/- From the reservation to the last stage before the receipt is completed. -/
def applyMutation (p : Prepared) (callback : Callback) (createdAt : String) : Action ActionReceipt := do
  failStage config "action_reserved"
  let before ← onTables port (read (readRecords p.identity.targetIds))
  match ← callback.play (perform env) with
  | none => raise (.typeError "ingress callback must return IngressMutationResult")
  | some result =>
    if strip result.operation ≠ p.identity.operation then
      raise (.valueError "ingress operation does not match mutation result")
    else do
      failStage config "after_domain_mutation"
      let touched ← inspect (·.touched)
      let affected ← lift (canonicalIds env (p.identity.targetIds ++ touched ++ result.affectedIds))
      let after ← onTables port (read (readRecords affected))
      let event ← observe
      writeRepairIntents port env.toEnv config.embeddingModel before after
      failStage config "repair_intent"
      writeHistory env event.uuid p.identity.actionId p.identity.operation before after
      failStage config "history"
      let now ← observe
      let beforeTokens ← lift (tokens port env.toEnv before)
      let afterTokens ← lift (tokens port env.toEnv after)
      failStage config "before_receipt_coverage_commit"
      pure (applied p createdAt now.text (summaryOr p.mutationEvidenceId event.uuid) beforeTokens afterTokens)

def reconcileJournal (p : Prepared) : Action Unit :=
  match p.journalTask with
  | none => pure ()
  | some task => do
    moveClaimedJournalEntries task p.journalIds
    failStage config "journal_reconcile"

def body (p : Prepared) (callback : Callback) : Action (Ending ActionReceipt) := do
  match ← select (receiptForAction p.identity.actionId) with
  | some existing =>
    if existing.canonicalPayloadDigest ≠ p.digest then
      raise (.identityConflict existing.actionId existing.canonicalPayloadDigest p.digest)
    else pure (.rollback existing)
  | none =>
    let now ← observe
    insertReceipt (provisional p now.text)
    let receipt ← applyMutation env config p callback now.text
    updateReceipt receipt
    each assignCoverage p.coverage
    reconcileJournal config p
    pure (.commit receipt)

/- One call, with all that the outside world adds to it. -/
structure Attempt where
  config : Config
  request : Request
  callback : Callback
  oracle : Oracle IngressError

def execute (attempt : Attempt) (database : Database) : Except IngressError ActionReceipt × Database :=
  match prepare env attempt.request with
  | .error error => (.error error,database)
  | .ok p =>
    let after := transaction (body env attempt.config p attempt.callback) attempt.oracle ⟨database,[]⟩
    (after.1,after.2.database)

end McpMemory.Ingress
