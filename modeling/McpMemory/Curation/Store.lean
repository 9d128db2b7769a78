import McpMemory.Curation.Ledger
import McpMemory.Lib.Interleave
import McpMemory.Lib.Table

/-! `curation_store.py`: the runs and the receipts of the ledger with all their columns, the
tables of legal transitions, and the SQLite store, in which each read and each update is a step
of its own. Structured columns are the JSON text they are stored as. -/
namespace McpMemory.Curation.Store
open Interleave Table

inductive RunOutcome where
  | applied
  | partiallyApplied
  | qualityRejected
  | noOp
  | invalidPlan
  | stalePlan
  | verificationFailed
  | budgetExhausted
  | deferred
  | providerFailed
  | cancelled
  | noCandidates
  | qualityOverride
  deriving DecidableEq, Repr

structure CurationRun where
  runId : String
  taskId : Option String
  executionEpoch : Option Int
  workItemId : Option String
  frontierKey : String
  selectorStrategy : Option String
  contextFingerprint : String
  plannerId : Option String
  providerId : Option String
  modelId : Option String
  policyVersion : String
  schemaVersion : Int
  state : RunState
  outcome : Option RunOutcome
  planId : Option String
  rejectionCodes : List String
  retryReason : Option String
  budgetUsage : String
  disclosureAudit : String
  createdAt : Option String
  terminalizedAt : Option String
  deriving DecidableEq, Repr

/- `_RUN_TRANSITIONS` -/
def runTransitions : RunState → List RunState
  | .created => [.planning]
  | .planning => [.executing,.terminal]
  | .executing => [.verifying,.terminal]
  | .verifying => [.terminal]
  | .terminal => []

/- `_RECEIPT_TRANSITIONS` -/
def receiptTransitions : ReceiptState → List ReceiptState
  | .appliedUnverified => [.verified,.verificationFailed,.rejected,.stale,.failed]
  | .verified | .verificationFailed | .rejected | .stale | .failed => []

inductive StoreError where
  | valueError (text : String)
  | identityConflict (text : String)
  | integrityError
  deriving DecidableEq, Repr

def intentHashRequired : StoreError := .valueError "curation action receipt intent_hash is required"

def identityInUse (receipt : ActionReceipt) : StoreError := .identityConflict
  ("curation action receipt identity is already in use for " ++ receipt.runId ++ "/" ++ receipt.actionId)

structure CurationStore where
  runs : List CurationRun
  receipts : List ActionReceipt
  mutationEvents : List String
  deriving DecidableEq, Repr

def getRun (runId : String) (store : CurationStore) : Option CurationRun := store.runs.find? (·.runId == runId)

def receiptKey (receipt : ActionReceipt) : String × String := (receipt.runId,receipt.actionId)

def getReceipt (runId actionId : String) (store : CurationStore) : Option ActionReceipt :=
  store.receipts.find? (receiptKey · == (runId,actionId))

/- `bounded_limit` is what the caller asked for, at most 1000; the rows are in the order they came. -/
def listReceipts (runId : String) (limit : Nat) (store : CurationStore) : List ActionReceipt :=
  (store.receipts.filter (·.runId == runId)).take (min limit 1000)

def identityMatches (left right : ActionReceipt) : Bool :=
  left.operation == right.operation && left.affectedIds == right.affectedIds &&
    left.beforeToken == right.beforeToken &&
    (left.intentHash.isNone || right.intentHash.isNone || left.intentHash == right.intentHash) &&
    (left.verificationDescriptor.isNone || right.verificationDescriptor.isNone ||
      left.verificationDescriptor == right.verificationDescriptor)

/- `now` is the clock of the call. -/
inductive StoreOp where
  | transitionRun (runId : String) (expectedState : RunState) (run : CurationRun)
  | terminalizeRun (runId : String) (expectedState : RunState) (outcome : RunOutcome) (now : String)
  | putReceipt (receipt : ActionReceipt) (now : String)
  | transitionReceipt (runId actionId : String) (expectedState : ReceiptState) (receipt : ActionReceipt)
  deriving DecidableEq, Repr

inductive StoreAnswer where
  | run (found : Option CurationRun)
  | receipt (found : Option ActionReceipt)
  | error (error : StoreError)
  deriving DecidableEq, Repr

/- `won` says that the operation has changed a row. -/
inductive StoreCall where
  | started (op : StoreOp)
  | updatingRun (runId : String) (expectedState : RunState) (run : CurationRun)
  | rereadingRun (won : Bool) (runId : String)
  | conflicting (receipt : ActionReceipt)
  | updatingReceipt (runId actionId : String) (expectedState : ReceiptState) (receipt : ActionReceipt)
  | rereadingReceipt (won : Bool) (runId actionId : String) (expectedState : ReceiptState)
  | answered (won : Bool) (answer : StoreAnswer)
  deriving DecidableEq, Repr

def inState (runId : String) (expectedState : RunState) (row : CurationRun) : Bool :=
  row.runId == runId && row.state == expectedState

/- `WHERE run_id = ? AND state = ? AND terminalized_at IS NULL` -/
def unterminalized (runId : String) (expectedState : RunState) (row : CurationRun) : Bool :=
  inState runId expectedState row && row.terminalizedAt.isNone

def terminalizeSet (outcome : RunOutcome) (now : String) (row : CurationRun) : CurationRun := { row with
  state := .terminal
  outcome := some outcome
  terminalizedAt := some now }

/- `SET` names every column but the keys. -/
def runSet (run row : CurationRun) : CurationRun := { run with runId := row.runId }

def inStatus (runId actionId : String) (expectedState : ReceiptState) (row : ActionReceipt) : Bool :=
  receiptKey row == (runId,actionId) && row.status == expectedState

def receiptSet (receipt row : ActionReceipt) : ActionReceipt := { receipt with
  runId := row.runId
  actionId := row.actionId }

def knownEvent (receipt : ActionReceipt) (store : CurationStore) : Bool :=
  receipt.mutationEventId.all (store.mutationEvents.contains ·)

/- The primary key and the two foreign keys of `curation_action_receipts`. -/
def insertReceipt (receipt : ActionReceipt) (store : CurationStore) : Option CurationStore :=
  if (getReceipt receipt.runId receipt.actionId store).isNone && (getRun receipt.runId store).isSome &&
      knownEvent receipt store then some { store with receipts := store.receipts ++ [receipt] }
  else none

def storeStep (call : StoreCall) (store : CurationStore) : StoreCall × CurationStore :=
  match call with
  | .started (.transitionRun runId expectedState run) => match getRun runId store with
    | none => (.answered false (.run none),store)
    | some existing =>
      if existing.state = .terminal then (.answered false (.run (some existing)),store)
      else (.updatingRun runId expectedState { run with
        runId := runId
        createdAt := run.createdAt <|> existing.createdAt },store)
  | .updatingRun runId expectedState run =>
    let rows := inState runId expectedState
    (.rereadingRun (store.runs.countP rows == 1) runId,{ store with runs := update rows (runSet run) store.runs })
  | .started (.terminalizeRun runId expectedState outcome now) =>
    let rows := unterminalized runId expectedState
    (.rereadingRun (store.runs.countP rows == 1) runId,
      { store with runs := update rows (terminalizeSet outcome now) store.runs })
  | .rereadingRun won runId => match getRun runId store with
    | some stored => (.answered won (.run (if won || stored.state == .terminal then some stored else none)),store)
    | none => (.answered won (.run none),store)
  | .started (.putReceipt receipt now) =>
    if receipt.intentHash.isNone then (.answered false (.error intentHashRequired),store)
    else
      let normalized := { receipt with
        appliedAt := receipt.appliedAt <|> if receipt.status = .appliedUnverified then some now else none }
      match insertReceipt normalized store with
      | some after => (.answered true (.receipt (some normalized)),after)
      | none => (.conflicting receipt,store)
  | .conflicting receipt => match getReceipt receipt.runId receipt.actionId store with
    | none => (.answered false (.error .integrityError),store)
    | some existing =>
      if identityMatches existing receipt then (.answered false (.receipt (some existing)),store)
      else (.answered false (.error (identityInUse receipt)),store)
  | .started (.transitionReceipt runId actionId expectedState receipt) =>
    if receipt.intentHash.isNone then (.answered false (.error intentHashRequired),store)
    else match getReceipt runId actionId store with
      | none => (.answered false (.receipt none),store)
      | some existing =>
        if existing.status ≠ .appliedUnverified then (.answered false (.receipt (some existing)),store)
        else (.updatingReceipt runId actionId expectedState receipt,store)
  | .updatingReceipt runId actionId expectedState receipt =>
    let rows := inStatus runId actionId expectedState
    if store.receipts.any rows && !knownEvent receipt store then (.answered false (.error .integrityError),store)
    else (.rereadingReceipt (store.receipts.countP rows == 1) runId actionId expectedState,
      { store with receipts := update rows (receiptSet receipt) store.receipts })
  | .rereadingReceipt won runId actionId expectedState => match getReceipt runId actionId store with
    | some stored =>
      (.answered won (.receipt (if won || stored.status != expectedState then some stored else none)),store)
    | none => (.answered won (.receipt none),store)
  | .answered .. => (call,store)

def ledgerStore : Machine StoreOp StoreCall CurationStore Empty :=
  ⟨.started,fun call store => ((storeStep call store).1,(storeStep call store).2,[])⟩

end McpMemory.Curation.Store
