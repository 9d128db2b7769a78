/-! `curation_store.py`: the runs and the action receipts of the curation ledger, as far
as an action transaction reads or writes them. UUIDs are their canonical text; a
verification descriptor is the JSON text it is stored as. -/
namespace McpMemory.Curation

inductive RunState where
  | created
  | planning
  | executing
  | verifying
  | terminal
  deriving DecidableEq, Repr

structure Run where
  runId : String
  taskId : Option String
  frontierKey : String
  contextFingerprint : String
  policyVersion : Option String
  planId : Option String
  state : RunState
  createdAt : String
  deriving DecidableEq, Repr

inductive ReceiptState where
  | appliedUnverified
  | verified
  | verificationFailed
  | rejected
  | stale
  | failed
  deriving DecidableEq, Repr

structure ActionReceipt where
  runId : String
  actionId : String
  operation : String
  affectedIds : List String
  status : ReceiptState
  beforeToken : Option String
  afterToken : Option String
  mutationEventId : Option String
  intentHash : Option String
  verificationDescriptor : Option String
  errorCode : Option String
  appliedAt : Option String
  verifiedAt : Option String
  deriving DecidableEq, Repr

structure Ledger where
  runs : List Run
  receipts : List ActionReceipt
  deriving DecidableEq, Repr

def Ledger.empty : Ledger := ⟨[],[]⟩

structure Protection where
  memoryId : String
  mode : String
  reason : String
  actorId : Option String
  createdAt : String
  expiresAt : Option String
  deriving DecidableEq, Repr

end McpMemory.Curation
