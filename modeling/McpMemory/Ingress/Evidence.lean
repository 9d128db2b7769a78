/-! `core/ingress_evidence.py`: the receipt of one ingress mutation and the coverage of
one source entry, which are also the rows of their tables. -/
namespace McpMemory.Ingress

inductive ReceiptStatus where
  | appliedUnverified
  | noOp
  | stale
  | failed
  | unobserved
  deriving DecidableEq, Repr

inductive CoverageOutcome where
  | created
  | appended
  | matchedExisting
  | ignored
  | noMutation
  | unobserved
  deriving DecidableEq, Repr

structure ActionReceipt where
  actionId : String
  batchId : String
  operation : String
  entryIds : List String
  targetIds : List String
  canonicalPayloadDigest : String
  status : ReceiptStatus
  mutationEvidenceId : Option String
  createdAt : String
  terminalizedAt : Option String
  errorCode : Option String
  beforeRevisionTokens : List (String × String)
  afterRevisionTokens : List (String × String)
  deriving DecidableEq, Repr

structure SourceCoverage where
  entryId : String
  outcome : CoverageOutcome
  actionId : Option String
  reason : Option String
  deriving DecidableEq, Repr

/- `ingress_action_receipts` and `ingress_source_coverage`. -/
structure Evidence where
  receipts : List ActionReceipt
  coverage : List SourceCoverage
  deriving DecidableEq, Repr

def Evidence.empty : Evidence := ⟨[],[]⟩

end McpMemory.Ingress
