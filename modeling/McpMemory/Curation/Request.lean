import McpMemory.Curation.Ledger
import McpMemory.Memory.Rows

/-! The pure half of `curation_action_uow.py`: the errors of an action, the normal form of
its request, the hash of its intent and the replay check. -/
namespace McpMemory.Curation
open Memory Text Transaction

/- `stale` to `injected` are the `CurationActionError` family. -/
inductive ActionError where
  | stale (message : String)
  | transient (message : String)
  | fatal (message : String)
  | contract (code message : String)
  | injected (stage : String)
  | operational (message : String)
  | integrity (error : Memory.IntegrityError)
  | valueError (message : String)
  | other (name : String)
  deriving DecidableEq, Repr

structure Env extends Canonical.Env where
  buildSummary : (title content memoryType : String) → String

variable (env : Env)

structure LinkAssertion where
  sourceId : String
  targetId : String
  linkType : String
  context : Option String

structure Preconditions where
  recordTokens : List (String × String)
  requiredStatuses : List (String × String)
  requiredLinks : List LinkAssertion
  absentLinks : List LinkAssertion

structure Request where
  runId : String
  actionId : String
  targetIds : List String
  expectedTokens : List (String × String)
  preconditions : Option Preconditions
  operation : Option String
  payload : Json
  verificationDescriptor : Option String
  actorKind : String
  restoresEventId : Option String
  idempotencyKey : Option String

def canonicalId (value : String) : String := strip (env.unicode.nfc value)

def canonicalTargetIds (values : List String) : Except ActionError (List String) :=
  let normalized := values.map (canonicalId env)
  if normalized.contains "" then .error (.fatal "target IDs must be non-empty")
  else .ok (sortedSet normalized)

def localMemoryIds (values : List String) : Except ActionError (List String) :=
  (canonicalTargetIds env values).map fun ids => ids.filter fun id => !startsWith id "ext:"

/- Runs of white space and hyphens become one underscore. -/
def underscored (inRun : Bool) : List Char → List Char
  | [] => []
  | c::rest =>
    if isSpace c ∨ c = '-' then
      if inRun then underscored true rest else '_' :: underscored true rest
    else c :: underscored false rest

def normalizeLinkType (linkType : String) : Except ActionError String :=
  let normalized := env.unicode.upper (String.ofList (underscored false (strip linkType).toList))
  if normalized = "" then .error (.valueError "link_type must be non-empty") else .ok normalized

def linkTokenKey (key : String) : Option (String × String × String) :=
  let raw := if startsWith key "link:" then String.ofList (key.toList.drop 5) else key
  match raw.toList.splitOn ':' with
  | [source,target,linkType] =>
    if source.isEmpty || target.isEmpty || linkType.isEmpty then none
    else some (String.ofList source,String.ofList target,String.ofList linkType)
  | _ => none

/- A dictionary keeps the place of a key and takes its last value. -/
def putToken (tokens : List (String × String)) (key value : String) : List (String × String) :=
  if tokens.any (·.1 == key) then tokens.map fun item => if item.1 == key then (key,value) else item
  else tokens ++ [(key,value)]

def normalizedTokens (tokens : List (String × String)) : List (String × String) :=
  tokens.foldl (fun done item => putToken done (canonicalId env item.1) item.2) []

def assertionJson (absent : Bool) (link : LinkAssertion) : Json :=
  let ends : Json.Object := [("source_id",.str link.sourceId),("target_id",.str link.targetId),
    ("link_type",.str link.linkType)]
  .obj (if absent && link.context.isNone then ends else ends ++ [("context",Memory.optional link.context)])

def preconditionsJson : Option Preconditions → Json
  | none => .null
  | some p => .obj [("record_tokens",.obj (p.recordTokens.map fun item => (item.1,.str item.2))),
      ("required_statuses",.obj (p.requiredStatuses.map fun item => (item.1,.str item.2))),
      ("required_links",.arr (p.requiredLinks.map (assertionJson false))),
      ("absent_links",.arr (p.absentLinks.map (assertionJson true)))]

def actionIntentHash (intent : Intent) : Except ActionError String :=
  (actionIntentToken env.toEnv intent).mapError fun _ => .fatal "action intent is not canonically representable"

structure Prepared where
  targets : List String
  tokens : List (String × String)
  operation : String

def prepare (request : Request) : Except ActionError Prepared := do
  let targets ← canonicalTargetIds env request.targetIds
  if targets.isEmpty then .error (.fatal "at least one target ID is required")
  else
    let tokens := normalizedTokens env request.expectedTokens
    if tokens.any (·.2 == "") then .error (.fatal "revision tokens must be non-empty")
    else match request.operation with
    | none => .error (.fatal "action operation is required")
    | some operation =>
      if strip operation = "" then .error (.fatal "action operation must be non-empty")
      else .ok ⟨targets,tokens,strip operation⟩

theorem prepareGiven {request : Request} {targets operation} (ids : canonicalTargetIds env request.targetIds = .ok targets)
    (present : targets ≠ []) (filled : (normalizedTokens env request.expectedTokens).any (·.2 == "") = false)
    (asked : request.operation = some operation) (named : strip operation ≠ "") :
    prepare env request = .ok ⟨targets,normalizedTokens env request.expectedTokens,strip operation⟩ := by
  simp [prepare,ids,bind,Except.bind,List.isEmpty_iff,present,filled,asked,named]

theorem preparedTargets {request p} (prepared : prepare env request = .ok p) {memoryId} :
    memoryId ∈ p.targets ↔ ∃ given ∈ request.targetIds, canonicalId env given = memoryId := by
  unfold prepare at prepared
  obtain ⟨targets,canonical,prepared⟩ := checkedOk.mp prepared
  have shape : p.targets = targets := by
    dsimp only at prepared
    split at prepared
    · cases prepared
    · split at prepared
      · cases prepared
      · split at prepared
        · cases prepared
        · split at prepared <;> cases prepared
          rfl
  unfold canonicalTargetIds at canonical
  dsimp only at canonical
  split at canonical <;> cases canonical
  rw [shape,memSortedSet,List.mem_map]

theorem preparedOperation {request p operation} (prepared : prepare env request = .ok p)
    (asked : request.operation = some operation) : p.operation = strip operation := by
  unfold prepare at prepared
  obtain ⟨targets,_,prepared⟩ := checkedOk.mp prepared
  rw [asked] at prepared
  dsimp only at prepared
  split at prepared
  · cases prepared
  · split at prepared
    · cases prepared
    · split at prepared <;> cases prepared
      rfl

def intentOf (request : Request) (p : Prepared) : Intent :=
  ⟨p.operation,p.targets,p.tokens,preconditionsJson request.preconditions,request.payload⟩

def place (request : Request) : String := request.runId ++ "/" ++ request.actionId

def collision (request : Request) : ActionError :=
  .fatal ("curation action identity collision for " ++ place request)

/- Both descriptors are given and they differ. -/
def descriptorsDiffer : Option String → Option String → Bool
  | some stored,some given => stored != given
  | _,_ => false

def checkReplayIdentity (receipt : ActionReceipt) (request : Request) (p : Prepared) :
    Except ActionError Unit :=
  match receipt.intentHash with
  | none => .error (.fatal ("curation action identity collision: legacy-unverifiable receipt for " ++ place request))
  | some stored => do
    let candidate ← actionIntentHash env (intentOf request p)
    if candidate ≠ stored then .error (collision request)
    else if descriptorsDiffer receipt.verificationDescriptor request.verificationDescriptor then
      .error (collision request)
    else .ok ()

/- The stored request matches: one intent hash, and no two different descriptors. -/
def Matches (receipt : ActionReceipt) (request : Request) (p : Prepared) : Prop :=
  (∃ stored, receipt.intentHash = some stored ∧ actionIntentHash env (intentOf request p) = .ok stored) ∧
  descriptorsDiffer receipt.verificationDescriptor request.verificationDescriptor = false

theorem replayMatches {receipt request p} :
    checkReplayIdentity env receipt request p = .ok () ↔ Matches env receipt request p := by
  unfold checkReplayIdentity Matches
  cases receipt.intentHash with
  | none => simp
  | some stored =>
    cases actionIntentHash env (intentOf request p) with
    | error error => simp [bind,Except.bind]
    | ok candidate =>
      by_cases same : candidate = stored <;>
        cases descriptorsDiffer receipt.verificationDescriptor request.verificationDescriptor <;>
          simp [bind,Except.bind,same]

end McpMemory.Curation
