import McpMemory.Curation.Transaction

/-! `SQLiteCurationActionStore.execute_action`: the checks, a first look for a receipt in a
read of its own, then one immediate transaction that looks again, locks and verifies the
targets, runs the callback and writes the repair intents, the history and the receipt. -/
namespace McpMemory.Curation
open Memory Text Transaction

variable (env : Env) (config : Config)

def isReceipt (runId actionId : String) (receipt : ActionReceipt) : Bool :=
  receipt.runId == runId && receipt.actionId == actionId

def getReceipt (runId actionId : String) (ledger : Ledger) : Option ActionReceipt :=
  ledger.receipts.find? (isReceipt runId actionId)

def selectRun (runId : String) (ledger : Ledger) : Option Run := ledger.runs.find? (·.runId == runId)

/- `INSERT OR IGNORE INTO curation_runs`. -/
def insertRun (run : Run) (ledger : Ledger) : Ledger :=
  if ledger.runs.any (·.runId == run.runId) then ledger
  else { ledger with runs := ledger.runs ++ [run] }

def onLedger (effect : Ledger → Ledger) : Action Unit := write fun work =>
  { work with database := { work.database with curation := effect work.database.curation } }

/- The run of the action; a restore makes its own when there is none. -/
def runFor (request : Request) : Action (Option Run) := do
  match ← select fun work => selectRun request.runId work.database.curation, request.restoresEventId with
  | some run,_ => pure (some run)
  | none,none => pure none
  | none,some restores =>
    let now ← observe
    onLedger (insertRun ⟨request.runId,none,"restore:" ++ restores,
      summaryOr request.idempotencyKey request.actionId,some "1",none,.executing,now.text⟩)
    select fun work => selectRun request.runId work.database.curation

def checkRun (request : Request) (run : Option Run) : Except ActionError Unit :=
  match run with
  | none => if request.restoresEventId.isNone then
      .error (.fatal ("curation run " ++ request.runId ++ " was not found"))
    else .ok ()
  | some run => if run.state = .terminal ∧ request.restoresEventId.isNone then
      .error (.fatal ("curation run " ++ request.runId ++ " is terminal"))
    else .ok ()

def lockTarget (memoryId : String) : Action Unit :=
  if startsWith memoryId "ext:" then pure ()
  else do
    if ← onTables port (read fun t => t.has memoryId) then pure () else raise (missing memoryId)

/- `_read_records` with this module's `_hydrate_record`. -/
def selectRecords (memoryIds : List String) (t : Tables) : Records :=
  memoryIds.filterMap fun memoryId => (selectRecord memoryId t).map (memoryId,·)

def linksOf (memoryIds : List String) (t : Tables) : List MemoryLink :=
  t.links.filter fun link => memoryIds.contains link.sourceId || memoryIds.contains link.targetId

def hashed (value : Except String String) : Except ActionError String := value.mapError duplicateKey

def checkRecordToken (records : Records) (p : Prepared) (memoryId : String) : Action Unit := do
  match (p.tokens.lookup memoryId).or (p.tokens.lookup ("record:" ++ memoryId)) with
  | none => pure ()
  | some expected =>
    match records.lookup memoryId with
    | none => raise (.stale ("record revision token is stale for '" ++ memoryId ++ "'"))
    | some record => do
      if (← lift (token port env.toEnv record)) = expected then pure ()
      else raise (.stale ("record revision token is stale for '" ++ memoryId ++ "'"))

def checkGraphToken (p : Prepared) (memoryId : String) : Action Unit := do
  match p.tokens.lookup ("graph:" ++ memoryId) with
  | none => pure ()
  | some expected =>
    let links ← onTables port (read (linksOf [memoryId]))
    if (← lift (hashed (graphToken env.toEnv memoryId links))) = expected then pure ()
    else raise (.stale ("graph revision token is stale for '" ++ memoryId ++ "'"))

def checkLinkToken (item : String × String) : Action Unit :=
  match linkTokenKey item.1 with
  | none => pure ()
  | some (source,target,linkType) => do
    let normalized ← lift (normalizeLinkType env linkType)
    let row ← onTables port (read (selectLink source target normalized))
    let actual ← lift (hashed (linkToken env.toEnv source target linkType (row.map (·.context)) row.isSome))
    if actual = item.2 then pure ()
    else raise (.stale ("link revision token is stale for " ++ source ++ ":" ++ target ++ ":" ++ linkType))

def checkTokens (records : Records) (p : Prepared) : Action Unit := do
  each (fun memoryId => do
    checkRecordToken env records p memoryId
    checkGraphToken env p memoryId) p.targets
  each (checkLinkToken env) p.tokens

def checkStatus (p : Prepared) (item : String × String) : Action Unit :=
  let memoryId := canonicalId env item.1
  if !p.targets.contains memoryId then
    raise (.fatal "status precondition references an unlocked target")
  else do
    let row ← onTables port (read (selectRow memoryId))
    if row.map (·.status) = some item.2 then pure ()
    else raise (.stale ("status precondition is stale for '" ++ memoryId ++ "'"))

def checkLink (p : Prepared) (shouldExist : Bool) (link : LinkAssertion) : Action Unit :=
  let source := canonicalId env link.sourceId
  let target := canonicalId env link.targetId
  if !p.targets.contains source || !p.targets.contains target then
    raise (.fatal "link precondition references an unlocked target")
  else do
    let linkType ← lift (normalizeLinkType env link.linkType)
    if !shouldExist && link.context.isSome then
      raise (.fatal "absent-link precondition must omit relationship context")
    else do
      let row ← onTables port (read (selectLink source target linkType))
      let found := row.any fun row => !shouldExist || link.context.all (· == row.context)
      if found = shouldExist then pure () else raise (.stale "link precondition is stale")

def checkPreconditions (p : Prepared) : Option Preconditions → Action Unit
  | none => pure ()
  | some asked => do
    each (checkStatus env p) asked.requiredStatuses
    each (checkLink env p true) asked.requiredLinks
    each (checkLink env p false) asked.absentLinks

def snapshots : Records → Except ActionError Json.Object
  | [] => .ok []
  | (memoryId,record)::rest => do
    let here ← (recordSnapshot env.toEnv record).mapError duplicateKey
    .ok ((memoryId,here) :: (← snapshots rest))

def stateToken (records : Records) (ids : List String) : Except ActionError (Option String) :=
  if records.isEmpty then .ok none
  else do
    let snapshots ← snapshots env records
    let token ← hashed (Canonical.stableHash env.toEnv
      (.obj [("targets",.arr (ids.map .str)),("records",.obj snapshots)]))
    .ok (some token)

abbrev LinkKey := String × String × String

def keyOf (link : MemoryLink) : LinkKey := (link.sourceId,link.targetId,link.linkType)

def keyLe (a b : LinkKey) : Bool :=
  a.1 < b.1 || a.1 == b.1 && (a.2.1 < b.2.1 || a.2.1 == b.2.1 && a.2.2 ≤ b.2.2)

def writeLinkRevision (eventId : String) (before after : List MemoryLink) (key : LinkKey) : Action Unit :=
  let previous := before.find? (keyOf · == key)
  let current := after.find? (keyOf · == key)
  if previous.isSome && current.isSome && previous.map (·.context) == current.map (·.context) then pure ()
  else onTables port (insertLinkRevision ⟨eventId,key.1,key.2.1,key.2.2,current.map (·.context),
    previous.isSome,current.isSome⟩)

/- `text.replace(part, "")`. -/
def removePart (part : List Char) : Nat → List Char → List Char
  | _,[] => []
  | skip + 1,_::rest => removePart part skip rest
  | 0,c::rest =>
    if part.isPrefixOf (c::rest) then removePart part (part.length - 1) rest
    else c :: removePart part 0 rest

def isBrace (c : Char) : Bool := c = Char.ofNat 0x7b || c = Char.ofNat 0x7d

/- `UUID(text)`: 32 hexadecimal digits once the prefixes, outer braces and hyphens are gone. -/
def hexDigits (text : String) : List Char :=
  let bare := removePart "uuid:".toList 0 (removePart "urn:".toList 0 text.toList)
  (((bare.dropWhile isBrace).reverse.dropWhile isBrace).reverse).filter (· != '-')

def isHex (c : Char) : Bool := c.isDigit || ('a' ≤ c && c ≤ 'f') || ('A' ≤ c && c ≤ 'F')

def uuid (text : String) : Except ActionError String :=
  let digits := (hexDigits text).map Char.toLower
  if digits.length = 32 ∧ digits.all isHex then
    .ok (String.ofList (digits.take 8 ++ ['-'] ++ (digits.drop 8).take 4 ++ ['-'] ++ (digits.drop 12).take 4 ++
      ['-'] ++ (digits.drop 16).take 4 ++ ['-'] ++ digits.drop 20))
  else .error (.valueError "badly formed hexadecimal UUID string")

def uuids : List String → Except ActionError (List String)
  | [] => .ok []
  | text::rest => do
    let here ← uuid text
    .ok (here :: (← uuids rest))

def eventKey (request : Request) : String :=
  summaryOr request.idempotencyKey (request.runId ++ ":" ++ request.actionId)

def writeHistory (eventId : String) (request : Request) (run : Option Run) (operation : String)
    (before after : Records) (beforeLinks afterLinks : List MemoryLink) : Action Unit := do
  let taskId ← lift (optionally uuid (run.bind (·.taskId)))
  let planId ← lift (optionally uuid (run.bind (·.planId)))
  let now ← observe
  onTables port (insertEvent ⟨eventId,operation,request.actorKind,some "curation",taskId,
    some request.runId,planId,some request.actionId,run.bind (·.policyVersion),"applied",
    request.restoresEventId,some (eventKey request),now.text⟩)
  each (writeRecordRevision port env.toEnv Canonical.spaced eventId before after)
    (sortedSet (before.map (·.1) ++ after.map (·.1)))
  each (writeLinkRevision eventId beforeLinks afterLinks)
    (((beforeLinks ++ afterLinks).map keyOf).dedup.insertionSort (keyLe · ·))

/- `a or b or c` on lists. -/
def firstNonempty (a b c : List String) : List String :=
  if !a.isEmpty then a else if !b.isEmpty then b else c

def executed (request : Request) (p : Prepared) (intentHash : String) (affectedIds : List String)
    (beforeToken afterToken : Option String) (eventId appliedAt : String) (descriptor : Option String) :
    ActionReceipt :=
  ⟨request.runId,request.actionId,p.operation,affectedIds,.appliedUnverified,beforeToken,afterToken,
    some eventId,some intentHash,descriptor,none,some appliedAt,none⟩

/- From the run to the last write before the receipt. -/
def applyAction (request : Request) (p : Prepared) (callback : Callback) : Action ActionReceipt := do
  let run ← runFor request
  lift (checkRun request run)
  each lockTarget p.targets
  let before ← onTables port (read (selectRecords p.targets))
  checkTokens env before p
  checkPreconditions env p request.preconditions
  let beforeLinks ← onTables port (read (linksOf p.targets))
  match ← callback.play (perform env config) with
  | none => raise (.fatal "callback must return MutationResult")
  | some result =>
    if strip result.operation = "" then raise (.fatal "mutation result operation must be non-empty")
    else if strip result.operation ≠ p.operation then
      raise (.fatal "action operation does not match mutation result")
    else do
      failStage config "after_domain_mutation"
      let touched ← inspect (·.touched)
      let afterIds ← lift (canonicalTargetIds env (p.targets ++ touched))
      let after ← onTables port (read (selectRecords afterIds))
      let afterLinks ← onTables port (read (linksOf afterIds))
      let event ← observe
      let beforeToken ← lift (stateToken env before p.targets)
      let afterToken ← lift (stateToken env after afterIds)
      writeRepairIntents port env.toEnv config.embeddingModel before after
      failStage config "repair_intent"
      writeHistory env event.uuid request run p.operation before after beforeLinks afterLinks
      failStage config "history"
      let local' ← lift (localMemoryIds env (firstNonempty result.affectedIds touched p.targets))
      let affected ← lift (uuids local')
      let intentHash ← lift (actionIntentHash env (intentOf request p))
      let now ← observe
      pure (executed request p intentHash affected beforeToken afterToken event.uuid now.text
        (result.verificationDescriptor.or request.verificationDescriptor))

/- The foreign keys to the run and to the event are checked as well. -/
def insertReceipt (receipt : ActionReceipt) : Action Unit := statement fun work =>
  let ledger := work.database.curation
  if ledger.receipts.any (isReceipt receipt.runId receipt.actionId) then
    .error (.integrity (unique "curation_action_receipts.run_id, curation_action_receipts.action_id"))
  else if !ledger.runs.any (·.runId == receipt.runId) ||
      receipt.mutationEventId.any fun eventId => !work.database.memory.events.any (·.id == eventId) then
    .error (.integrity foreignKey)
  else .ok ((),{ work with database := { work.database with
    curation := { ledger with receipts := ledger.receipts ++ [receipt] } } })

def body (request : Request) (p : Prepared) (callback : Callback) : Action (Ending ActionReceipt) := do
  match ← select fun work => getReceipt request.runId request.actionId work.database.curation with
  | some existing =>
    lift (checkReplayIdentity env existing request p)
    pure (.rollback existing)
  | none =>
    let receipt ← applyAction env config request p callback
    insertReceipt receipt
    failStage config "receipt_preparation"
    pure (.commit receipt)

/- The `except` clauses: the errors of the family pass, the others are wrapped. -/
def settled (request : Request) : ActionError → ActionError
  | .operational message =>
    if contains (env.unicode.lower message) "locked" || contains (env.unicode.lower message) "busy" then
      .transient ("SQLite action transaction was busy for " ++ place request)
    else .fatal ("SQLite action transaction failed for " ++ place request)
  | .integrity _ | .valueError _ | .other _ => .fatal ("curation action failed for " ++ place request)
  | error => error

structure Attempt where
  config : Config
  request : Request
  callback : Callback
  oracle : Oracle ActionError

/- The first look, a read of its own. It settles the call where there is a receipt. -/
def fastPath (attempt : Attempt) (p : Prepared) (database : Database) :
    Option (Except ActionError ActionReceipt) :=
  (getReceipt attempt.request.runId attempt.request.actionId database.curation).map fun existing =>
    (checkReplayIdentity env existing attempt.request p).map fun _ => existing

/- The transaction. A failure of the cache that is told afterwards is only logged. -/
def runTransaction (attempt : Attempt) (p : Prepared) (database : Database) :
    Except ActionError ActionReceipt × Database :=
  let after := transaction (body env attempt.config attempt.request p attempt.callback) attempt.oracle
    ⟨database,p.targets,[],[]⟩
  (after.1.mapError (settled env attempt.request),after.2.database)

end McpMemory.Curation
