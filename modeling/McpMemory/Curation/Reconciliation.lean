import McpMemory.Curation.Verifier
import McpMemory.Tasks.Calls

/-! `core/curation_reconciliation.py` beside what it meets in the same database: the queue of
tasks, the handlers of curator tasks with their runs, actions in their transactions, restores,
and whatever else writes memories. A pass takes one read or one update at a time. -/
namespace McpMemory.Curation.Reconciliation
open Interleave Memory Store Transaction

/- `descriptorOf` reads a stored descriptor, `uuid5` is that of the URL namespace. -/
structure RecoveryEnv where
  actions : Curation.Env
  descriptorOf : String → Option VerificationDescriptor
  timestamp : String → Int
  uuid5 : String → String

variable (env : RecoveryEnv)

/- The runs of `database.curation` are those of `runs`, as far as an action looks at them. -/
structure Curating where
  runs : List CurationRun
  receipts : List ActionReceipt
  tasks : Tasks.Tables
  database : Database

def Curating.ledger (c : Curating) : CurationStore := ⟨c.runs,c.receipts,c.database.memory.events.map (·.id)⟩

def Curating.keep (c : Curating) (ledger : CurationStore) : Curating := { c with
  runs := ledger.runs
  receipts := ledger.receipts }

def actionRun (run : CurationRun) : Run :=
  ⟨run.runId,run.taskId,run.frontierKey,run.contextFingerprint,some run.policyVersion,run.planId,run.state,
    run.createdAt.getD ""⟩

/- The row that an action inserts for a restore, with the defaults of the other columns. -/
def insertedRun (run : Run) : CurationRun :=
  ⟨run.runId,run.taskId,none,none,run.frontierKey,none,run.contextFingerprint,none,none,none,run.policyVersion.getD "1",
    1,run.state,none,run.planId,[],none,"{}","{}",some run.createdAt,none⟩

/- The transaction of `execute_action`, by a handler or by a restore. -/
def execute (attempt : Attempt) (c : Curating) : Curating :=
  match prepare env.actions attempt.request with
  | .error _ => c
  | .ok p =>
    let after := (runTransaction env.actions attempt p
      { c.database with curation := ⟨c.runs.map actionRun,c.receipts⟩ }).2
    { c with
      runs := match after.curation.runs.find? fun run => (getRun run.runId c.ledger).isNone with
        | some run => c.runs ++ [insertedRun run]
        | none => c.runs
      receipts := after.curation.receipts
      database := after }

inductive Disposition where
  | proceed
  | defer
  | block
  deriving DecidableEq, Repr

structure Decision where
  disposition : Disposition
  reasonCode : String
  runId : String
  workItemId : Option String
  verifiedReceiptCount : Nat
  run : Option CurationRun
  deriving DecidableEq, Repr

/- The clock of a pass in seconds, and as the text it is stored as. -/
structure Clock where
  now : Int
  stamp : String

def runLimit : Nat := 200

def staleAfterSeconds : Int := 300

/- `ORDER BY created_at DESC, run_id DESC` -/
def listRuns (limit : Nat) (ledger : CurationStore) : List CurationRun :=
  (ledger.runs.insertionSort fun a b => b.createdAt.getD "" < a.createdAt.getD "" ∨
    b.createdAt = a.createdAt ∧ b.runId ≤ a.runId).take (min limit 1000)

/- The run that a pass looks at, those that follow it, and how many receipts it has verified. -/
structure Turn where
  run : CurationRun
  todo : List CurationRun
  verified : Nat

inductive Finish where
  | finalized (failed : Bool)
  | emptied (outcome : RunOutcome) (reasonCode : String)
  | failed (reasonCode : String)

def Finish.outcome : Finish → RunOutcome
  | .finalized unverified => if unverified then .verificationFailed else .applied
  | .emptied outcome _ => outcome
  | .failed _ => .verificationFailed

inductive Pass where
  | listing
  | receipts (turn : Turn)
  | checking (turn : Turn) (receipt : ActionReceipt) (rest : List ActionReceipt)
  | reading (turn : Turn) (current : ActionReceipt) (rest : List ActionReceipt) (script : Verification)
  | settling (turn : Turn) (current : ActionReceipt) (rest : List ActionReceipt) (call : StoreCall)
  | latest (turn : Turn) (current : ActionReceipt) (rest : List ActionReceipt)
  | finalReceipts (turn : Turn)
  | asking (turn : Turn)
  | ending (turn : Turn) (finish : Finish) (call : StoreCall)
  | missing (turn : Turn) (finish : Finish)
  | finished

inductive Emitted where
  | queue (event : Tasks.Emitted)
  | judged (receipt : ActionReceipt) (verdict : Verdict)
  | restored (runId actionId : String)
  | ended (run : CurationRun) (outcome : RunOutcome) (before : Curating)
  | decided (decision : Decision)

def nextRun : List CurationRun → Pass
  | [] => .finished
  | run::rest => if run.state = .terminal then nextRun rest else .receipts ⟨run,rest,0⟩

section
variable (clock : Clock)

def terminalize (turn : Turn) (finish : Finish) : Pass :=
  .ending turn finish (.started (.terminalizeRun turn.run.runId turn.run.state finish.outcome clock.stamp))

/- `_default_action_resolver` -/
def resolvable (receipt : ActionReceipt) : Bool :=
  receipt.operation == "normalize_memory" && receipt.affectedIds.length == 1

def nextReceipt (turn : Turn) : List ActionReceipt → Pass
  | [] => .finalReceipts turn
  | receipt::rest =>
    if receipt.verificationDescriptor.isSome || resolvable receipt then .checking turn receipt rest
    else terminalize clock turn (.failed "action_unavailable")

def verifiedReceipt (turn : Turn) (rest : List ActionReceipt) (result : ActionReceipt) : Pass :=
  nextReceipt clock (if result.status = .verified then { turn with verified := turn.verified + 1 } else turn) rest

/- A stored descriptor that cannot be read fails the whole query. -/
def hydrates (receipt : ActionReceipt) : Bool := receipt.verificationDescriptor.all fun text => (env.descriptorOf text).isSome

def decision (turn : Turn) (disposition : Disposition) (reasonCode : String) (run : Option CurationRun) : Emitted :=
  .decided ⟨disposition,reasonCode,turn.run.runId,turn.run.workItemId,turn.verified,run⟩

/- `_finalize_if_possible` -/
def finalizeIfPossible (turn : Turn) (receipts : List ActionReceipt) : Pass × List Emitted :=
  if receipts.isEmpty then (.asking turn,[])
  else if receipts.any (·.status == .appliedUnverified) then
    (nextRun turn.todo,[decision { turn with verified := 0 } .defer "receipt_unresolved" none])
  else (terminalize clock turn (.finalized (receipts.any (·.status != .verified))),[])

def isStale (createdAt : Option String) : Bool :=
  createdAt.any fun created => staleAfterSeconds ≤ max (clock.now - env.timestamp created) 0

/- `_reconcile_empty_run`; a run without a task is not looked up. -/
def reconcileEmptyRun (turn : Turn) (tasks : Tasks.Tables) : Pass :=
  match turn.run.taskId.bind (Tasks.findTask tasks) with
  | some task => match task.status with
    | .pending | .running => nextRun turn.todo
    | .cancelled => terminalize clock turn (.emptied .cancelled "task_cancelled")
    | .failed | .completed => terminalize clock turn (.emptied .providerFailed "task_finished_without_run")
  | none =>
    if isStale env clock turn.run.createdAt then
      terminalize clock turn (.emptied .providerFailed "stale_task_missing")
    else nextRun turn.todo

/- What a pass says of a run that is terminal, by it or by another. -/
def concluded (turn : Turn) (finish : Finish) (terminal : CurationRun) : Emitted :=
  let turn := match finish with
    | .emptied .. => { turn with verified := 0 }
    | _ => turn
  let other := match finish with
    | .failed _ => terminal.outcome != some RunOutcome.verificationFailed
    | _ => terminal.outcome.isSome && terminal.outcome != some finish.outcome
  if other then decision turn .proceed "run_already_terminal" (some terminal)
  else match finish with
    | .finalized failed =>
      if failed || terminal.outcome == some RunOutcome.verificationFailed then
        decision turn .block "verification_failed" (some terminal)
      else decision turn .proceed "run_finalized" (some terminal)
    | .emptied _ reasonCode => decision turn .proceed reasonCode (some terminal)
    | .failed reasonCode => decision turn .block reasonCode (some terminal)

/- `get_receipt` and the checks before anything of the graph is read. -/
def check (turn : Turn) (receipt : ActionReceipt) (rest : List ActionReceipt) (c : Curating) : Pass :=
  let failing := terminalize clock turn (.failed "verification_failed")
  match Store.getReceipt receipt.runId receipt.actionId c.ledger with
  | none => failing
  | some current =>
    if !hydrates env current then failing
    else if current.status ≠ .appliedUnverified then verifiedReceipt clock turn rest current
    else match receipt.verificationDescriptor.bind env.descriptorOf with
      | some descriptor =>
        if current.verificationDescriptor.bind env.descriptorOf ≠ some descriptor then
          .reading turn current rest (.done (some "descriptor_mismatch"))
        else .reading turn current rest (verifyDescriptor env.actions current descriptor)
      | none =>
        if current.operation ≠ receipt.operation then failing
        else .reading turn current rest (verifyRecordAction env.actions current receipt.affectedIds none)

def settledReceipt (current : ActionReceipt) (verdict : Verdict) : ActionReceipt := { current with
  status := if verdict.isNone then .verified else .verificationFailed
  errorCode := verdict
  verifiedAt := some clock.stamp }

def passStep (pass : Pass) (c : Curating) : Pass × Curating × List Emitted :=
  match pass with
  | .listing => (nextRun (listRuns runLimit c.ledger),c,[])
  | .receipts turn =>
    let receipts := listReceipts turn.run.runId 100 c.ledger
    if !receipts.all (hydrates env) then (terminalize clock turn (.failed "descriptor_hydration_failed"),c,[])
    else
      let pending := receipts.filter (·.status == .appliedUnverified)
      if pending.isEmpty then
        let after := finalizeIfPossible clock turn receipts
        (after.1,c,after.2)
      else (nextReceipt clock turn pending,c,[])
  | .checking turn receipt rest => (check env clock turn receipt rest c,c,[])
  | .reading turn current rest script => match script with
    | .call memoryId next => (.reading turn current rest (next (peekMemory c.database.memory memoryId)),c,[])
    | .fail _ => (terminalize clock turn (.failed "verification_failed"),c,[])
    | .done verdict =>
      (.settling turn current rest (.started (.transitionReceipt current.runId current.actionId .appliedUnverified
        (settledReceipt clock current verdict))),c,[.judged current verdict])
  | .settling turn current rest call =>
    let after := storeStep call c.ledger
    (match after.1 with
      | .answered _ (.receipt (some result)) => verifiedReceipt clock turn rest result
      | .answered _ (.receipt none) => .latest turn current rest
      | .answered _ _ => terminalize clock turn (.failed "verification_failed")
      | call => .settling turn current rest call,c.keep after.2,[])
  | .latest turn current rest => match Store.getReceipt current.runId current.actionId c.ledger with
    | none => (terminalize clock turn (.failed "verification_failed"),c,[])
    | some result => (verifiedReceipt clock turn rest result,c,[])
  | .finalReceipts turn =>
    let receipts := listReceipts turn.run.runId 100 c.ledger
    if !receipts.all (hydrates env) then (terminalize clock turn (.failed "descriptor_hydration_failed"),c,[])
    else
      let after := finalizeIfPossible clock turn receipts
      (after.1,c,after.2)
  | .asking turn => (reconcileEmptyRun env clock turn c.tasks,c,[])
  | .ending turn finish call =>
    let after := storeStep call c.ledger
    let won : List Emitted := match call,after.1 with
      | .started _,.rereadingRun true _ => [.ended turn.run finish.outcome c]
      | _,_ => []
    match after.1,finish with
    | .answered _ (.run (some terminal)),_ => (nextRun turn.todo,c.keep after.2,[concluded turn finish terminal])
    | .answered _ (.run none),.failed reasonCode =>
      (nextRun turn.todo,c.keep after.2,[decision turn .block reasonCode none])
    | .answered _ _,_ => (.missing turn finish,c.keep after.2,[])
    | call,_ => (.ending turn finish call,c.keep after.2,won)
  | .missing turn finish => match getRun turn.run.runId c.ledger with
    | none => (nextRun turn.todo,c,[decision { turn with verified := 0 } .block "run_missing" none])
    | some terminal => (nextRun turn.todo,c,[concluded turn finish terminal])
  | .finished => (.finished,c,[])

end

/- What the handler of a curator task takes from its context packet. -/
structure Packet where
  packetId : Option String
  policyVersion : String
  disclosureAudit : String
  strategy : String

/- `_direct_quality_run` -/
def directRun (packet : Packet) (task : Tasks.TaskRecord) : CurationRun where
  runId := env.uuid5 ("mcp-memory:direct-quality-run:" ++ task.id ++ ":" ++ toString task.executionEpoch)
  taskId := (uuid task.id).toOption
  executionEpoch := some task.executionEpoch
  workItemId := none
  frontierKey := "direct:" ++ task.id
  selectorStrategy := some packet.strategy
  contextFingerprint := match packet.packetId with
    | some packetId => if packetId = "" then "direct:" ++ task.id ++ ":" ++ toString task.executionEpoch else packetId
    | none => "direct:" ++ task.id ++ ":" ++ toString task.executionEpoch
  plannerId := none
  providerId := none
  modelId := none
  policyVersion := packet.policyVersion
  schemaVersion := 1
  state := .created
  outcome := none
  planId := none
  rejectionCodes := []
  retryReason := none
  budgetUsage := "{}"
  disclosureAudit := packet.disclosureAudit
  createdAt := none
  terminalizedAt := none

def stamped (run : CurationRun) (stamp : String) : CurationRun := { run with createdAt := run.createdAt <|> some stamp }

/- The primary key; the store sets the time. -/
def createRun (run : CurationRun) (stamp : String) (ledger : CurationStore) : Option CurationStore :=
  if (getRun run.runId ledger).isSome then none
  else some { ledger with runs := ledger.runs ++ [stamped run stamp] }

/- The handler of a curator task, from the claim of the task. The actions of its agent are
transactions of their own. -/
inductive Handler where
  | claiming (now : Tasks.Seconds) (workspace : Tasks.WorkspaceFilter) (packet : Packet)
  | looking (run : CurationRun)
  | creating (run : CurationRun)
  | again (run : CurationRun)
  | moving (run : CurationRun) (call : StoreCall)
  | working (run : CurationRun)
  | ending (call : StoreCall)
  | finished

/- `_prepare_direct_run`, once the row is there. -/
def prepareRun (run : CurationRun) : Handler :=
  match run.state with
  | .created => .moving run (.started (.transitionRun run.runId .created { run with state := .planning }))
  | .planning => .moving run (.started (.transitionRun run.runId .planning { run with state := .executing }))
  | .executing | .verifying | .terminal => .working run

def handlerStep (stamp : String) (handler : Handler) (c : Curating) : Handler × Curating × List Emitted :=
  match handler with
  | .claiming now workspace packet =>
    let after := Tasks.step (.claimNext now workspace) c.tasks
    (match after.1 with
      | .answered (.ok (.claimed (some task))) =>
        if task.taskName = Tasks.curator then .looking (directRun env packet task) else .finished
      | _ => .finished,{ c with tasks := after.2.1 },after.2.2.map .queue)
  | .looking run => match getRun run.runId c.ledger with
    | some existing => (prepareRun existing,c,[])
    | none => (.creating run,c,[])
  | .creating run => match createRun run stamp c.ledger with
    | some after => (prepareRun (stamped run stamp),c.keep after,[])
    | none => (.again run,c,[])
  | .again run => match getRun run.runId c.ledger with
    | some existing => (prepareRun existing,c,[])
    | none => (.finished,c,[])
  | .moving run call =>
    let after := storeStep call c.ledger
    (match after.1 with
      | .answered _ (.run (some moved)) => if run.state = .created ∧ moved.state = .planning then prepareRun moved else .working moved
      | .answered _ _ => .finished
      | call => .moving run call,c.keep after.2,[])
  | .working run =>
    (if run.state = .terminal then .finished
      else .ending (.started (.terminalizeRun run.runId run.state .applied stamp)),c,[])
  | .ending call =>
    let after := storeStep call c.ledger
    (match after.1 with
      | .answered .. => .finished
      | call => .ending call,c.keep after.2,[])
  | .finished => (.finished,c,[])

/- `create_run` of a restore, for a run that has no task. -/
def restoreRun (runId eventId idempotencyKey : String) : CurationRun :=
  ⟨runId,none,none,none,"restore:" ++ eventId,none,idempotencyKey,none,none,none,"1",1,.executing,none,none,[],none,
    "{}","{}",none,none⟩

inductive Op where
  | reconcile (clock : Clock)
  | queue (op : Tasks.Op)
  | direct (now : Tasks.Seconds) (workspace : Tasks.WorkspaceFilter) (packet : Packet) (stamp : String)
  | execute (attempt : Attempt)
  | createRun (runId eventId idempotencyKey stamp : String)
  | settle (runId actionId : String) (receipt : ActionReceipt)
  | write (change : Tables → Tables)

inductive Call where
  | pass (clock : Clock) (pass : Pass)
  | queue (call : Tasks.Call)
  | handler (stamp : String) (handler : Handler)
  | execute (attempt : Attempt)
  | createRun (run : CurationRun) (stamp : String)
  | settle (call : StoreCall)
  | write (change : Tables → Tables)
  | done

def enter : Op → Call
  | .reconcile clock => .pass clock .listing
  | .queue op => .queue (Tasks.enter op)
  | .direct now workspace packet stamp => .handler stamp (.claiming now workspace packet)
  | .execute attempt => .execute attempt
  | .createRun runId eventId idempotencyKey stamp => .createRun (restoreRun runId eventId idempotencyKey) stamp
  | .settle runId actionId receipt => .settle (.started (.transitionReceipt runId actionId .appliedUnverified receipt))
  | .write change => .write change

def step (call : Call) (c : Curating) : Call × Curating × List Emitted :=
  match call with
  | .pass clock pass =>
    let after := passStep env clock pass c
    (.pass clock after.1,after.2)
  | .queue call =>
    let after := Tasks.step call c.tasks
    (.queue after.1,{ c with tasks := after.2.1 },after.2.2.map .queue)
  | .handler stamp handler =>
    let after := handlerStep env stamp handler c
    (.handler stamp after.1,after.2)
  | .execute attempt => (.done,execute env attempt c,[])
  | .createRun run stamp => (.done,((createRun run stamp c.ledger).map c.keep).getD c,[])
  | .settle call =>
    let after := storeStep call c.ledger
    (.settle after.1,c.keep after.2,match call with
      | .started (.transitionReceipt runId actionId _ _) => [.restored runId actionId]
      | _ => [])
  | .write change => (.done,{ c with database := { c.database with memory := change c.database.memory } },[])
  | .done => (.done,c,[])

def recovery : Machine Op Call Curating Emitted := ⟨enter,step env⟩

/- The only step that says that a run has ended is the one of a pass that writes it. -/

variable {env} {c : Curating} {run : CurationRun} {outcome : RunOutcome} {before : Curating}

theorem finalizeQuiet {clock : Clock} {turn : Turn} {receipts} :
    .ended run outcome before ∉ (finalizeIfPossible clock turn receipts).2 := by
  unfold finalizeIfPossible
  split
  · exact List.not_mem_nil
  · split <;> simp [decision]

theorem concludedDecides {turn : Turn} {finish terminal} : ∃ made, concluded turn finish terminal = .decided made := by
  cases finish with
  | finalized unverified =>
    simp only [concluded]
    split
    · exact ⟨_,rfl⟩
    · split <;> exact ⟨_,rfl⟩
  | emptied outcome reasonCode =>
    simp only [concluded]
    split <;> exact ⟨_,rfl⟩
  | failed reasonCode =>
    simp only [concluded]
    split <;> exact ⟨_,rfl⟩

theorem concludedQuiet {turn : Turn} {finish terminal} :
    .ended run outcome before ∉ [concluded turn finish terminal] := by
  obtain ⟨made,same⟩ := @concludedDecides turn finish terminal
  simp [same]

theorem passEnded {clock : Clock} {pass : Pass} (member : .ended run outcome before ∈ (passStep env clock pass c).2.2) :
    before = c ∧ ∃ turn finish op, pass = .ending turn finish (.started op) ∧ turn.run = run ∧ finish.outcome = outcome := by
  cases pass with
  | receipts turn =>
    unfold passStep at member
    dsimp only at member
    split at member
    · cases member
    · split at member
      · exact absurd member finalizeQuiet
      · cases member
  | finalReceipts turn =>
    unfold passStep at member
    dsimp only at member
    split at member
    · cases member
    · exact absurd member finalizeQuiet
  | reading turn current rest script =>
    cases script with
    | call memoryId next => cases member
    | fail error => cases member
    | done verdict => cases List.mem_singleton.mp member
  | ending turn finish call =>
    unfold passStep at member
    dsimp only at member
    split at member
    · exact absurd member concludedQuiet
    · cases List.mem_singleton.mp member
    · cases member
    · split at member
      · cases List.mem_singleton.mp member
        exact ⟨rfl,_,_,_,rfl,rfl,rfl⟩
      · cases member
  | latest turn current rest =>
    dsimp only [passStep] at member
    split at member <;> cases member
  | missing turn finish =>
    dsimp only [passStep] at member
    split at member
    · cases List.mem_singleton.mp member
    · exact absurd member concludedQuiet
  | listing | checking | settling | asking | finished => cases member

theorem handlerEnded {stamp : String} {handler : Handler} :
    .ended run outcome before ∉ (handlerStep env stamp handler c).2.2 := by
  intro member
  cases handler with
  | claiming now workspace packet =>
    obtain ⟨event,_,same⟩ := List.mem_map.mp member
    cases same
  | looking | again | creating =>
    dsimp only [handlerStep] at member
    split at member <;> cases member
  | moving | working | ending | finished => cases member

theorem endedStep {call : Call} (member : .ended run outcome before ∈ (step env call c).2.2) : before = c ∧
    ∃ clock turn finish op, call = .pass clock (.ending turn finish (.started op)) ∧ turn.run = run ∧
      finish.outcome = outcome := by
  cases call with
  | pass clock pass =>
    obtain ⟨same,turn,finish,op,rfl,run,outcome⟩ := passEnded member
    exact ⟨same,clock,turn,finish,op,rfl,run,outcome⟩
  | queue call =>
    obtain ⟨event,_,same⟩ := List.mem_map.mp member
    cases same
  | handler stamp handler => exact absurd member handlerEnded
  | settle call =>
    dsimp only [step] at member
    split at member
    · cases List.mem_singleton.mp member
    · cases member
  | execute | createRun | write | done => cases member

end McpMemory.Curation.Reconciliation
