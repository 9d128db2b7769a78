import McpMemory.History.Requests
import McpMemory.Lib.Interleave

/-! Restores as calls of several steps, each its own transaction or read: the analysis, the
registration of the request, the transaction that restores, and the outcome of the request.
Between any two of them other calls and other writers may do theirs, and a call that is
never advanced again has crashed. -/
namespace McpMemory.History
open Memory Transaction Interleave
open Curation (ActionError ActionReceipt Prepared isReceipt)

/- What the outside world gives to a call. -/
structure Choices where
  requestId : String
  runId : Uuid
  createdAt : String
  verifiedAt : String
  terminalizedAt : String
  config : Curation.Config
  oracle : Oracle ActionError

structure Ask where
  request : RestoreRequest
  choices : Choices

structure Plan where
  ask : Ask
  requestId : String
  runId : Uuid
  inverse : InverseDescription

structure Store where
  database : Database
  requests : Requests

structure Response where
  request : RestoreRequest
  result : RestoreResult

/- A refused call only registers the request and its refusal. -/
inductive Call where
  | asked (form : RestoreForm) (choices : Choices)
  | registering (ask : Ask) (refused : Option RestoreResult)
  | reading (ask : Ask) (refused : Option RestoreResult) (inserted : Bool)
  | planning (ask : Ask) (requestId : String)
  | owning (plan : Plan)
  | creating (plan : Plan)
  | executing (plan : Plan)
  | transacting (plan : Plan) (p : Prepared)
  | verifying (plan : Plan) (receipt : ActionReceipt)
  | finishing (ask : Ask) (requestId : String) (result : RestoreResult)
  | writing (effect : Database → Database)
  | answered (answer : Except RestoreError RestoreResult)
  | written

inductive Op where
  | restore (form : RestoreForm) (choices : Choices)
  | write (effect : Database → Database)

def enter : Op → Call
  | .restore form choices => .asked form choices
  | .write effect => .writing effect

abbrev Step := Call × Store × List Response

def next (call : Call) (store : Store) : Step := (call,store,[])

def fail (error : RestoreError) (store : Store) : Step := (.answered (.error error),store,[])

def respond (ask : Ask) (result : RestoreResult) (store : Store) : Step :=
  (.answered (.ok result),store,[⟨ask.request,result⟩])

variable (env : Env)

def attemptOf (plan : Plan) : Curation.Attempt :=
  ⟨plan.ask.choices.config,restoreAction env plan.ask.request plan.runId plan.inverse,restoreInverse plan.inverse,
    plan.ask.choices.oracle⟩

def stepAsked (form : RestoreForm) (choices : Choices) (store : Store) : Step :=
  match parseRequest form with
  | .error error => fail error store
  | .ok request => match analyze env.toEnv store.database request.targetEventId with
    | .error error => fail error store
    | .ok analysis => next (.registering ⟨request,choices⟩ (verdict request analysis)) store

def stepRegistering (ask : Ask) (refused : Option RestoreResult) (store : Store) : Step :=
  match insertRequest (registered ask.choices.requestId ask.choices.createdAt ask.request) store.database.memory
      store.requests with
  | .ok requests => next (.reading ask refused true) { store with requests }
  | .error _ => next (.reading ask refused false) store

def readBack (ask : Ask) (inserted : Bool) (requests : Requests) : Except RestoreError RestoreResult :=
  if inserted then readRequest ask.choices.requestId requests else replayRequest ask.request requests

/- Whether the registration already answers the call: a refused one takes `already_applied` for
an answer, the executor only with an event. -/
def settles (refused : Option RestoreResult) (result : RestoreResult) : Bool :=
  match refused with
  | some _ => result.status == .alreadyApplied || result.eventId.isSome
  | none => result.status != .applied && (result.status != .alreadyApplied || result.eventId.isSome)

def stepReading (ask : Ask) (refused : Option RestoreResult) (inserted : Bool) (store : Store) : Step :=
  match readBack ask inserted store.requests with
  | .error error => fail error store
  | .ok result =>
    if settles refused result then respond ask result store
    else
      let requestId := result.requestId.getD ask.choices.requestId
      match refused with
      | some refusal => next (.finishing ask requestId refusal) store
      | none => next (.planning ask requestId) store

def planFor (ask : Ask) (requestId : String) (event : MutationEvent) (t : Tables) :
    Except String (Except RestoreResult Plan) := do
  let records ← getRecordRevisions none event.id t
  let links ← getLinkRevisions none event.id t
  .ok ((refusal ask.request (buildInverse env.toEnv event records links)).map fun inverse =>
    ⟨ask,requestId,restoreRunId event ask.choices.runId,inverse⟩)

def stepPlanning (ask : Ask) (requestId : String) (store : Store) : Step :=
  match getEvent ask.request.targetEventId store.database.memory with
  | .error error => fail (.unreadable error) store
  | .ok none => next (.finishing ask requestId (conflictResult ask.request .malformedHistory
      "target mutation event was not found" none)) store
  | .ok (some event) => match planFor env ask requestId event store.database.memory with
    | .error error => fail (.unreadable error) store
    | .ok (.error result) => next (.finishing ask requestId result) store
    | .ok (.ok plan) => next (.owning plan) store

def stepOwning (plan : Plan) (store : Store) : Step :=
  match Curation.selectRun plan.runId.text store.database.curation with
  | some _ => next (.executing plan) store
  | none => next (.creating plan) store

def restoreRun (plan : Plan) : Curation.Run :=
  ⟨plan.runId.text,none,"restore:" ++ plan.ask.request.targetEventId.text,plan.ask.request.idempotencyKey,some "1",none,
    .executing,plan.ask.choices.createdAt⟩

def stepCreating (plan : Plan) (store : Store) : Step :=
  let ledger := store.database.curation
  if ledger.runs.any (·.runId == plan.runId.text) then fail (.integrity (unique "curation_runs.run_id")) store
  else next (.executing plan) { store with database := { store.database with
    curation := { ledger with runs := ledger.runs ++ [restoreRun plan] } } }

/- Only a stale state is told to the request; any other error leaves it as it was registered. -/
def settle (plan : Plan) (answer : Except ActionError ActionReceipt) (store : Store) : Step :=
  match answer with
  | .ok receipt => next (.verifying plan receipt) store
  | .error (.stale message) => next (.finishing plan.ask plan.requestId
      (conflictResult plan.ask.request .staleState message none)) store
  | .error error => fail (.action error) store

def stepExecuting (plan : Plan) (store : Store) : Step :=
  match Curation.prepare env.actions (attemptOf env plan).request with
  | .error error => settle plan (.error error) store
  | .ok p => match Curation.fastPath env.actions (attemptOf env plan) p store.database with
    | some answer => settle plan answer store
    | none => next (.transacting plan p) store

def stepTransacting (plan : Plan) (p : Prepared) (store : Store) : Step :=
  let after := Curation.runTransaction env.actions (attemptOf env plan) p store.database
  settle plan after.1 { store with database := after.2 }

def isUnverified (request : Curation.Request) (receipt : ActionReceipt) : Bool :=
  isReceipt request.runId request.actionId receipt && receipt.status == .appliedUnverified

def stepVerifying (plan : Plan) (receipt : ActionReceipt) (store : Store) : Step :=
  let ledger := store.database.curation
  let verified := { receipt with status := .verified, verifiedAt := some plan.ask.choices.verifiedAt }
  next (.finishing plan.ask plan.requestId
    ⟨.applied,some plan.requestId,receipt.mutationEventId,plan.ask.request.targetEventId,none,[]⟩)
    { store with database := { store.database with curation := { ledger with
      receipts := Table.update (isUnverified (attemptOf env plan).request) (fun _ => verified) ledger.receipts } } }

def stepFinishing (ask : Ask) (requestId : String) (result : RestoreResult) (store : Store) : Step :=
  match terminalizeRequest requestId result ask.choices.terminalizedAt store.database.memory store.requests with
  | (.error error,requests) => fail error { store with requests }
  | (.ok stored,requests) => respond ask stored { store with requests }

def step (call : Call) (store : Store) : Step :=
  match call with
  | .asked form choices => stepAsked env form choices store
  | .registering ask refused => stepRegistering ask refused store
  | .reading ask refused inserted => stepReading ask refused inserted store
  | .planning ask requestId => stepPlanning env ask requestId store
  | .owning plan => stepOwning plan store
  | .creating plan => stepCreating plan store
  | .executing plan => stepExecuting env plan store
  | .transacting plan p => stepTransacting env plan p store
  | .verifying plan receipt => stepVerifying env plan receipt store
  | .finishing ask requestId result => stepFinishing ask requestId result store
  | .writing effect => next .written { store with database := effect store.database }
  | .answered _ | .written => next call store

def restores : Machine Op Call Store Response := ⟨enter,step env⟩

end McpMemory.History
