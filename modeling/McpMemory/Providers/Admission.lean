import McpMemory.Lib.Interleave

/-! The admission of provider calls: `provider_admission.py`, the calls of `instrumented.py` and the
usage that `provider_usage_store.py` counts. Each statement is a step, and `time.time()` the clock of
the step that reads it. What a provider does within a call, its own retries too, is one step. -/
namespace McpMemory.Providers
open Interleave

inductive CallStatus where
  | success
  | error
  | timeout
  | parseError
  | cancelled
  deriving DecidableEq, Repr

/- No provider reports the status of a call that was never made. -/
inductive UsageStatus where
  | ended (status : CallStatus)
  | skipped
  deriving DecidableEq, Repr

/- A row of `provider_usage`. -/
structure UsageRow where
  workspaceId : Option String
  providerKey : String
  modelName : String
  status : UsageStatus
  createdAt : Int
  deriving DecidableEq, Repr

/- A row of `provider_admission_state`, one for a provider and model. -/
structure AdmissionState where
  providerKey : String
  modelName : String
  reasonCode : String
  reasonCategory : String
  activeUntil : Int
  deriving DecidableEq, Repr

structure Usage where
  now : Int
  rows : List UsageRow
  states : List AdmissionState
  deriving DecidableEq, Repr

/- A provider of a profile as `_build_provider_registry` sets it up, with the workspace of its usage
repository. -/
structure Provider where
  workspaceId : Option String
  budgetKey : String
  agentic : Bool
  modelName : String
  dailyCallLimit : Option Nat
  modelBurstCallLimit : Option Nat
  modelBurstWindowSeconds : Option Int
  deriving DecidableEq, Repr

def agenticKey (budgetKey : String) : String := budgetKey ++ ":agentic"

def Provider.providerKey (p : Provider) : String := if p.agentic then agenticKey p.budgetKey else p.budgetKey

structure ProviderAdmissionDecision where
  reason : String
  reasonCategory : String
  callsLastDay : Option Nat
  dailyCallLimit : Option Nat
  callsInWindow : Option Nat
  burstCallLimit : Option Nat
  burstWindowSeconds : Option Int
  deriving DecidableEq, Repr

def daySeconds : Int := 86400

section
variable (p : Provider) (u : Usage)

def workspaceRows (row : UsageRow) : Bool := p.workspaceId.isNone || row.workspaceId == p.workspaceId

def countRecentCalls : Nat := u.rows.countP fun row =>
  [p.budgetKey,agenticKey p.budgetKey].contains row.providerKey && decide (u.now - daySeconds ≤ row.createdAt) &&
    row.status != .skipped && workspaceRows p row

def countRecentModelCalls (windowSeconds : Int) : Nat := u.rows.countP fun row =>
  row.modelName == p.modelName && decide (u.now - windowSeconds ≤ row.createdAt) && row.status != .skipped && workspaceRows p row

def getActiveAdmissionState : Option AdmissionState := u.states.find? fun state =>
  decide (u.now < state.activeUntil) && state.providerKey == p.providerKey && state.modelName == p.modelName

/- The three checks of `evaluate_provider_admission`, each the reason for a refusal. -/

def activeRefusal : Option ProviderAdmissionDecision := (getActiveAdmissionState p u).map fun state =>
  ⟨state.reasonCode,state.reasonCategory,none,none,none,none,none⟩

def dailyRefusal : Option ProviderAdmissionDecision := match p.dailyCallLimit with
  | none => none
  | some dailyCallLimit =>
    if dailyCallLimit ≤ countRecentCalls p u then
      some ⟨"profile_daily_budget_exceeded","admission",some (countRecentCalls p u),some dailyCallLimit,none,none,none⟩
    else none

def burstRefusal : Option ProviderAdmissionDecision := match p.modelBurstCallLimit,p.modelBurstWindowSeconds with
  | some burstCallLimit,some burstWindowSeconds =>
    if burstCallLimit ≤ countRecentModelCalls p u burstWindowSeconds then
      some ⟨"model_burst_limit_exceeded","admission",none,none,some (countRecentModelCalls p u burstWindowSeconds),
        some burstCallLimit,some burstWindowSeconds⟩
    else none
  | _,_ => none

end

structure Backoff where
  reasonCode : String
  retryDelaySeconds : Int
  deriving DecidableEq, Repr

/- How a call of the provider ends; a failure may ask for a backoff. -/
inductive Outcome where
  | answered (status : CallStatus)
  | failed (status : CallStatus) (backoff : Option Backoff)
  | cancelled
  deriving DecidableEq, Repr

def Outcome.status : Outcome → CallStatus
  | .answered status | .failed status _ => status
  | .cancelled => .cancelled

/- The stages of a call. The daily count is behind a call from `bursting` on. -/
inductive Stage where
  | starting
  | stating (startedAt : Int)
  | counting (startedAt : Int)
  | bursting (startedAt : Int)
  | calling
  | clearing (madeAt : Int)
  | completing (madeAt : Int)
  | recording (madeAt completedAt : Int)
  | backing (reasonCode : String) (activeUntil : Int)
  | skipping (startedAt : Int) (decision : ProviderAdmissionDecision)
  | finished
  deriving DecidableEq, Repr

inductive Emitted where
  | made (budgetKey : String) (time : Int)
  | refused (decision : ProviderAdmissionDecision)
  deriving DecidableEq, Repr

section
variable (p : Provider) (outcome : Outcome)

/- `record_call` -/
def recordCall (status : UsageStatus) (createdAt : Int) (u : Usage) : Usage :=
  { u with rows := u.rows ++ [⟨p.workspaceId,p.providerKey,p.modelName,status,createdAt⟩] }

def clearAdmissionState (u : Usage) : Usage :=
  { u with states := u.states.filter fun state => !(state.providerKey == p.providerKey && state.modelName == p.modelName) }

def upsertAdmissionState (reasonCode : String) (activeUntil : Int) (u : Usage) : Usage :=
  { u with states := (clearAdmissionState p u).states ++ [⟨p.providerKey,p.modelName,reasonCode,"upstream",activeUntil⟩] }

/- `ask_json` and `run_agent` -/
def callStep (stage : Stage) (u : Usage) : Stage × Usage × List Emitted := match stage with
  | .starting => (.stating u.now,u,[])
  | .stating startedAt => match activeRefusal p u with
    | some decision => (.skipping startedAt decision,u,[])
    | none => (.counting startedAt,u,[])
  | .counting startedAt => match dailyRefusal p u with
    | some decision => (.skipping startedAt decision,u,[])
    | none => (.bursting startedAt,u,[])
  | .bursting startedAt => match burstRefusal p u with
    | some decision => (.skipping startedAt decision,u,[])
    | none => (.calling,u,[])
  | .calling => (match outcome with
    | .answered _ => .clearing u.now
    | _ => .completing u.now,u,[.made p.budgetKey u.now])
  | .clearing madeAt => (.completing madeAt,clearAdmissionState p u,[])
  | .completing madeAt => (.recording madeAt u.now,u,[])
  | .recording _ completedAt => (match outcome with
    | .failed _ (some backoff) =>
      if 0 < backoff.retryDelaySeconds then .backing backoff.reasonCode (completedAt + backoff.retryDelaySeconds) else .finished
    | _ => .finished,recordCall p (.ended outcome.status) completedAt u,[])
  | .backing reasonCode activeUntil => (.finished,upsertAdmissionState p reasonCode activeUntil u,[])
  | .skipping startedAt decision => (.finished,recordCall p .skipped startedAt u,[.refused decision])
  | .finished => (.finished,u,[])

end

inductive Op where
  | call (p : Provider) (outcome : Outcome)
  | tick (seconds : Nat)
  deriving DecidableEq, Repr

inductive Call where
  | call (p : Provider) (outcome : Outcome) (stage : Stage)
  | tick (seconds : Nat)
  | finished
  deriving DecidableEq, Repr

def enter : Op → Call
  | .call p outcome => .call p outcome .starting
  | .tick seconds => .tick seconds

def step : Call → Usage → Call × Usage × List Emitted
  | .call p outcome stage,u =>
    let after := callStep p outcome stage u
    (.call p outcome after.1,after.2)
  | .tick seconds,u => (.finished,{ u with now := u.now + seconds },[])
  | .finished,u => (.finished,u,[])

def calls : Machine Op Call Usage Emitted := ⟨enter,step⟩

end McpMemory.Providers
