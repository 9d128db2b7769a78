import McpMemory.Lib.Connection
import McpMemory.Lib.Text
import McpMemory.Providers.Admission
import McpMemory.Providers.Attempts

/-! `core/providers/instrumented.py`: what the wrapper books before, during and after a call of its
provider. An operation of a store is one statement, which raises or takes effect as a whole. Not
here: prompts, token usage, what only names a row, and the telemetry that a callback is told. -/
namespace McpMemory.Instrumented
open Transaction Attempts Providers

inductive BookError where
  | attempt (error : AttemptError)
  | storage (message : String)
  | notRunning (message : String)
  | typeError
  | assertionError
  deriving DecidableEq, Repr

inductive ProviderError where
  | admissionDeferred (message reasonCode reasonCategory : String) (retryDelaySeconds : Option Int)
      (errorText : Option String)
  | budgetExceeded (message : String)
  | rateLimitExceeded (message : String) (retryDelaySeconds : Option Int)
  | authenticationRequired (message : String) (errorText : Option String)
  | other (message : String) (isBackoff : Bool) (retryDelaySeconds : Option Int)
  | observer (error : BookError)
  deriving DecidableEq, Repr

def attemptMessage : AttemptError → String
  | .valueError message => message
  | .overflowError => "Python int too large to convert to SQLite INTEGER"
  | .dataError => "data exception"

def BookError.message : BookError → String
  | .attempt error => attemptMessage error
  | .storage message | .notRunning message => message
  | .typeError => "Object is not JSON serializable"
  | .assertionError => ""

def ProviderError.message : ProviderError → String
  | .admissionDeferred message .. | .budgetExceeded message | .rateLimitExceeded message _
  | .authenticationRequired message _ | .other message .. => message
  | .observer error => error.message

def statusText : CallStatus → String
  | .success => "success"
  | .error => "error"
  | .timeout => "timeout"
  | .parseError => "parse_error"
  | .cancelled => "cancelled"

/- `classify_provider_failure`. -/

structure ProviderOutcomeReason where
  reasonCode : String
  reasonCategory : String
  retryDelaySeconds : Option Int
  errorText : String
  deriving DecidableEq, Repr

def looksLikeInteractiveAuthPrompt (unicode : Text.Unicode) (text : String) : Bool :=
  let lowered := unicode.lower text
  Text.contains lowered "opening authentication page in your browser" ||
    Text.contains lowered "do you want to continue? [y/n]" || Text.contains lowered "interactive authentication required"

/- `error_text or str(exc)`. -/
def textOr (errorText : Option String) (message : String) : String := (errorText.filter (· != "")).getD message

def classifyText (unicode : Text.Unicode) (errorText : String) (eventStatus : Option CallStatus) (rawText : Option String) :
    ProviderOutcomeReason :=
  let combined := unicode.lower (Text.strip (errorText ++ "\n" ++ rawText.getD ""))
  if eventStatus = some .timeout then ⟨"provider_timeout","transport",none,errorText⟩
  else if eventStatus = some .parseError then
    if looksLikeInteractiveAuthPrompt unicode combined then ⟨"interactive_auth_required","auth",none,errorText⟩
    else ⟨"invalid_json_response","response",none,errorText⟩
  else if Text.contains combined "command not found" then ⟨"provider_command_not_found","environment",none,errorText⟩
  else if Text.contains combined "command cancelled" then ⟨"provider_cancelled","cancellation",none,errorText⟩
  else if Text.startsWith errorText "Exit code " || Text.startsWith errorText "Terminated by signal" then
    ⟨"provider_subprocess_exit","subprocess",none,errorText⟩
  else ⟨"provider_execution_error","execution",none,errorText⟩

def classifyProviderFailure (unicode : Text.Unicode) (error : ProviderError) (eventStatus : Option CallStatus)
    (rawText : Option String) : ProviderOutcomeReason :=
  match error with
  | .admissionDeferred message reasonCode reasonCategory retryDelaySeconds errorText =>
    ⟨reasonCode,reasonCategory,retryDelaySeconds,textOr errorText message⟩
  | .budgetExceeded message => ⟨"profile_daily_budget_exceeded","admission",none,message⟩
  | .rateLimitExceeded message retryDelaySeconds => ⟨"model_burst_limit_exceeded","admission",retryDelaySeconds,message⟩
  | .authenticationRequired message errorText => ⟨"interactive_auth_required","auth",none,textOr errorText message⟩
  | .other message isBackoff retryDelaySeconds =>
    if isBackoff || retryDelaySeconds.isSome then
      let lowered := unicode.lower message
      if Text.contains lowered "quota" || Text.contains lowered "quota_exhausted" then
        ⟨"provider_quota_exhausted","upstream",retryDelaySeconds,message⟩
      else ⟨"provider_backoff_requested","upstream",retryDelaySeconds,message⟩
    else classifyText unicode message eventStatus rawText
  | .observer error => classifyText unicode error.message eventStatus rawText

def shouldPersistAdmissionBackoff (reason : ProviderOutcomeReason) : Bool :=
  reason.reasonCategory == "upstream" && reason.retryDelaySeconds.any (0 < ·)

/- The stores. -/

inductive ConversationStatus where
  | running
  | ended (status : CallStatus)
  deriving DecidableEq, Repr

structure Conversation where
  requestId : String
  attempt : Nat
  status : ConversationStatus
  responseText : String
  errorText : Option String
  reasonCategory : Option String
  reasonCode : Option String
  retryDelaySeconds : Option Int
  startedAt : Int
  completedAt : Int
  deriving DecidableEq, Repr

structure Books where
  usage : Usage
  conversations : List Conversation
  attempts : List Attempt

abbrev Booking (α : Type) := Tx Books BookError α

/- A provider as the wrapper has it; `store` is the attempt repository. -/
structure InstrumentedAIProvider extends Provider where
  providerName : String
  taskName : Option String
  taskId : Option String
  executionEpoch : Option Int
  store : Option (Operation → List Attempt → Attempts.Outcome)
  queued : Bool
  blockTestExecution : Bool

/- The attempt that the calls of a task are booked under. -/
structure Tracking where
  store : Operation → List Attempt → Attempts.Outcome
  taskId : String
  executionEpoch : Int

def InstrumentedAIProvider.tracking (p : InstrumentedAIProvider) : Option Tracking := do
  let store ← p.store
  let taskId ← p.taskId
  let executionEpoch ← p.executionEpoch
  pure ⟨store,taskId,executionEpoch⟩

variable (p : InstrumentedAIProvider)

/- `time.time()`. -/
def clock : Booking Int := fun oracle session => (.ok (oracle session.moment).time,session)

def inAttempts (store : Operation → List Attempt → Attempts.Outcome) (operation : Operation) : Booking Unit :=
  statement fun books => match store operation books.attempts with
    | (.ok _,attempts) => .ok ((),{ books with attempts })
    | (.error error,_) => .error (.attempt error)

def recordConversation (conversation : Conversation) : Booking Unit := write fun books => { books with
  conversations := books.conversations.filter (fun row =>
    !(row.requestId == conversation.requestId && row.attempt == conversation.attempt)) ++ [conversation] }

def isRunning (requestId : String) (row : Conversation) : Bool := row.requestId == requestId && row.status == .running

def touchRunningConversation (requestId : String) (completedAt : Int) : Booking Unit := write fun books => { books with
  conversations := Table.update (isRunning requestId) (fun row => { row with completedAt }) books.conversations }

def finalizeRunningConversation (requestId : String) (status : CallStatus) (errorText : Option String)
    (reason : Option ProviderOutcomeReason) (responseText : Option String) (completedAt : Int) : Booking Unit :=
  write fun books => { books with
    conversations := Table.update (isRunning requestId) (fun row => { row with
      status := .ended status
      errorText := errorText.or row.errorText
      reasonCategory := (reason.map (·.reasonCategory)).or row.reasonCategory
      reasonCode := (reason.map (·.reasonCode)).or row.reasonCode
      retryDelaySeconds := (reason.bind (·.retryDelaySeconds)).or row.retryDelaySeconds
      responseText := responseText.getD row.responseText
      completedAt }) books.conversations }

def recordCall (status : UsageStatus) (createdAt : Int) : Booking Unit :=
  write fun books => { books with usage := Providers.recordCall p.toProvider status createdAt books.usage }

def clearAdmissionState : Booking Unit :=
  write fun books => { books with usage := Providers.clearAdmissionState p.toProvider books.usage }

def upsertAdmissionState (reasonCode : String) (activeUntil : Int) : Booking Unit :=
  write fun books => { books with usage := Providers.upsertAdmissionState p.toProvider reasonCode activeUntil books.usage }

def tracked (operation : Tracking → Operation) : Booking Unit :=
  match p.tracking with
  | none => pure ()
  | some tracking => inAttempts tracking.store (operation tracking)

def recordAttemptStart (requestId : String) (subprocessPid : Option Int) (startedAt : Int) : Booking Unit :=
  tracked p fun tracking => .start ⟨tracking.taskId,tracking.executionEpoch,p.workspaceId,p.taskName,some requestId,
    subprocessPid,some p.providerKey,some p.providerName,some p.modelName,startedAt,"running"⟩

def recordAttemptHeartbeat (requestId : String) (subprocessPid : Option Int) (heartbeatAt : Int) :
    Booking Unit :=
  tracked p fun tracking => .heartbeat ⟨tracking.taskId,tracking.executionEpoch,heartbeatAt,some requestId,subprocessPid⟩

def finishing (requestId status : String) (completedAt : Int) (subprocessPid : Option Int)
    (errorText terminationReason : Option String) (tracking : Tracking) : Operation :=
  .finish ⟨tracking.taskId,tracking.executionEpoch,status,completedAt,some requestId,subprocessPid,errorText,
    terminationReason⟩

def finishAttempt (requestId status : String) (completedAt : Int) (subprocessPid : Option Int)
    (errorText terminationReason : Option String) : Booking Unit :=
  tracked p (finishing requestId status completedAt subprocessPid errorText terminationReason)

/- What a provider tells its observer. -/

structure Finished where
  startedAt : Int
  completedAt : Int
  status : Option CallStatus
  rawText : Option String
  errorText : Option String
  reasonCategory : Option String
  reasonCode : Option String
  retryDelaySeconds : Option Int

inductive Happening where
  | started (startedAt : Int)
  | heartbeat (heartbeatAt : Int)
  | finished (ending : Finished)

structure Event where
  attempt : Nat
  subprocessPid : Option Int
  happening : Happening

/- A task that is no longer running is left alone. -/
def touchRunningTask : Booking Unit :=
  if p.queued && p.taskId.isSome then
    Connection.handling hook fun
      | .notRunning _ => pure ()
      | error => raise error
  else pure ()

def handleObserverEvent (requestId : String) (event : Event) : Booking Unit :=
  match event.happening with
  | .started startedAt => do
    recordAttemptStart p requestId event.subprocessPid startedAt
    recordConversation ⟨requestId,event.attempt,.running,"",none,none,none,none,startedAt,startedAt⟩
  | .heartbeat heartbeatAt => do
    recordAttemptHeartbeat p requestId event.subprocessPid heartbeatAt
    touchRunningTask p
    touchRunningConversation requestId heartbeatAt
  | .finished ending => do
    finishAttempt p requestId ((ending.status.map statusText).getD "finished") ending.completedAt event.subprocessPid
      ending.errorText ending.reasonCode
    recordConversation ⟨requestId,event.attempt,.ended (ending.status.getD .error),ending.rawText.getD "",ending.errorText,
      ending.reasonCategory,ending.reasonCode,ending.retryDelaySeconds,ending.startedAt,ending.completedAt⟩

/- A call of a provider. After it has told its observer something it goes on as it likes, also where
the observer raised. A provider without an observer tells nothing. -/
inductive Call (ρ : Type) where
  | returns (response : ρ)
  | raises (error : ProviderError)
  | cancelled
  | notifies (event : Event) (next : Option BookError → Call ρ)

inductive Ending (ρ : Type) where
  | returned (response : ρ)
  | raised (error : ProviderError)
  | cancelled
  deriving DecidableEq, Repr

inductive Raised where
  | provider (error : ProviderError)
  | cancelled
  | bookkeeping (error : BookError)
  | refused (decision : ProviderAdmissionDecision)
  | blockedInTests
  deriving DecidableEq, Repr

variable {ρ : Type}

def Ending.outcome : Ending ρ → Except Raised ρ
  | .returned response => .ok response
  | .raised error => .error (.provider error)
  | .cancelled => .error .cancelled

/- The call where nobody observes it. -/
def Call.alone : Call ρ → Ending ρ
  | .returns response => .returned response
  | .raises error => .raised error
  | .cancelled => .cancelled
  | .notifies _ next => (next none).alone

/- The call as the wrapper's observer sees it, and the last event that it was told. -/
def Call.observed (observer : Event → Booking Unit) (oracle : Oracle BookError) :
    Call ρ → Option Event → Session Books → (Ending ρ × Option Event) × Session Books
  | .returns response,last,session => ((.returned response,last),session)
  | .raises error,last,session => ((.raised error,last),session)
  | .cancelled,last,session => ((.cancelled,last),session)
  | .notifies event next,_,session => match observer event oracle session with
    | (.ok (),after) => (next none).observed observer oracle (some event) after
    | (.error error,after) => (next (some error)).observed observer oracle (some event) after

def Event.ended (event : Event) : Option Finished := match event.happening with
  | .finished ending => some ending
  | _ => none

def extractStatus (last : Option Event) (fallback : CallStatus) : CallStatus :=
  ((last.bind Event.ended).bind (·.status)).getD fallback

def extractRawText (last : Option Event) : Option String := (last.bind Event.ended).bind (·.rawText)

def extractSubprocessPid (last : Option Event) : Option Int := last.bind (·.subprocessPid)

/- How `json.dumps` and `isinstance` take a response. -/
structure Encoding (ρ : Type) where
  dumps : ρ → Option String
  isNone : ρ → Bool
  isMapping : ρ → Bool

def dumpsText (encoding : Encoding ρ) (response : ρ) : Booking String := match encoding.dumps response with
  | some text => pure text
  | none => raise .typeError

/- `raw_text or json.dumps(response)`. -/
def responseText (encoding : Encoding ρ) (last : Option Event) (response : ρ) : Booking String :=
  match (extractRawText last).filter (· != "") with
  | some text => pure text
  | none => dumpsText encoding response

def encodeParsed (encoding : Encoding ρ) (parsed : ρ) : Booking Unit :=
  if encoding.isNone parsed then pure ()
  else if encoding.isMapping parsed then do
    let _ ← dumpsText encoding parsed
  else raise .assertionError

def persistBackoff (reason : ProviderOutcomeReason) (completedAt : Int) : Booking Unit :=
  if shouldPersistAdmissionBackoff reason then
    upsertAdmissionState p reason.reasonCode (completedAt + reason.retryDelaySeconds.getD 0)
  else pure ()

/- The `except` branches of `ask_json` and `run_agent`. -/

def bookCancelled (requestId : String) (last : Option Event) : Booking Unit := do
  let completedAt ← clock
  recordCall p (.ended (extractStatus last .cancelled)) completedAt
  finalizeRunningConversation requestId (extractStatus last .cancelled) (some "Command cancelled")
    (some ⟨"provider_cancelled","cancellation",none,"Command cancelled"⟩) none completedAt
  finishAttempt p requestId "cancelled" completedAt (extractSubprocessPid last) (some "Command cancelled")
    (some "provider_cancelled")

def bookFailed (unicode : Text.Unicode) (requestId : String) (error : ProviderError) (last : Option Event) :
    Booking Unit := do
  let completedAt ← clock
  let status := extractStatus last .error
  let reason := classifyProviderFailure unicode error (some status) (extractRawText last)
  recordCall p (.ended status) completedAt
  finalizeRunningConversation requestId status (some reason.errorText) (some reason) none completedAt
  persistBackoff p reason completedAt
  finishAttempt p requestId (statusText status) completedAt (extractSubprocessPid last) (some reason.errorText)
    (some reason.reasonCode)

def bookResponse (encoding : Encoding ρ) (requestId : String) (response : ρ) (last : Option Event) :
    Booking Unit := do
  clearAdmissionState p
  let completedAt ← clock
  let text ← responseText encoding last response
  encodeParsed encoding response
  finalizeRunningConversation requestId (extractStatus last .success) none none (some text) completedAt
  recordCall p (.ended (extractStatus last .success)) completedAt
  finishAttempt p requestId (statusText (extractStatus last .success)) completedAt (extractSubprocessPid last) none none
  let _ ← responseText encoding last response

structure AgenticRunResult (ρ : Type) where
  status : CallStatus
  summary : Option String
  rawText : Option String
  parsed : Option ρ

def encodeResult (encoding : Encoding ρ) : Option ρ → Booking Unit
  | none => pure ()
  | some parsed => encodeParsed encoding parsed

def bookResult (encoding : Encoding ρ) (requestId : String) (result : AgenticRunResult ρ)
    (last : Option Event) : Booking Unit := do
  clearAdmissionState p
  let completedAt ← clock
  let status := extractStatus last result.status
  let errorText := if result.status = .success then none else result.summary
  let text := textOr (extractRawText last) (textOr result.rawText (result.summary.getD ""))
  encodeResult encoding result.parsed
  finalizeRunningConversation requestId status errorText none (some text) completedAt
  recordCall p (.ended status) completedAt
  finishAttempt p requestId (statusText status) completedAt (extractSubprocessPid last) errorText
    (if result.status = .success then none else some "agent_run_unsuccessful")

def settleJson (unicode : Text.Unicode) (encoding : Encoding ρ) (requestId : String) (last : Option Event) :
    Ending ρ → Booking Unit
  | .returned response => bookResponse p encoding requestId response last
  | .raised error => bookFailed p unicode requestId error last
  | .cancelled => bookCancelled p requestId last

def settleAgent (unicode : Text.Unicode) (encoding : Encoding ρ) (requestId : String) (last : Option Event) :
    Ending (AgenticRunResult ρ) → Booking Unit
  | .returned result => bookResult p encoding requestId result last
  | .raised error => bookFailed p unicode requestId error last
  | .cancelled => bookCancelled p requestId last

/- `_InstrumentedAgenticSession.run_agent` books the call alone. -/
def settleSession : Ending (AgenticRunResult ρ) → Booking Unit
  | .returned result => do recordCall p (.ended result.status) (← clock)
  | .raised _ => do recordCall p (.ended .error) (← clock)
  | .cancelled => do recordCall p (.ended .cancelled) (← clock)

/- `_enforce_rate_limits`, one query for each check that is made. -/
def enforceRateLimits : Booking (Option ProviderAdmissionDecision) := do
  match ← select fun books => activeRefusal p.toProvider books.usage with
  | some decision => pure (some decision)
  | none => match ← select fun books => dailyRefusal p.toProvider books.usage with
    | some decision => pure (some decision)
    | none => select fun books => burstRefusal p.toProvider books.usage

/- The provider's call and what is booked after it; an exception of the bookkeeping goes out
instead of the response or of the provider's own. -/
def conduct (settle : Option Event → Ending ρ → Booking Unit) (observer : Event → Booking Unit) (call : Call ρ)
    (oracle : Oracle BookError) (session : Session Books) : Except Raised ρ × Session Books :=
  let ran := call.observed observer oracle none session
  match settle ran.1.2 ran.1.1 oracle ran.2 with
  | (.ok (),after) => (ran.1.1.outcome,after)
  | (.error error,after) => (.error (.bookkeeping error),after)

inductive Shape where
  | json
  | agent
  | session
  deriving DecidableEq, Repr

abbrev Reply (ρ : Type) : Shape → Type
  | .json => ρ
  | .agent | .session => AgenticRunResult ρ

def settleShape (unicode : Text.Unicode) (encoding : Encoding ρ) (requestId : String) :
    (shape : Shape) → Option Event → Ending (Reply ρ shape) → Booking Unit
  | .json => settleJson p unicode encoding requestId
  | .agent => settleAgent p unicode encoding requestId
  | .session => fun _ => settleSession p

/- `record_admission_skip` before the refusal goes out. -/
def skip (startedAt : Int) (raised : Raised) (oracle : Oracle BookError) (session : Session Books) :
    Except Raised ρ × Session Books :=
  match recordCall p .skipped startedAt oracle session with
  | (.ok (),after) => (.error raised,after)
  | (.error error,after) => (.error (.bookkeeping error),after)

/- `ask_json`, `run_agent` and the session's `run_agent`. -/
def instrumented (unicode : Text.Unicode) (encoding : Encoding ρ) (shape : Shape)
    (call : Call (Reply ρ shape)) (oracle : Oracle BookError) (session : Session Books) :
    Except Raised (Reply ρ shape) × Session Books :=
  let now := oracle session.moment
  if p.blockTestExecution then (.error .blockedInTests,session)
  else match enforceRateLimits p oracle ⟨session.data,session.moment + 1⟩ with
    | (.ok none,after) =>
      conduct (settleShape p unicode encoding now.uuid shape) (handleObserverEvent p now.uuid) call oracle after
    | (.ok (some decision),after) => skip p now.time (.refused decision) oracle after
    | (.error error,after) => skip p now.time (.bookkeeping error) oracle after

end McpMemory.Instrumented
