import McpMemory.Lib.Interleave
import McpMemory.Lib.Semaphore
import McpMemory.Transport.Dispatch

/-! `DaemonZmqServer` while it serves: a task for each message, which `_serve` collects when it is done.
A call is one message with its task; every step is what runs between two `await`s. -/
namespace McpMemory.Transport
open Values Interleave

/- The frames of a message, with what its handler will do and how long its parts will take. -/
structure Message where
  frames : List ByteArray
  handler : Handler
  times : Times

/- Who waits for a reply. -/
def Message.sender (message : Message) : Option ByteArray :=
  if 2 ≤ message.frames.length then message.frames.head? else none

def Message.payload (message : Message) : ByteArray := message.frames.getLast?.getD ByteArray.empty

structure Reply where
  identity : ByteArray
  response : Dict

/- `replied` and `closed` are both the end: the loop has taken the task out of the tasks in flight. -/
inductive Phase where
  | received
  | queued (path : Str)
  | executing (path : Str)
  | dispatched (response : Dict)
  | raised (error : Raised)
  | replied (reply : Reply)
  | closed

/- A request has its id once it is tracked. -/
structure Call where
  message : Message
  requestId : Nat
  phase : Phase

structure Server where
  requestSemaphore : Semaphore
  nextRequestId : Nat
  activeRequestCount : Nat
  activeConstrainedRequestCount : Nat
  queuedWaiterCount : Nat

variable (env : Env)

def unconstrainedRequestPaths : List String := ["/internal/health","/internal/tools/record_thought","/api/record-thought"]

def usesRequestSemaphore (path : Str) : Bool := !(unconstrainedRequestPaths.map ofText).contains path

def slots (maxConcurrentRequests : Int) : Nat := (max maxConcurrentRequests 1).toNat

def server (maxConcurrentRequests : Int) : Server := ⟨⟨slots maxConcurrentRequests,[]⟩,0,0,0,0⟩

/- The counts go up when a request runs, and down in `finally`. -/
def Server.begins (server : Server) (path : Str) : Server := { server with
  activeRequestCount := server.activeRequestCount + 1
  activeConstrainedRequestCount := server.activeConstrainedRequestCount + (usesRequestSemaphore path).toNat }

def Server.finishes (server : Server) (path : Str) : Server := { server with
  activeRequestCount := server.activeRequestCount - 1
  activeConstrainedRequestCount := server.activeConstrainedRequestCount - (usesRequestSemaphore path).toNat
  requestSemaphore := if usesRequestSemaphore path then server.requestSemaphore.release else server.requestSemaphore }

/- From `_track_request` to the first `await`. -/
def admitRequest (call : Call) (path : Str) (server : Server) : Call × Server :=
  let requestId := server.nextRequestId + 1
  let semaphore := server.requestSemaphore
  let tracked := { server with nextRequestId := requestId }
  if !usesRequestSemaphore path then (⟨call.message,requestId,.executing path⟩,tracked.begins path)
  else if semaphore.locked then (⟨call.message,requestId,.queued path⟩,{ tracked with
    requestSemaphore := semaphore.enqueue requestId, queuedWaiterCount := server.queuedWaiterCount + 1 })
  else (⟨call.message,requestId,.executing path⟩,({ tracked with
    requestSemaphore := { semaphore with value := semaphore.value - 1 } } : Server).begins path)

/- The future of the waiter is set, so the task goes on. -/
def resume (call : Call) (path : Str) (server : Server) : Call × Server :=
  ({ call with phase := .executing path },({ server with
    requestSemaphore := server.requestSemaphore.leave call.requestId
    queuedWaiterCount := server.queuedWaiterCount - 1 } : Server).begins path)

def requestPath (found : Option Str) : Str := found.getD (ofText "<invalid_transport_payload>")

def execute (call : Call) (path : Str) : Phase :=
  match dispatchRequest env call.message.payload call.message.handler path
    (daemonTransportTiming call.requestId call.message.times) with
  | .ok response => .dispatched response
  | .error error => .raised error

/- The loop sends what `json.dumps` encodes. -/
def collect (identity : ByteArray) (response : Dict) : Phase × List Reply :=
  if (Value.dict response).encodes env.digits env.dumpsDepth then (.replied ⟨identity,response⟩,[⟨identity,response⟩])
  else (.closed,[])

def advance (call : Call) (server : Server) : Call × Server × List Reply := match call.phase with
  | .received => match normalizedTransportPath env call.message.payload with
    | .error error => ({ call with phase := .raised error },server,[])
    | .ok found =>
      let admitted := admitRequest call (requestPath found) server
      (admitted.1,admitted.2,[])
  | .queued path =>
    if server.requestSemaphore.granted call.requestId then
      let resumed := resume call path server
      (resumed.1,resumed.2,[])
    else (call,server,[])
  | .executing path => ({ call with phase := execute env call path },server.finishes path,[])
  | .dispatched response =>
    let collected := collect env (call.message.sender.getD ByteArray.empty) response
    ({ call with phase := collected.1 },server,collected.2)
  | .raised _ => ({ call with phase := .closed },server,[])
  | .replied _ | .closed => (call,server,[])

def serve : Machine Message Call Server Reply where
  enter message := ⟨message,0,if message.sender.isSome then .received else .closed⟩
  step := advance env

end McpMemory.Transport
