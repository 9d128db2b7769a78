import Mathlib
import McpMemory.Lib.Table
import McpMemory.Transport.Server

/-! One reply for each request. -/
namespace McpMemory.Transport
open Values Interleave Table

section
variable (env : Env)

/- What `_dispatch` hands to the handler. -/
def handedOn (frame : ByteArray) : Option (Str × Dict) := match decode frame with
  | none => none
  | some text => match loads ⟨env.digits,env.dispatchDepth⟩ text with
    | .error _ => none
    | .ok decoded => match readRequest decoded with
      | .error _ => none
      | .ok (path,payload) => (normalizeRequest env path payload).toOption

/- A handler's end that becomes a reply: it is not cancelled from within, and `json.dumps` encodes the
response once the times are attached. -/
def Fine (timing : Dict) : Outcome → Prop
  | .answered (.dict response) => ∀ attached, attachTransportDiagnostics env timing env.attachDepth response = .ok attached →
    (Value.dict (attached.getD response)).encodes env.digits env.dumpsDepth
  | .raised error => error.kind ≠ .cancelledError
  | _ => True

/- The path can be read without an exception, and the handler ends well. -/
def Answerable (message : Message) (requestId : Nat) : Prop :=
  (∃ found, normalizedTransportPath env message.payload = .ok found) ∧
  ∀ path payload, handedOn env message.payload = some (path,payload) →
    Fine env (daemonTransportTiming requestId message.times) (message.handler path payload)

end

section
variable {env : Env} {timing : Dict}

theorem encodesFlat {response : Dict} (keys : sortable (response.map (·.1)) && !(response.map (·.1)).contains .object)
    (flat : ∀ entry ∈ response, ∀ depth, entry.2.encodes env.digits depth) :
    (Value.dict response).encodes env.digits env.dumpsDepth = true := by
  obtain ⟨depth,same⟩ := Nat.exists_eq_add_of_lt env.room
  rw [same,Nat.zero_add]
  simp only [Value.encodes,keys,Bool.true_and,List.all_eq_true]
  exact fun entry member => flat entry member depth

theorem encodesError (text : Str) : (Value.dict (errorPayload text)).encodes env.digits env.dumpsDepth = true :=
  encodesFlat (by simp [errorPayload,field,sortable,ofText]; decide) (by simp [errorPayload,field,Value.encodes])

theorem encodesTimeout (path : Str) : (Value.dict (dispatchTimeoutPayload path)).encodes env.digits env.dumpsDepth = true :=
  encodesFlat (by simp [dispatchTimeoutPayload,errorPayload,field,sortable,ofText]; decide)
    (by simp [dispatchTimeoutPayload,errorPayload,field,Value.encodes])

/- Nothing is attached to an error. -/
theorem attachError {text attached} (ran : attachTransportDiagnostics env timing env.attachDepth (errorPayload text) = .ok attached) :
    attached = none := by
  unfold attachTransportDiagnostics at ran
  split at ran
  · cases ran
  · have search : Values.get (errorPayload text) "search_diagnostics" = none := by rfl
    have contents : Values.get (errorPayload text) "contents" = none := by rfl
    rw [search,contents] at ran
    cases ran
    rfl

theorem fineError (text : Str) : Fine env timing (.answered (.dict (errorPayload text))) := by
  intro attached ran
  rw [attachError ran]
  exact encodesError text

theorem respondFine {path : Str} {outcome : Outcome} :
    (∃ response, respond env path timing outcome = .ok response ∧ (Value.dict response).encodes env.digits env.dumpsDepth = true) ↔
      Fine env timing outcome := by
  have failed : ∃ response, (Except.ok dispatchFailurePayload : Except Raised Dict) = .ok response ∧
      (Value.dict response).encodes env.digits env.dumpsDepth = true := ⟨_,rfl,encodesError _⟩
  have late : ∃ response, (Except.ok (dispatchTimeoutPayload path) : Except Raised Dict) = .ok response ∧
      (Value.dict response).encodes env.digits env.dumpsDepth = true := ⟨_,rfl,encodesTimeout path⟩
  cases outcome with
  | timedOut => exact ⟨fun _ => trivial,fun _ => late⟩
  | raised error =>
    simp only [respond,Fine]
    cases kind : error.kind with
    | cancelledError => simp
    | timeoutError => exact ⟨fun _ => nofun,fun _ => late⟩
    | valueError | recursionError | attributeError | other => exact ⟨fun _ => nofun,fun _ => failed⟩
  | answered value =>
    cases value with
    | dict response =>
      simp only [respond,Fine]
      cases attachTransportDiagnostics env timing env.attachDepth response with
      | error error => exact ⟨fun _ => nofun,fun _ => failed⟩
      | ok attached => simp
    | null | bool | int | float | str | list | object => exact ⟨fun _ => trivial,fun _ => failed⟩

theorem fineHandled {outcome : Outcome} : Fine env timing (handled outcome) ↔ Fine env timing outcome := by
  cases outcome with
  | answered | timedOut => exact Iff.rfl
  | raised error =>
    simp only [handled]
    split
    · rename_i caught
      exact ⟨fun _ cancelled => by rw [cancelled] at caught; simp at caught,fun _ => fineError _⟩
    · exact Iff.rfl

theorem urlsplitRaised {path error} (raised : urlsplit env path = .error error) : error.kind = .valueError := by
  unfold urlsplit at raised
  simp only [bind,Except.bind,pure,Except.pure] at raised
  split at raised
  · rename_i brackets
    cases raised
    unfold checkBrackets at brackets
    split at brackets
    · cases brackets
      rfl
    · split at brackets
      · cases brackets
      · split at brackets <;> cases brackets
        rfl
  · split at raised
    · rename_i netloc
      cases raised
      unfold checkNetloc at netloc
      dsimp only at netloc
      split at netloc
      · cases netloc
      · split at netloc <;> cases netloc
        rfl
    · cases raised

theorem normalizeRaised {path payload error} (raised : normalizeRequest env path payload = .error error) : error.kind = .valueError := by
  unfold normalizeRequest at raised
  cases split : urlsplit env path with
  | error found =>
    rw [split] at raised
    cases raised
    exact urlsplitRaised split
  | ok found =>
    rw [split] at raised
    cases raised

/- A frame is handed on to its handler, or answered without it. -/
theorem dispatchHanded (frame : ByteArray) (handler : Handler) :
    (∃ path payload, handedOn env frame = some (path,payload) ∧ dispatch env frame handler = handled (handler path payload)) ∨
    handedOn env frame = none ∧ Fine env timing (dispatch env frame handler) := by
  unfold handedOn dispatch
  cases decode frame with
  | none => exact .inr ⟨rfl,fineError _⟩
  | some text =>
    dsimp only
    cases loads ⟨env.digits,env.dispatchDepth⟩ text with
    | error fault => cases fault <;> exact .inr ⟨rfl,by first | exact fineError _ | nofun⟩
    | ok decoded =>
      dsimp only
      cases readRequest decoded with
      | error text => exact .inr ⟨rfl,fineError _⟩
      | ok request =>
        dsimp only
        cases normal : normalizeRequest env request.1 request.2 with
        | error error =>
          refine .inr ⟨rfl,?_⟩
          have kind := normalizeRaised normal
          exact fun cancelled => by rw [kind] at cancelled; cases cancelled
        | ok found => exact .inl ⟨found.1,found.2,rfl,rfl⟩

theorem answers (frame : ByteArray) (handler : Handler) (path : Str) :
    (∃ response, dispatchRequest env frame handler path timing = .ok response ∧
      (Value.dict response).encodes env.digits env.dumpsDepth = true) ↔
    ∀ path payload, handedOn env frame = some (path,payload) → Fine env timing (handler path payload) := by
  unfold dispatchRequest
  rw [respondFine]
  rcases @dispatchHanded env timing frame handler with ⟨path,payload,handed,same⟩ | ⟨none,fine⟩
  · rw [same,fineHandled,handed]
    constructor
    · rintro fine _ _ ⟨⟩
      exact fine
    · exact fun every => every path payload rfl
  · rw [none]
    exact ⟨fun _ => nofun,fun _ => fine⟩

end

/- The request holds a permit. -/
def Call.runs (call : Call) : Bool := match call.phase with
  | .executing path => usesRequestSemaphore path
  | _ => false

def Call.waits (call : Call) : Option Nat := match call.phase with
  | .queued _ => some call.requestId
  | _ => none

def Call.reply (call : Call) : Option Reply := match call.phase with
  | .replied reply => some reply
  | _ => none

/- How many steps a task has before it at most. -/
def Call.rank (call : Call) : Nat := match call.phase with
  | .received => 4
  | .queued _ => 3
  | .executing _ => 2
  | .dispatched _ | .raised _ => 1
  | .replied _ | .closed => 0

def inExecution (w : World Call Server Reply) : Nat := w.calls.countP Call.runs

section
variable (env : Env)

/- No task can go on. -/
def Settled (w : World Call Server Reply) : Prop := ∀ index, (serve env).next w (.advance index) = w

/- The replies sent are those of the requests, each to its sender, and all slots are free again. -/
structure OneReply (maxConcurrentRequests : Int) (w : World Call Server Reply) : Prop where
  sent : w.trace.Perm (w.calls.filterMap (·.reply))
  each : ∀ call ∈ w.calls, ∀ sender, call.message.sender = some sender →
    ∃ reply, call.reply = some reply ∧ reply.identity = sender
  released : w.store.requestSemaphore.value = slots maxConcurrentRequests

/- The path that was read from the frame. -/
def Reads (message : Message) (path : Str) : Prop := message.sender.isSome ∧
  ∃ found, normalizedTransportPath env message.payload = .ok found ∧ path = requestPath found

/- What the phase of a call says of its message. -/
def Call.Follows (call : Call) : Prop := match call.phase with
  | .received => call.message.sender.isSome
  | .queued path => usesRequestSemaphore path ∧ Reads env call.message path
  | .executing path => Reads env call.message path
  | .dispatched response => ∃ path, Reads env call.message path ∧
    dispatchRequest env call.message.payload call.message.handler path (daemonTransportTiming call.requestId call.message.times)
      = .ok response
  | .raised _ => ¬ Answerable env call.message call.requestId
  | .replied reply => call.message.sender = some reply.identity ∧ Answerable env call.message call.requestId
  | .closed => call.message.sender = none ∨ ¬ Answerable env call.message call.requestId

end

section
variable {env : Env}

theorem followsStart (message : Message) : ((serve env).enter message).Follows env := by
  cases sender : message.sender <;> simp [serve,Call.Follows,sender]

theorem followsAdvance {call : Call} {server : Server} (follows : call.Follows env) : (advance env call server).1.Follows env := by
  obtain ⟨message,requestId,phase⟩ := call
  cases phase with
  | received =>
    simp only [advance]
    cases read : normalizedTransportPath env message.payload with
    | error error => simp [Call.Follows,Answerable,read]
    | ok found =>
      have reads : Reads env message (requestPath found) := ⟨follows,found,read,rfl⟩
      simp only [admitRequest]
      cases uses : usesRequestSemaphore (requestPath found) with
      | false => exact reads
      | true =>
        cases server.requestSemaphore.locked with
        | false => exact reads
        | true => exact ⟨uses,reads⟩
  | queued path =>
    simp only [advance]
    split
    · exact follows.2
    · exact follows
  | executing path =>
    obtain ⟨sender,found,read,rfl⟩ := follows
    simp only [advance,execute]
    cases ran : dispatchRequest env message.payload message.handler (requestPath found)
        (daemonTransportTiming requestId message.times) with
    | ok response => exact ⟨_,⟨sender,found,read,rfl⟩,ran⟩
    | error error =>
      intro answerable
      obtain ⟨response,answered,_⟩ := (answers message.payload message.handler (requestPath found)).mpr answerable.2
      exact nomatch ran.symm.trans answered
  | dispatched response =>
    obtain ⟨path,⟨sender,found,read,_⟩,ran⟩ := follows
    obtain ⟨identity,same⟩ := Option.isSome_iff_exists.mp sender
    simp only [advance,collect,same,Option.getD_some]
    split
    · rename_i encodes
      exact ⟨same,⟨found,read⟩,(answers message.payload message.handler path).mp ⟨response,ran,encodes⟩⟩
    · rename_i stuck
      refine .inr fun answerable => ?_
      obtain ⟨other,answered,encodes⟩ := (answers message.payload message.handler path).mpr answerable.2
      cases ran.symm.trans answered
      exact stuck encodes
  | raised error => exact .inr follows
  | replied reply => exact follows
  | closed => exact follows

/- What a step that is not blocked does to the slots, the queue and the replies. -/
structure Moves (call next : Call) (store after : Server) (emitted : List Reply) : Prop where
  permits : after.requestSemaphore.permits + next.runs.toNat = store.requestSemaphore.permits + call.runs.toNat
  counts : after.activeConstrainedRequestCount + call.runs.toNat = store.activeConstrainedRequestCount + next.runs.toNat
  fair : after.requestSemaphore.Fair
  keys : (call.waits.toList ++ after.requestSemaphore.keys).Perm (next.waits.toList ++ store.requestSemaphore.keys)
  later : store.nextRequestId ≤ after.nextRequestId
  fresh : ∀ key ∈ next.waits, store.nextRequestId < key ∧ key ≤ after.nextRequestId
  replies : call.reply.toList ++ emitted = next.reply.toList
  ranked : next.rank < call.rank

/- The slot is released however the request ends. -/
theorem finishMoves {call next : Call} {path : Str} {store : Server} (executing : call.phase = .executing path)
    (fair : store.requestSemaphore.Fair) (counted : call.runs = true → 0 < store.activeConstrainedRequestCount)
    (runs : next.runs = false) (waits : next.waits = none) (reply : next.reply = none) (rank : next.rank = 1) :
    Moves call next store (store.finishes path) [] := by
  have held : call.runs = usesRequestSemaphore path := by rw [Call.runs,executing]
  have free : call.waits = none := by rw [Call.waits,executing]
  have silent : call.reply = none := by rw [Call.reply,executing]
  have before : call.rank = 2 := by rw [Call.rank,executing]
  obtain ⟨keys,permits,released⟩ := Semaphore.releaseKeeps store.requestSemaphore
  rw [held] at counted
  have slots : (store.finishes path).requestSemaphore.permits = store.requestSemaphore.permits + call.runs.toNat ∧
      (store.finishes path).activeConstrainedRequestCount + call.runs.toNat = store.activeConstrainedRequestCount ∧
      (store.finishes path).requestSemaphore.Fair ∧ (store.finishes path).requestSemaphore.keys = store.requestSemaphore.keys := by
    rw [held,Server.finishes]
    cases uses : usesRequestSemaphore path with
    | true => exact ⟨permits,Nat.sub_add_cancel (counted uses),released,keys⟩
    | false => exact ⟨rfl,rfl,fair,rfl⟩
  obtain ⟨free',less,fair',same⟩ := slots
  refine ⟨by rw [runs,free']; rfl,by rw [runs,less]; rfl,fair',by rw [free,waits,same],Nat.le_refl _,?_,by rw [silent,reply]; rfl,
    by omega⟩
  rw [waits]
  exact nofun

theorem moves {call : Call} {store : Server} (follows : call.Follows env) (fair : store.requestSemaphore.Fair)
    (counted : call.runs = true → 0 < store.activeConstrainedRequestCount) :
    (advance env call store = (call,store,[]) ∧ (call.rank = 0 ∨ ∃ path, call.phase = .queued path ∧
      store.requestSemaphore.granted call.requestId = false)) ∨
    Moves call (advance env call store).1 store (advance env call store).2.1 (advance env call store).2.2 := by
  have noneWaits {holds : Nat → Prop} : ∀ key, none = some key → holds key := fun _ same => by cases same
  obtain ⟨message,requestId,phase⟩ := call
  cases phase with
  | received =>
    right
    simp only [advance]
    cases read : normalizedTransportPath env message.payload with
    | error error => exact ⟨rfl,rfl,fair,.refl _,Nat.le_refl _,noneWaits,rfl,by simp [Call.rank]⟩
    | ok found =>
      simp only [admitRequest]
      cases uses : usesRequestSemaphore (requestPath found) with
      | false =>
        refine ⟨?_,?_,fair,.refl _,Nat.le_succ _,noneWaits,rfl,?_⟩ <;>
          simp [Server.begins,Call.runs,Call.rank,uses]
      | true =>
        cases locked : store.requestSemaphore.locked with
        | true =>
          obtain ⟨permits,fair⟩ := Semaphore.enqueueKeeps fair locked (store.nextRequestId + 1)
          refine ⟨congrArg (· + 0) permits,rfl,fair,?_,Nat.le_succ _,?_,rfl,by simp [Call.rank]⟩
          · simp [Call.waits,Semaphore.keys,Semaphore.enqueue]
          · rintro key ⟨⟩
            exact ⟨Nat.lt_succ_self _,Nat.le_refl _⟩
        | false =>
          obtain ⟨permits,fair⟩ := Semaphore.takeFree locked
          refine ⟨?_,?_,fair,.refl _,Nat.le_succ _,noneWaits,rfl,?_⟩
          · simpa [Server.begins,Call.runs,uses] using permits
          · simp [Server.begins,Call.runs,uses]
          · simp [Call.rank]
  | queued path =>
    simp only [advance]
    cases granted : store.requestSemaphore.granted requestId with
    | false => exact .inl ⟨rfl,.inr ⟨path,rfl,rfl⟩⟩
    | true =>
      obtain ⟨keys,permits,fair⟩ := Semaphore.leaveKeeps granted
      refine .inr ⟨?_,?_,fair,keys,Nat.le_refl _,noneWaits,rfl,?_⟩
      · simpa [Server.begins,Call.runs,resume,follows.1] using permits
      · simp [Server.begins,Call.runs,resume]
      · simp [Call.rank,resume]
  | executing path =>
    right
    have ended : (∃ response, execute env ⟨message,requestId,.executing path⟩ path = .dispatched response) ∨
        ∃ error, execute env ⟨message,requestId,.executing path⟩ path = .raised error := by
      unfold execute
      split
      · exact .inl ⟨_,rfl⟩
      · exact .inr ⟨_,rfl⟩
    rcases ended with ⟨response,same⟩ | ⟨error,same⟩
    · simp only [advance,same]
      exact finishMoves rfl fair counted rfl rfl rfl rfl
    · simp only [advance,same]
      exact finishMoves rfl fair counted rfl rfl rfl rfl
  | dispatched response =>
    right
    simp only [advance,collect]
    split
    · exact ⟨rfl,rfl,fair,.refl _,Nat.le_refl _,noneWaits,rfl,Nat.one_pos⟩
    · exact ⟨rfl,rfl,fair,.refl _,Nat.le_refl _,noneWaits,rfl,Nat.one_pos⟩
  | raised error => exact .inr ⟨rfl,rfl,fair,.refl _,Nat.le_refl _,noneWaits,rfl,Nat.one_pos⟩
  | replied reply => exact .inl ⟨rfl,.inl rfl⟩
  | closed => exact .inl ⟨rfl,.inl rfl⟩

/- The invariant of a server with so many slots. -/
structure Serving (env : Env) (slots : Nat) (w : World Call Server Reply) : Prop where
  permits : w.store.requestSemaphore.permits + inExecution w = slots
  counted : w.store.activeConstrainedRequestCount = inExecution w
  fair : w.store.requestSemaphore.Fair
  waiting : w.store.requestSemaphore.keys.Perm (w.calls.filterMap (·.waits))
  distinct : w.store.requestSemaphore.keys.Nodup
  recent : ∀ key ∈ w.store.requestSemaphore.keys, key ≤ w.store.nextRequestId
  sent : w.trace.Perm (w.calls.filterMap (·.reply))
  follows : ∀ call ∈ w.calls, call.Follows env

variable {slots : Nat}

theorem servingIdle (maxConcurrentRequests : Int) :
    Serving env (Transport.slots maxConcurrentRequests) (idle (server maxConcurrentRequests)) :=
  ⟨rfl,rfl,nofun,.refl _,List.nodup_nil,nofun,.refl _,nofun⟩

theorem servingStart {w : World Call Server Reply} (serving : Serving env slots w) (message : Message) :
    Serving env slots { w with calls := w.calls ++ [(serve env).enter message] } := by
  have quiet : ((serve env).enter message).runs = false ∧ ((serve env).enter message).waits = none ∧
      ((serve env).enter message).reply = none := by
    cases sender : message.sender <;> simp [serve,Call.runs,Call.waits,Call.reply,sender]
  obtain ⟨runs,waits,reply⟩ := quiet
  have same : inExecution { w with calls := w.calls ++ [(serve env).enter message] } = inExecution w := by
    simp [inExecution,runs]
  refine ⟨same ▸ serving.permits,same ▸ serving.counted,serving.fair,?_,serving.distinct,serving.recent,?_,fun call member => ?_⟩
  · rw [List.filterMap_append,List.filterMap_cons_none waits]
    simpa using serving.waiting
  · rw [List.filterMap_append,List.filterMap_cons_none reply]
    simpa using serving.sent
  · rcases List.mem_append.mp member with old | new
    · exact serving.follows call old
    · rw [List.mem_singleton.mp new]
      exact followsStart message

/- The step of one call, once it is known what it does to the slots, the queue and the replies. -/
theorem servingMoves {w : World Call Server Reply} {index : Nat} {call next : Call} {after : Server} {emitted : List Reply}
    (serving : Serving env slots w) (here : w.calls[index]? = some call) (moves : Moves call next w.store after emitted)
    (follows : next.Follows env) : Serving env slots ⟨after,w.calls.set index next,emitted ++ w.trace⟩ := by
  have count := @countSet _ Call.runs _ _ _ here next
  have moved := moves.permits
  have counts := moves.counts
  have before := serving.permits
  have counted := serving.counted
  unfold inExecution at before counted
  have queue : (next.waits.toList ++ w.store.requestSemaphore.keys).Nodup := by
    rw [List.nodup_append]
    refine ⟨by cases next.waits <;> simp,serving.distinct,fun key new other old same => ?_⟩
    have late := (moves.fresh key (Option.mem_toList.mp new)).1
    have early := serving.recent other old
    omega
  have inside : (call.waits.toList ++ after.requestSemaphore.keys).Nodup := moves.keys.nodup_iff.mpr queue
  refine ⟨?_,?_,moves.fair,?_,inside.of_append_right,fun key member => ?_,?_,fun other member => ?_⟩
  · unfold inExecution
    dsimp only
    omega
  · unfold inExecution
    dsimp only
    omega
  · exact (List.perm_append_left_iff _).mp (moves.keys.trans ((serving.waiting.append_left _).trans (filterMapSet here next).symm))
  · have known := moves.later
    rcases List.mem_append.mp (moves.keys.subset (List.mem_append_right _ member)) with new | old
    · exact (moves.fresh key (Option.mem_toList.mp new)).2
    · exact Nat.le_trans (serving.recent key old) known
  · refine (List.perm_append_left_iff call.reply.toList).mp ?_
    rw [← List.append_assoc,moves.replies]
    exact (serving.sent.append_left _).trans (filterMapSet here next).symm
  · rcases List.mem_or_eq_of_mem_set member with old | rfl
    · exact serving.follows other old
    · exact follows

theorem callsSet {w : World Call Server Reply} {index : Nat} {call : Call} (here : w.calls[index]? = some call) :
    w.calls.set index call = w.calls := by
  obtain ⟨bound,rfl⟩ := List.getElem?_eq_some_iff.mp here
  exact List.set_getElem_self bound

/- What a call that is advanced does: nothing, where it is at its end or waits for a slot, or a move. -/
theorem servingSteps {w : World Call Server Reply} {index : Nat} {call : Call} (serving : Serving env slots w)
    (here : w.calls[index]? = some call) :
    (advance env call w.store = (call,w.store,[]) ∧ (call.rank = 0 ∨ ∃ path, call.phase = .queued path ∧
      w.store.requestSemaphore.granted call.requestId = false)) ∨
    Moves call (advance env call w.store).1 w.store (advance env call w.store).2.1 (advance env call w.store).2.2 := by
  have member := List.mem_of_getElem? here
  refine moves (serving.follows call member) serving.fair fun runs => ?_
  rw [serving.counted]
  exact List.countP_pos_iff.mpr ⟨call,member,runs⟩

theorem serves : Preserved (serve env) (Serving env slots) := by
  refine ⟨fun w message serving => servingStart serving message,fun w index call here serving => ?_⟩
  rcases servingSteps serving here with ⟨blocked,_⟩ | moves
  · have still : (serve env).step call w.store = (call,w.store,[]) := blocked
    rw [still,callsSet here]
    exact serving
  · exact servingMoves serving here moves (followsAdvance (serving.follows call (List.mem_of_getElem? here)))

theorem servingRun (maxConcurrentRequests : Int) (events : List (Event Message)) :
    Serving env (Transport.slots maxConcurrentRequests) ((serve env).run (idle (server maxConcurrentRequests)) events) :=
  runPreserved serves events (servingIdle maxConcurrentRequests)

/- Every task comes to its end. -/

theorem sumSet {ρ : Type} {f : ρ → Nat} {rows : List ρ} {index row} (here : rows[index]? = some row) (new : ρ) :
    ((rows.set index new).map f).sum + f row = (rows.map f).sum + f new := by
  induction rows generalizing index with
  | nil => simp at here
  | cons first rest ih =>
    cases index with
    | zero =>
      cases here
      simp only [List.set_cons_zero,List.map_cons,List.sum_cons]
      omega
    | succ index =>
      have inner := ih here
      simp only [List.set_cons_succ,List.map_cons,List.sum_cons]
      omega

def work (w : World Call Server Reply) : Nat := (w.calls.map Call.rank).sum

theorem nextWorks {w : World Call Server Reply} (serving : Serving env slots w) (index : Nat) :
    (serve env).next w (.advance index) = w ∨ work ((serve env).next w (.advance index)) < work w := by
  cases here : w.calls[index]? with
  | none => exact .inl (nextIdle here)
  | some call =>
    rw [nextAdvance here]
    rcases servingSteps serving here with ⟨blocked,_⟩ | moves
    · have still : (serve env).step call w.store = (call,w.store,[]) := blocked
      rw [still,callsSet here]
      exact .inl rfl
    · have total := @sumSet _ Call.rank _ _ _ here (advance env call w.store).1
      have less := moves.ranked
      refine .inr ?_
      show ((w.calls.set index (advance env call w.store).1).map Call.rank).sum < (w.calls.map Call.rank).sum
      omega

theorem settles {w : World Call Server Reply} (serving : Serving env slots w) :
    ∃ later : List Nat, Settled env ((serve env).run w (later.map .advance)) := by
  induction size : work w using Nat.strong_induction_on generalizing w with
  | _ total ih =>
    by_cases settled : Settled env w
    · exact ⟨[],settled⟩
    · obtain ⟨index,moved⟩ := not_forall.mp settled
      have less := (nextWorks serving index).resolve_left moved
      obtain ⟨later,ends⟩ := ih _ (size ▸ less) (nextPreserved serves serving) rfl
      exact ⟨index::later,ends⟩

theorem settledBlocked {w : World Call Server Reply} (serving : Serving env slots w) (settled : Settled env w)
    {call : Call} (member : call ∈ w.calls) : call.rank = 0 ∨ ∃ path, call.phase = .queued path ∧
      w.store.requestSemaphore.granted call.requestId = false := by
  obtain ⟨index,here⟩ := List.mem_iff_getElem?.mp member
  rcases servingSteps serving here with ⟨_,ends⟩ | moves
  · exact ends
  · have same := settled index
    rw [nextAdvance here] at same
    have calls : w.calls.set index (advance env call w.store).1 = w.calls := congrArg World.calls same
    have there : (w.calls.set index (advance env call w.store).1)[index]? = some (advance env call w.store).1 :=
      List.getElem?_set_self (List.getElem?_eq_some_iff.mp here).1
    rw [calls,here] at there
    have less := moves.ranked
    rw [← Option.some.inj there] at less
    exact absurd less (Nat.lt_irrefl _)

/- No slot is held and nobody waits. -/
theorem settledFree {w : World Call Server Reply} (serving : Serving env slots w) (settled : Settled env w) (some_ : 0 < slots) :
    w.store.requestSemaphore.value = slots ∧ ∀ call ∈ w.calls, call.rank = 0 := by
  have idle : inExecution w = 0 := by
    rw [inExecution,List.countP_eq_zero]
    intro call member runs
    rcases settledBlocked serving settled member with ended | ⟨path,queued,_⟩
    · cases phase : call.phase <;> simp [Call.runs,Call.rank,phase] at runs ended
    · simp [Call.runs,queued] at runs
  have nobody : w.store.requestSemaphore.waiters.countP (·.2) = 0 := by
    rw [List.countP_eq_zero]
    intro waiter member done
    have key : waiter.1 ∈ w.store.requestSemaphore.keys := List.mem_map_of_mem member
    obtain ⟨call,there,waits⟩ := List.mem_filterMap.mp (serving.waiting.subset key)
    rcases settledBlocked serving settled there with ended | ⟨path,queued,blocked⟩
    · cases phase : call.phase <;> simp [Call.waits,Call.rank,phase] at waits ended
    · rw [Call.waits,queued] at waits
      have granted : w.store.requestSemaphore.granted call.requestId = true := by
        rw [Option.some.inj waits]
        exact List.contains_iff_mem.mpr (by rw [← done]; exact member)
      exact absurd (granted.symm.trans blocked) (by decide)
  have permits := serving.permits
  rw [Semaphore.permits,nobody,idle] at permits
  refine ⟨permits,fun call member => ?_⟩
  rcases settledBlocked serving settled member with ended | ⟨path,queued,_⟩
  · exact ended
  · have waits : call.requestId ∈ w.store.requestSemaphore.keys :=
      serving.waiting.symm.subset (List.mem_filterMap.mpr ⟨call,member,by rw [Call.waits,queued]⟩)
    obtain ⟨waiter,there,_⟩ := List.mem_map.mp waits
    have undone : waiter.2 = false := by
      by_contra done
      exact List.countP_eq_zero.mp nobody waiter there (by simpa using done)
    rcases serving.fair (List.any_eq_true.mpr ⟨waiter,there,by rw [undone]; rfl⟩) with empty | any
    · omega
    · rw [Semaphore.anyGranted,nobody] at any
      cases any

theorem slotsPositive (maxConcurrentRequests : Int) : 0 < Transport.slots maxConcurrentRequests := by
  unfold Transport.slots
  omega

theorem repliesExactly (maxConcurrentRequests : Int) (events : List (Event Message)) :
    let w := (serve env).run (idle (server maxConcurrentRequests)) events
    inExecution w ≤ Transport.slots maxConcurrentRequests ∧
    (∃ later : List Nat, Settled env ((serve env).run w (later.map .advance))) ∧
    (Settled env w → (OneReply maxConcurrentRequests w ↔
      ∀ call ∈ w.calls, call.message.sender.isSome → Answerable env call.message call.requestId)) := by
  have serving := @servingRun env maxConcurrentRequests events
  refine ⟨?_,settles serving,fun settled => ?_⟩
  · have permits := serving.permits
    omega
  · obtain ⟨free,ended⟩ := settledFree serving settled (slotsPositive maxConcurrentRequests)
    constructor
    · intro replies call member sent
      obtain ⟨sender,same⟩ := Option.isSome_iff_exists.mp sent
      obtain ⟨reply,got,_⟩ := replies.each call member sender same
      have follows := serving.follows call member
      cases phase : call.phase <;> simp only [Call.reply,phase,reduceCtorEq] at got
      rw [Call.Follows,phase] at follows
      exact follows.2
    · intro answerable
      refine ⟨serving.sent,fun call member sender same => ?_,free⟩
      have follows := serving.follows call member
      have rank := ended call member
      cases phase : call.phase <;> simp only [Call.rank,phase,reduceCtorEq] at rank <;> rw [Call.Follows,phase] at follows
      · exact ⟨_,by rw [Call.reply,phase],Option.some.inj (follows.1.symm.trans same)⟩
      · rcases follows with none | stuck
        · cases none.symm.trans same
        · exact absurd (answerable call member (by rw [same]; rfl)) stuck

end

theorem decodeText (text : String) : decode text.toUTF8 = some (ofText text) := by
  have valid : text.toUTF8.IsValidUTF8 := text.isValidUTF8
  rw [decode,String.fromUTF8?,dif_pos valid]
  rfl

/- A path that `urlsplit` does not take. -/

def sampleEnv : Env := ⟨4300,900,900,900,900,by decide,id,fun _ => none,fun _ => [],fun _ => []⟩

def bracketMessage : Message :=
  ⟨["client".toUTF8,"\x7b\"path\":\"//[\"\x7d".toUTF8],fun _ _ => .answered (.dict []),⟨[],[],[]⟩⟩

def bracketRun : World Call Server Reply :=
  (serve sampleEnv).run (idle (server 8)) [.start bracketMessage,.advance 0,.advance 0]

/- A frame whose path cannot be read is not answered. -/
theorem unreadClosed {env : Env} {message : Message} {error} (sent : message.sender.isSome)
    (read : normalizedTransportPath env message.payload = .error error) (store : Server) :
    (serve env).run (idle store) [.start message,.advance 0,.advance 0] = ⟨store,[⟨message,0,.closed⟩],[]⟩ := by
  have entered : (serve env).enter message = ⟨message,0,.received⟩ := by
    simp only [serve,sent,if_true]
  have first : (serve env).step ⟨message,0,.received⟩ store = (⟨message,0,.raised error⟩,store,[]) := by
    simp only [serve,advance,read]
  have last : (serve env).step ⟨message,0,.raised error⟩ store = (⟨message,0,.closed⟩,store,[]) := rfl
  simp only [Machine.run,List.foldl_cons,List.foldl_nil,idle,entered,List.nil_append,Machine.next,
    List.getElem?_cons_zero,List.set_cons_zero,first,last]

theorem bracketUnanswered : Settled sampleEnv bracketRun ∧ bracketRun.trace = [] ∧ ¬ OneReply 8 bracketRun := by
  have payload : bracketMessage.payload = "\x7b\"path\":\"//[\"\x7d".toUTF8 := rfl
  have raises : (normalizedTransportPath sampleEnv bracketMessage.payload).toBool = false := by
    rw [normalizedTransportPath,payload,decodeText]
    decide +kernel
  have sender : bracketMessage.sender = some "client".toUTF8 := rfl
  have ran : bracketRun = ⟨server 8,[⟨bracketMessage,0,.closed⟩],[]⟩ := by
    cases read : normalizedTransportPath sampleEnv bracketMessage.payload with
    | error error => exact unreadClosed (by rw [sender]; rfl) read (server 8)
    | ok found =>
      rw [read] at raises
      cases raises
  rw [ran]
  refine ⟨fun index => ?_,rfl,fun replies => ?_⟩
  · cases index with
    | zero => exact @nextAdvance _ _ _ _ (serve sampleEnv) _ 0 ⟨bracketMessage,0,.closed⟩ rfl
    | succ index => exact nextIdle rfl
  · obtain ⟨reply,got,_⟩ := replies.each ⟨bracketMessage,0,.closed⟩ List.mem_cons_self _ sender
    cases got

end McpMemory.Transport
