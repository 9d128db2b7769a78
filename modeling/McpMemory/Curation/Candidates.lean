import McpMemory.Lib.Interleave
import McpMemory.Lib.Json
import Mathlib.Data.List.Nodup

/-! Several clients over the candidate states of the curator. A client reads a state and writes
with `compare_and_set_candidate_state`, which compares one column: the token of the revision that
was last looked at. Who keeps that token as it is lets others who have read before write over it. -/
namespace McpMemory.Curation.Candidates
open Interleave

inductive CandidateDisposition where
  | pending
  | retained
  | actioned
  | cooldown
  | escalated
  deriving DecidableEq, Repr

/- Times are in microseconds. -/
structure CandidateState where
  memoryId : String
  lastObservedRevisionToken : Option String
  disposition : CandidateDisposition
  consecutiveNoOpCount : Nat
  cooldownUntil : Option Int
  lastDispositionReason : Option String
  lastFrontierKey : Option String
  lastRunId : Option String
  escalationCount : Nat
  lastEscalatedStrategy : Option String
  lastConsideredAt : Option Int
  lastConsideredStrategy : Option String
  lastMutationFamily : Option String
  lastMutatedAt : Option Int
  coverageEvidence : Json.Object

def newState (memoryId : String) : CandidateState :=
  ⟨memoryId,none,.pending,0,none,none,none,none,0,none,none,none,none,none,[]⟩

/- `curation_candidate_state` by its primary key. `writes` is history only. -/
structure States where
  rows : String → Option CandidateState
  writes : String → Nat

def States.empty : States := ⟨fun _ => none,fun _ => 0⟩

def States.write (states : States) (state : CandidateState) : States where
  rows memoryId := if memoryId = state.memoryId then some state else states.rows memoryId
  writes memoryId := if memoryId = state.memoryId then states.writes memoryId + 1 else states.writes memoryId

def tokenOf (state : Option CandidateState) : Option String := state.bind (·.lastObservedRevisionToken)

/- Without a token to expect it is an INSERT that on a conflict replaces a row without one. -/
def compareAndSetCandidateState (memoryId : String) (expectedToken : Option String) (state : CandidateState)
    (states : States) : Except String (Option CandidateState × States) :=
  if state.memoryId ≠ memoryId then .error "candidate state memory_id does not match CAS key"
  else match expectedToken with
    | none => match states.rows memoryId with
      | none => .ok (some state,states.write state)
      | some row => if row.lastObservedRevisionToken.isNone then .ok (some state,states.write state)
        else .ok (none,states)
    | some token => match states.rows memoryId with
      | none => .ok (none,states)
      | some row => if row.lastObservedRevisionToken = some token then .ok (some state,states.write state)
        else .ok (none,states)

theorem setCases {memoryId expectedToken state} {states : States} (own : state.memoryId = memoryId) :
    compareAndSetCandidateState memoryId expectedToken state states =
      if tokenOf (states.rows memoryId) = expectedToken then .ok (some state,states.write state)
      else .ok (none,states) := by
  unfold compareAndSetCandidateState tokenOf
  rw [if_neg (not_not.mpr own)]
  cases expectedToken <;> cases states.rows memoryId <;> simp

/- The clients. One that has nothing to write, or is told that the state is another candidate's,
is at its end; so is one whose attempts are used up. -/

structure Operation where
  memoryId : String
  attempts : Nat
  isEscalation : Bool
  /-- what is written over what was read -/
  update : Nat → Option CandidateState → Option CandidateState

inductive Client where
  | reading (operation : Operation) (attempt : Nat)
  | comparing (operation : Operation) (attempt : Nat) (previous : Option CandidateState) (seen : Nat)
  | ended

/- A write that was reported as done, with what the client had read and what was there. -/
structure Applied where
  operation : Operation
  read : Option CandidateState
  seen : Nat
  found : Option CandidateState
  version : Nat
  state : CandidateState

def step (client : Client) (states : States) : Client × States × List Applied :=
  match client with
  | .reading operation attempt =>
    if attempt < operation.attempts then
      (.comparing operation attempt (states.rows operation.memoryId) (states.writes operation.memoryId),states,[])
    else (.ended,states,[])
  | .comparing operation attempt previous seen => match operation.update attempt previous with
    | none => (.ended,states,[])
    | some state => match compareAndSetCandidateState operation.memoryId (tokenOf previous) state states with
      | .error _ => (.ended,states,[])
      | .ok (none,_) => (.reading operation (attempt + 1),states,[])
      | .ok (some state,after) => (.ended,after,[⟨operation,previous,seen,states.rows operation.memoryId,
          states.writes operation.memoryId,state⟩])
  | .ended => (.ended,states,[])

def clients : Machine Operation Client States Applied where
  enter operation := .reading operation 0
  step := step

/- `_escalate_quality_regression` for one memory. -/

structure QualityEvidence where
  status : String
  retrievalRegressionCount : Option Int
  zeroResultChange : Option Int
  acceptanceMet : Option Bool
  neutralReason : Option String

structure QualityMutation where
  evidenceId : Option String
  verified : Bool

structure CurationRun where
  runId : String
  frontierKey : String
  selectorStrategy : Option String

/- `should_escalate_quality` refuses a status that is no `QualityOutcome`, as any but one. -/
def shouldEscalateQuality (status : String) (verified : Bool) : Bool := status == "regressed" && verified

def escalationReason (evidence : QualityEvidence) (mutation : QualityMutation) : Option String :=
  if mutation.evidenceId.isSome && !shouldEscalateQuality evidence.status mutation.verified then none
  else if evidence.status == "evaluated" &&
      (0 < evidence.retrievalRegressionCount.getD 0 || 0 < evidence.zeroResultChange.getD 0) then
    some (if 0 < evidence.retrievalRegressionCount.getD 0 then "retrieval_regression" else "zero_result_regression")
  else if evidence.status == "evaluated" && evidence.acceptanceMet == some false then some "acceptance_not_met"
  else none

def qualityRegressionCooldown : Int := 6 * 3600000000

def jsonOption {α : Type} (toJson : α → Json) (value : Option α) : Json := (value.map toJson).getD .null

def regressionEvidence (evidence : QualityEvidence) (reason : String) : Json := .obj [("reason",.str reason),
  ("retrieval_regression_count",.int (evidence.retrievalRegressionCount.getD 0)),
  ("zero_result_change",.int (evidence.zeroResultChange.getD 0)),
  ("acceptance_met",jsonOption .bool evidence.acceptanceMet),("neutral_reason",jsonOption .str evidence.neutralReason)]

def escalated (run : CurationRun) (evidence : QualityEvidence) (reason memoryId : String) (now : Int)
    (previous : Option CandidateState) : CandidateState where
  memoryId := memoryId
  lastObservedRevisionToken := tokenOf previous
  disposition := .escalated
  consecutiveNoOpCount := 0
  cooldownUntil := some (now + qualityRegressionCooldown)
  lastDispositionReason := some reason
  lastFrontierKey := some run.frontierKey
  lastRunId := some run.runId
  escalationCount := (previous.map (·.escalationCount)).getD 0 + 1
  lastEscalatedStrategy := run.selectorStrategy
  lastConsideredAt := previous.bind (·.lastConsideredAt)
  lastConsideredStrategy := (previous.bind (·.lastConsideredStrategy)).or run.selectorStrategy
  lastMutationFamily := previous.bind (·.lastMutationFamily)
  lastMutatedAt := previous.bind (·.lastMutatedAt)
  coverageEvidence := Json.set ((previous.map (·.coverageEvidence)).getD []) "quality_regression" (regressionEvidence evidence reason)

/- `clock` is what the clock shows at each attempt. -/
def escalateQualityRegression (run : CurationRun) (evidence : QualityEvidence) (mutation : QualityMutation)
    (memoryId : String) (clock : Nat → Int) : Operation where
  memoryId := memoryId
  attempts := 3
  isEscalation := true
  update attempt previous := (escalationReason evidence mutation).map fun reason =>
    escalated run evidence reason memoryId (clock attempt) previous

/- The clients of `curator_support.py`, each with the token of the memory as it is now. -/

def qualityFeedbackReasons : List String := ["retrieval_regression","zero_result_regression","acceptance_not_met"]

def isQualityFeedback (state : CandidateState) : Bool :=
  state.disposition == .escalated && state.lastDispositionReason.any qualityFeedbackReasons.contains

def noOpCooldownBase : Int := 3600000000

def noOpCooldownMax : Int := 24 * 3600000000

def noOpDisposition (identity memoryId : String) (now : Int) (previous : Option CandidateState) : Option CandidateState :=
  if previous.any fun state => state.lastObservedRevisionToken != some identity || isQualityFeedback state then none
  else
    let noOpCount := (previous.map (·.consecutiveNoOpCount + 1)).getD 1
    some { previous.getD (newState memoryId) with
      lastObservedRevisionToken := some identity
      disposition := .cooldown
      consecutiveNoOpCount := noOpCount
      cooldownUntil := some (now + min noOpCooldownMax (noOpCooldownBase * Int.ofNat (Nat.pow 2 (min (noOpCount - 1) 10))))
      lastDispositionReason := some "agent_no_mutations" }

def recordCuratorNoOpDisposition (identity memoryId : String) (now : Int) : Operation where
  memoryId := memoryId
  attempts := 1
  isEscalation := false
  update _ := noOpDisposition identity memoryId now

def revised (identity : String) (state : CandidateState) : CandidateState :=
  let state := { state with
    lastObservedRevisionToken := some identity
    cooldownUntil := none
    consecutiveNoOpCount := 0 }
  if isQualityFeedback state then state
  else { state with
    disposition := .pending
    lastDispositionReason := some "candidate_revision_or_adjacency_changed" }

/- What `filter_curator_candidates` writes of one candidate. -/
def filterCuratorCandidate (identity memoryId : String) : Operation where
  memoryId := memoryId
  attempts := 1
  isEscalation := false
  update _ previous := (previous.filter (·.lastObservedRevisionToken != some identity)).map (revised identity)

/- An escalation adds one to the count, and any other client keeps it. -/
def Operation.Counts (operation : Operation) : Prop := ∀ attempt previous state,
  operation.update attempt previous = some state →
    state.escalationCount = (previous.map (·.escalationCount)).getD 0 + if operation.isEscalation then 1 else 0

theorem escalateCounts {run evidence mutation memoryId clock} :
    (escalateQualityRegression run evidence mutation memoryId clock).Counts := by
  intro attempt previous state updated
  obtain ⟨reason,_,rfl⟩ := Option.map_eq_some_iff.mp updated
  rfl

theorem noOpCounts {identity memoryId now} : (recordCuratorNoOpDisposition identity memoryId now).Counts := by
  intro attempt previous state updated
  change noOpDisposition identity memoryId now previous = some state at updated
  unfold noOpDisposition at updated
  split at updated
  · cases updated
  · cases updated
    cases previous <;> rfl

theorem filterCounts {identity memoryId} : (filterCuratorCandidate identity memoryId).Counts := by
  intro attempt previous state updated
  obtain ⟨before,there,rfl⟩ := Option.map_eq_some_iff.mp updated
  rw [(Option.filter_eq_some_iff.mp there).1]
  unfold revised
  dsimp only
  split <;> rfl

/- Whether the client has read this candidate and is to compare with this token. -/
def Client.expects (memoryId : String) (token : Option String) : Client → Bool
  | .comparing operation _ previous _ => operation.memoryId == memoryId && tokenOf previous == token
  | _ => false

/- What the next step of the client stores. -/
def Client.writing (states : States) : Client → Option CandidateState
  | .comparing operation attempt previous _ => (operation.update attempt previous).filter fun state =>
      state.memoryId == operation.memoryId && tokenOf (states.rows operation.memoryId) == tokenOf previous
  | _ => none

/- No write stores a token that another client, which has read the candidate before, is to compare with. -/
def isFresh (w : World Client States Applied) : Event Operation → Bool
  | .start _ => true
  | .advance index => match w.calls[index]?.bind (Client.writing w.store) with
    | none => true
    | some state => (w.calls.eraseIdx index).all (!Client.expects state.memoryId state.lastObservedRevisionToken ·)

def Client.operation : Client → Option Operation
  | .reading operation _ => some operation
  | .comparing operation _ _ _ => some operation
  | .ended => none

/- What a client has read is what is there, or its token is not. -/
def Current (states : States) : Client → Prop
  | .comparing operation _ previous seen =>
    previous = states.rows operation.memoryId ∧ seen = states.writes operation.memoryId ∨
      tokenOf (states.rows operation.memoryId) ≠ tokenOf previous
  | _ => True

/- A step reads, gives up or tries again, or writes what `writing` says. -/
theorem stepCases (client : Client) (states : States) :
    (client.writing states = none ∧ (step client states).2 = (states,[]) ∧ Current states (step client states).1 ∧
      ∀ operation ∈ (step client states).1.operation, client.operation = some operation) ∨
    ∃ operation attempt previous seen state, client = .comparing operation attempt previous seen ∧
      operation.update attempt previous = some state ∧ client.writing states = some state ∧ state.memoryId = operation.memoryId ∧
      tokenOf (states.rows operation.memoryId) = tokenOf previous ∧ step client states = (.ended,states.write state,
        [⟨operation,previous,seen,states.rows operation.memoryId,states.writes operation.memoryId,state⟩]) := by
  cases client with
  | ended => exact .inl ⟨rfl,rfl,trivial,fun _ member => absurd member (by simp [step,Client.operation])⟩
  | reading operation attempt =>
    refine .inl ⟨rfl,?_⟩
    unfold step
    dsimp only
    split
    · exact ⟨rfl,.inl ⟨rfl,rfl⟩,fun _ member => member⟩
    · exact ⟨rfl,trivial,fun _ member => absurd member (by simp [Client.operation])⟩
  | comparing operation attempt previous seen =>
    cases updated : operation.update attempt previous with
    | none =>
      refine .inl ?_
      simp [step,Client.writing,updated,Current,Client.operation]
    | some state =>
      by_cases own : state.memoryId = operation.memoryId
      · by_cases matched : tokenOf (states.rows operation.memoryId) = tokenOf previous
        · refine .inr ⟨operation,attempt,previous,seen,state,rfl,updated,?_,own,matched,?_⟩
          · simp [Client.writing,updated,own,matched]
          · simp [step,updated,setCases own,matched]
        · refine .inl ?_
          simp [step,Client.writing,updated,setCases own,matched,Current,Client.operation]
      · refine .inl ?_
        simp [step,Client.writing,updated,compareAndSetCandidateState,own,Current,Client.operation]

theorem stillCurrent {states : States} {client : Client} {state : CandidateState} (current : Current states client)
    (apart : client.expects state.memoryId state.lastObservedRevisionToken = false) : Current (states.write state) client := by
  cases client with
  | reading operation attempt => trivial
  | ended => trivial
  | comparing operation attempt previous seen =>
    unfold Client.expects at apart
    dsimp only at apart
    unfold Current States.write
    dsimp only
    by_cases same : operation.memoryId = state.memoryId
    · rw [if_pos same,if_pos same]
      rw [same,beq_self_eq_true,Bool.true_and] at apart
      exact .inr fun other => absurd (beq_iff_eq.mpr other.symm) (by rw [Bool.not_eq_true]; exact apart)
    · rw [if_neg same,if_neg same]
      exact current

/- Every write that was reported as done was made over what its client had read, and no two over
the same. -/
structure Exact (trace : List Applied) : Prop where
  read : ∀ applied ∈ trace, applied.found = applied.read ∧ applied.version = applied.seen
  once : (trace.map fun applied => (applied.operation.memoryId,applied.seen)).Nodup

structure Kept (w : World Client States Applied) : Prop where
  current : ∀ client ∈ w.calls, Current w.store client
  exact : Exact w.trace
  past : ∀ applied ∈ w.trace, applied.seen < w.store.writes applied.operation.memoryId

theorem memSet {α : Type} {l : List α} {index : Nat} {a b : α} (member : b ∈ l.set index a) : b = a ∨ b ∈ l.eraseIdx index := by
  obtain ⟨i,found⟩ := List.mem_iff_getElem?.mp member
  rw [List.getElem?_set] at found
  split at found
  · split at found
    · exact .inl (Option.some.inj found).symm
    · cases found
  · rename_i apart
    exact .inr (List.mem_eraseIdx_iff_getElem?.mpr ⟨i,Ne.symm apart,found⟩)

theorem nextKept {w : World Client States Applied} {event : Event Operation} (fresh : isFresh w event = true) (kept : Kept w) :
    Kept (clients.next w event) := by
  cases event with
  | start operation =>
    rw [nextStart]
    refine { kept with current := fun client member => ?_ }
    rcases List.mem_append.mp member with member | member
    · exact kept.current client member
    · rw [List.mem_singleton.mp member]
      trivial
  | advance index =>
    cases found : w.calls[index]? with
    | none =>
      rw [nextIdle found]
      exact kept
    | some client =>
      rw [nextAdvance found]
      change Kept ⟨(step client w.store).2.1,w.calls.set index (step client w.store).1,(step client w.store).2.2 ++ w.trace⟩
      rcases stepCases client w.store with ⟨_,quiet,current,_⟩ | ⟨operation,attempt,previous,seen,state,rfl,_,writing,own,matched,stepped⟩
      · rw [quiet]
        refine { kept with current := fun other member => ?_ }
        rcases memSet member with rfl | member
        · exact current
        · exact kept.current other (List.mem_of_mem_eraseIdx member)
      · have apart : ∀ other ∈ w.calls.eraseIdx index, other.expects state.memoryId state.lastObservedRevisionToken = false := by
          unfold isFresh at fresh
          dsimp only at fresh
          rw [found,Option.bind_some,writing] at fresh
          exact fun other member => Bool.not_eq_true' .. ▸ List.all_eq_true.mp fresh other member
        obtain ⟨same,version⟩ := (kept.current _ (List.mem_of_getElem? found)).resolve_right (not_not.mpr matched)
        rw [stepped]
        refine ⟨fun other member => ?_,⟨fun applied member => ?_,?_⟩,fun applied member => ?_⟩
        · rcases memSet member with rfl | member
          · trivial
          · exact stillCurrent (kept.current other (List.mem_of_mem_eraseIdx member)) (apart other member)
        · rcases List.mem_cons.mp member with rfl | member
          · exact ⟨same.symm,version.symm⟩
          · exact kept.exact.read applied member
        · refine List.nodup_cons.mpr ⟨fun member => ?_,kept.exact.once⟩
          obtain ⟨applied,there,equal⟩ := List.mem_map.mp member
          obtain ⟨named,early⟩ := Prod.mk.inj equal
          have before := kept.past applied there
          rw [named,early,version] at before
          exact Nat.lt_irrefl _ before
        · unfold States.write
          dsimp only
          rcases List.mem_cons.mp member with rfl | member
          · rw [if_pos own.symm,version]
            exact Nat.lt_succ_self _
          · have before := kept.past applied member
            split
            · exact Nat.lt_succ_of_lt before
            · exact before

def escalationCount (states : States) (memoryId : String) : Nat := ((states.rows memoryId).map (·.escalationCount)).getD 0

/- The escalations of a memory that were reported as done. -/
def escalations (trace : List Applied) (memoryId : String) : Nat :=
  trace.countP fun applied => applied.operation.memoryId == memoryId && applied.operation.isEscalation

structure Counted (start : States) (w : World Client States Applied) : Prop where
  counts : ∀ client ∈ w.calls, ∀ operation ∈ client.operation, operation.Counts
  grown : ∀ memoryId, escalationCount w.store memoryId = escalationCount start memoryId + escalations w.trace memoryId

theorem nextCounted {start : States} {w : World Client States Applied} {event : Event Operation} (kept : Kept w)
    (counting : ∀ operation, event = .start operation → operation.Counts) (counted : Counted start w) :
    Counted start (clients.next w event) := by
  cases event with
  | start operation =>
    rw [nextStart]
    refine { counted with counts := fun client member => ?_ }
    rcases List.mem_append.mp member with member | member
    · exact counted.counts client member
    · rw [List.mem_singleton.mp member]
      intro other same
      cases same
      exact counting operation rfl
  | advance index =>
    cases found : w.calls[index]? with
    | none =>
      rw [nextIdle found]
      exact counted
    | some client =>
      have member := List.mem_of_getElem? found
      rw [nextAdvance found]
      change Counted start ⟨(step client w.store).2.1,w.calls.set index (step client w.store).1,(step client w.store).2.2 ++ w.trace⟩
      rcases stepCases client w.store with ⟨_,quiet,_,goes⟩ | ⟨operation,attempt,previous,seen,state,rfl,updated,_,own,matched,stepped⟩
      · rw [quiet]
        refine { counted with counts := fun other there => ?_ }
        rcases memSet there with rfl | there
        · exact fun operation same => counted.counts client member operation (goes operation same)
        · exact counted.counts other (List.mem_of_mem_eraseIdx there)
      · obtain ⟨same,_⟩ := (kept.current _ member).resolve_right (not_not.mpr matched)
        have count := counted.counts _ member operation rfl attempt previous state updated
        rw [stepped]
        refine ⟨fun other there => ?_,fun memoryId => ?_⟩
        · rcases memSet there with rfl | there
          · exact fun operation none => absurd none (by simp [Client.operation])
          · exact counted.counts other (List.mem_of_mem_eraseIdx there)
        · have before := counted.grown memoryId
          unfold escalationCount escalations at before ⊢
          unfold States.write
          dsimp only
          rw [List.singleton_append,List.countP_cons]
          by_cases here : memoryId = state.memoryId
          · rw [if_pos here,Option.map_some,Option.getD_some,count,same,← own,← here,before]
            cases operation.isEscalation <;> simp
            omega
          · rw [if_neg here,before]
            have apart : (operation.memoryId == memoryId) = false := beq_false_of_ne fun equal => here (equal.symm.trans own.symm)
            simp [apart]

/- No update is lost. -/
structure NoLostUpdate (start : States) (events : List (Event Operation)) : Prop where
  exact : Exact (clients.run (idle start) events).trace
  grown : (∀ operation, .start operation ∈ events → operation.Counts) → ∀ memoryId,
    escalationCount (clients.run (idle start) events).store memoryId =
      escalationCount start memoryId + escalations (clients.run (idle start) events).trace memoryId

theorem freshKeepsUpdates (start : States) (events : List (Event Operation))
    (fresh : Meets clients (fun w event => isFresh w event = true) (idle start) events) : NoLostUpdate start events := by
  have begins : Kept (idle start) := ⟨fun _ member => absurd member List.not_mem_nil,
    ⟨fun _ member => absurd member List.not_mem_nil,List.nodup_nil⟩,fun _ member => absurd member List.not_mem_nil⟩
  refine ⟨(runMeets (fun _ _ => nextKept) fresh begins).exact,fun counting => ?_⟩
  have both : Meets clients (fun w event => isFresh w event = true ∧ ∀ operation, event = .start operation → operation.Counts)
      (idle start) events := meetsAt.mpr fun n event found =>
    ⟨meetsAt.mp fresh n event found,fun operation same => counting operation (same ▸ List.mem_of_getElem? found)⟩
  have kept : ∀ (w : World Client States Applied) (event : Event Operation),
      isFresh w event = true ∧ (∀ operation, event = .start operation → operation.Counts) →
      Kept w ∧ Counted start w → Kept (clients.next w event) ∧ Counted start (clients.next w event) :=
    fun _ _ ok inv => ⟨nextKept ok.1 inv.1,nextCounted inv.1 ok.2 inv.2⟩
  exact (runMeets kept both ⟨begins,⟨fun _ member => absurd member List.not_mem_nil,fun _ => rfl⟩⟩).2.grown

/- Two clients that read one candidate before either writes. -/
def readBoth (one other : Operation) : List (Event Operation) :=
  [.start one,.start other,.advance 0,.advance 1,.advance 0,.advance 1,.advance 1,.advance 1]

def noteId : String := "00000000-0000-0000-0000-000000000001"

def regressed : Operation := escalateQualityRegression ⟨"00000000-0000-0000-0000-00000000000a","notes",some "coverage"⟩
  ⟨"evaluated",some 1,none,none,none⟩ ⟨none,true⟩ noteId fun _ => 0

theorem freshSample : NoLostUpdate .empty (readBoth (recordCuratorNoOpDisposition "token" noteId 0) regressed) :=
  freshKeepsUpdates .empty (readBoth (recordCuratorNoOpDisposition "token" noteId 0) regressed) (by decide +kernel)

theorem escalationLost : ¬ NoLostUpdate .empty (readBoth regressed regressed) := by
  intro kept
  have counting : ∀ operation, .start operation ∈ readBoth regressed regressed → operation.Counts := by
    intro operation member
    have same : operation = regressed := by simpa [readBoth] using member
    rw [same]
    exact escalateCounts
  have grown := kept.grown counting noteId
  exact absurd grown (by decide +kernel)

end McpMemory.Curation.Candidates
