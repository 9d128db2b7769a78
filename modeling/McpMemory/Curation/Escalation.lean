import McpMemory.Curation.Candidates
import Mathlib.Data.Rat.Init

/-! `core/curation_quality_policy.py` beside `_escalate_quality_regression` of
`core/curation_quality.py`. The policy names the outcome of a mutation; the routine reads it back
from the evidence of a direct mutation, and for a replay looks at the counters instead. Of the
replay itself the model has what it reported. -/
namespace McpMemory.Curation.Escalation
open Candidates

inductive QualityOutcome where
  | productive
  | verifiedOnly
  | neutral
  | regressed
  | structuralOnly
  | unverified
  | unobserved
  deriving DecidableEq, Repr

def QualityOutcome.value : QualityOutcome → String
  | .productive => "productive"
  | .verifiedOnly => "verified_only"
  | .neutral => "neutral"
  | .regressed => "regressed"
  | .structuralOnly => "structural_only"
  | .unverified => "unverified"
  | .unobserved => "unobserved"

/- `QualityOutcome(text)`, with none for the ValueError. -/
def QualityOutcome.ofText (text : String) : Option QualityOutcome :=
  [.productive,.verifiedOnly,.neutral,.regressed,.structuralOnly,.unverified,.unobserved].find? (value · == text)

theorem outcomeValue (outcome : QualityOutcome) : QualityOutcome.ofText outcome.value = some outcome := by
  cases outcome <;> decide

structure Observation where
  mutationVerified : Bool
  queryTrusted : Bool
  consistencyVerified : Bool
  structuralOnly : Bool
  utilityDelta : Option Rat
  qualityObserved : Bool
  contentQualityDelta : Option Rat

def classifyQualityOutcome (observation : Observation) : QualityOutcome :=
  if !observation.mutationVerified || !observation.consistencyVerified then .unverified
  else if observation.structuralOnly then .structuralOnly
  else if !observation.queryTrusted || !observation.qualityObserved then
    match observation.contentQualityDelta with
    | some delta => if delta > 0 then .verifiedOnly else if delta < 0 then .regressed else .neutral
    | none => .unobserved
  else match observation.utilityDelta with
    | none => .verifiedOnly
    | some delta => if delta > 0 then .productive else if delta < 0 then .regressed else .verifiedOnly

def shouldEscalateQuality (outcome : QualityOutcome) (mutationVerified : Bool) : Bool :=
  outcome == .regressed && mutationVerified

/- What the evidence keeps of the classification, beside what the routine reads. -/
structure QualityEvidence extends Candidates.QualityEvidence where
  queryTrusted : Bool
  retrievalUtilityDelta : Option Rat
  contentQualityDelta : Option Rat

structure QualityMutation extends Candidates.QualityMutation where
  affectedMemoryIds : List String

/- What a replay of a query came to. -/
structure Replay where
  queryTrusted : Bool
  retrievalUtilityDelta : Rat
  retrievalRegressionCount : Int
  zeroResultChange : Int
  acceptanceMet : Option Bool
  neutralReason : Option String
  contentQualityDelta : Option Rat

def replayObservation (mutation : QualityMutation) (replay : Replay) : Observation :=
  ⟨mutation.verified,replay.queryTrusted,true,false,some replay.retrievalUtilityDelta,replay.neutralReason.isNone,
    replay.contentQualityDelta⟩

/- The last return of `_evaluate_action`. -/
def replayedEvidence (mutation : QualityMutation) (replay : Replay) : QualityEvidence where
  status :=
    if mutation.evidenceId.isSome then (classifyQualityOutcome (replayObservation mutation replay)).value
    else if replay.neutralReason.isNone then "evaluated"
    else QualityOutcome.unobserved.value
  retrievalRegressionCount := some (if replay.neutralReason.isNone then replay.retrievalRegressionCount else 0)
  zeroResultChange := some (if replay.neutralReason.isNone then replay.zeroResultChange else 0)
  acceptanceMet := replay.acceptanceMet
  neutralReason := replay.neutralReason
  queryTrusted := replay.queryTrusted
  retrievalUtilityDelta := some replay.retrievalUtilityDelta
  contentQualityDelta := replay.contentQualityDelta

/- The outcome of a mutation as its evidence has it. The status names it, or says that there was a
replay, of which the evidence keeps all that the policy looks at. -/
def outcomeOf (evidence : QualityEvidence) (mutation : QualityMutation) : Option QualityOutcome :=
  (QualityOutcome.ofText evidence.status).or
    (if evidence.status = "evaluated" then
      some (classifyQualityOutcome ⟨mutation.verified,evidence.queryTrusted,true,false,evidence.retrievalUtilityDelta,
        evidence.neutralReason.isNone,evidence.contentQualityDelta⟩)
    else none)

theorem replayOutcome {mutation : QualityMutation} {replay : Replay}
    (observed : mutation.evidenceId.isSome ∨ replay.neutralReason = none) :
    outcomeOf (replayedEvidence mutation replay) mutation =
      some (classifyQualityOutcome (replayObservation mutation replay)) := by
  unfold outcomeOf replayedEvidence
  cases direct : mutation.evidenceId.isSome with
  | true => simp [outcomeValue]
  | false =>
    have seen : replay.neutralReason = none := observed.resolve_left (by simp [direct])
    have unnamed : QualityOutcome.ofText "evaluated" = none := by decide
    simp [seen,unnamed,replayObservation]

/- `_escalate_quality_regression`, with nobody else at the candidate states. `clock` tells the time
of each attempt for each of the ids. -/

def alone (operation : Operation) : Nat → States → States
  | 0,states => states
  | remaining + 1,states => match operation.update (operation.attempts - (remaining + 1)) (states.rows operation.memoryId) with
    | none => states
    | some state => match compareAndSetCandidateState operation.memoryId (tokenOf (states.rows operation.memoryId)) state states with
      | .ok (some _,after) => after
      | .ok (none,_) => alone operation remaining states
      | .error _ => states

section
variable (run : CurationRun) (evidence : QualityEvidence) (mutation : QualityMutation) (clock : Nat → Nat → Int)

def escalateEach (place : Nat) : List String → States → States
  | [],states => states
  | memoryId::rest,states =>
    let operation := escalateQualityRegression run evidence.toQualityEvidence mutation.toQualityMutation memoryId (clock place)
    escalateEach (place + 1) rest (alone operation operation.attempts states)

def escalateQuality (states : States) : States := escalateEach run evidence mutation clock 0 mutation.affectedMemoryIds states

end

/- A replay that reported a loss or was not accepted. -/
structure Reported (evidence : QualityEvidence) (mutation : QualityMutation) : Prop where
  replayed : mutation.evidenceId = none ∧ evidence.status = "evaluated"
  lost : 0 < evidence.retrievalRegressionCount.getD 0 ∨ 0 < evidence.zeroResultChange.getD 0 ∨ evidence.acceptanceMet = some false

theorem reasonReported (evidence : QualityEvidence) (mutation : QualityMutation) :
    (escalationReason evidence.toQualityEvidence mutation.toQualityMutation).isSome ↔ Reported evidence mutation := by
  unfold escalationReason Candidates.shouldEscalateQuality
  by_cases status : evidence.status = "evaluated"
  · have apart : ("evaluated" == "regressed") = false := by decide
    cases direct : mutation.evidenceId with
    | some evidenceId =>
      have never : ¬ Reported evidence mutation := fun reported => by simpa [direct] using reported.replayed.1
      simp [status,apart,never]
    | none =>
      have same : Reported evidence mutation ↔ 0 < evidence.retrievalRegressionCount.getD 0 ∨
          0 < evidence.zeroResultChange.getD 0 ∨ evidence.acceptanceMet = some false :=
        ⟨Reported.lost,fun lost => ⟨⟨direct,status⟩,lost⟩⟩
      rw [same]
      grind
  · have never : ¬ Reported evidence mutation := fun reported => status reported.replayed.2
    simp [status,never]

/- What an escalation leaves of a candidate state. -/
structure Raised (count : Nat) (previous state : Option CandidateState) : Prop where
  disposition : state.map (·.disposition) = some .escalated
  reason : ∃ reason ∈ qualityFeedbackReasons, state.bind (·.lastDispositionReason) = some reason
  count : state.map (·.escalationCount) = some ((previous.map (·.escalationCount)).getD 0 + count)

section
variable (run : CurationRun) {evidence : QualityEvidence} {mutation : QualityMutation} (clock : Nat → Nat → Int)

theorem reasonFeedback {reason : String}
    (reasoned : escalationReason evidence.toQualityEvidence mutation.toQualityMutation = some reason) :
    reason ∈ qualityFeedbackReasons := by
  unfold escalationReason at reasoned
  simp only [qualityFeedbackReasons,List.mem_cons]
  grind

/- Alone the first attempt is written. -/
theorem aloneWrites {reason memoryId : String} {times : Nat → Int} (states : States)
    (reasoned : escalationReason evidence.toQualityEvidence mutation.toQualityMutation = some reason) :
    let operation := escalateQualityRegression run evidence.toQualityEvidence mutation.toQualityMutation memoryId times
    alone operation operation.attempts states =
      states.write (escalated run evidence.toQualityEvidence reason memoryId (times 0) (states.rows memoryId)) := by
  dsimp only [escalateQualityRegression]
  unfold alone
  simp only [reasoned,Option.map_some]
  have own (now : Int) : (escalated run evidence.toQualityEvidence reason memoryId now (states.rows memoryId)).memoryId =
      memoryId := rfl
  rw [setCases (own _),if_pos rfl]

theorem aloneRests {memoryId : String} {times : Nat → Int} (states : States)
    (silent : escalationReason evidence.toQualityEvidence mutation.toQualityMutation = none) :
    let operation := escalateQualityRegression run evidence.toQualityEvidence mutation.toQualityMutation memoryId times
    alone operation operation.attempts states = states := by
  dsimp only [escalateQualityRegression]
  unfold alone
  simp only [silent,Option.map_none]

theorem eachRests (silent : escalationReason evidence.toQualityEvidence mutation.toQualityMutation = none)
    (place : Nat) (ids : List String) (states : States) : escalateEach run evidence mutation clock place ids states = states := by
  induction ids generalizing place with
  | nil => rfl
  | cons memoryId rest ih => rw [escalateEach,aloneRests run states silent,ih]

theorem raisedOnce {reason memoryId : String} {now : Int} (reasoned : reason ∈ qualityFeedbackReasons)
    (previous : Option CandidateState) :
    Raised 1 previous (some (escalated run evidence.toQualityEvidence reason memoryId now previous)) :=
  ⟨rfl,⟨reason,reasoned,rfl⟩,rfl⟩

/- Each place of an id in the list raises its count by one. -/
theorem eachRaises {reason : String} (reasoned : escalationReason evidence.toQualityEvidence mutation.toQualityMutation = some reason)
    (place : Nat) (ids : List String) (states : States) (memoryId : String) :
    if memoryId ∈ ids then
      Raised (ids.count memoryId) (states.rows memoryId) ((escalateEach run evidence mutation clock place ids states).rows memoryId)
    else (escalateEach run evidence mutation clock place ids states).rows memoryId = states.rows memoryId := by
  induction ids generalizing place states with
  | nil => rfl
  | cons head rest ih =>
    have later := ih (place + 1) (states.write
      (escalated run evidence.toQualityEvidence reason head (clock place 0) (states.rows head)))
    rw [escalateEach,aloneWrites run states reasoned]
    by_cases same : memoryId = head
    · subst same
      have own : (states.write (escalated run evidence.toQualityEvidence reason memoryId (clock place 0)
          (states.rows memoryId))).rows memoryId =
          some (escalated run evidence.toQualityEvidence reason memoryId (clock place 0) (states.rows memoryId)) := if_pos rfl
      rw [if_pos List.mem_cons_self,List.count_cons_self]
      rw [own] at later
      split at later
      · refine { later with count := ?_ }
        rw [later.count]
        simp [escalated]
        omega
      · rename_i absent
        rw [later,List.count_eq_zero_of_not_mem absent]
        exact raisedOnce run (reasonFeedback reasoned) _
    · have other : (states.write (escalated run evidence.toQualityEvidence reason head (clock place 0)
          (states.rows head))).rows memoryId = states.rows memoryId := if_neg same
      rw [other] at later
      simpa [same,List.count_cons_of_ne (Ne.symm same)] using later

end

/- That something was found: the policy says so, or what the replay reported. -/
def regressionFound (evidence : QualityEvidence) (mutation : QualityMutation) : Prop :=
  (outcomeOf evidence mutation).any (shouldEscalateQuality · mutation.verified) = true ∨
    0 < evidence.retrievalRegressionCount.getD 0 ∨ 0 < evidence.zeroResultChange.getD 0 ∨ evidence.acceptanceMet = some false

structure RegressionsEscalate (run : CurationRun) (evidence : QualityEvidence) (mutation : QualityMutation)
    (clock : Nat → Nat → Int) (states : States) : Prop where
  escalated : (outcomeOf evidence mutation).any (shouldEscalateQuality · mutation.verified) = true →
    ∀ memoryId ∈ mutation.affectedMemoryIds,
      Raised 1 (states.rows memoryId) ((escalateQuality run evidence mutation clock states).rows memoryId)
  untouched : ¬ regressionFound evidence mutation → escalateQuality run evidence mutation clock states = states

theorem regressionsEscalate (run : CurationRun) (evidence : QualityEvidence) (mutation : QualityMutation)
    (clock : Nat → Nat → Int) (states : States) : RegressionsEscalate run evidence mutation clock states ↔
      ((outcomeOf evidence mutation).any (shouldEscalateQuality · mutation.verified) = true → mutation.affectedMemoryIds ≠ [] →
        Reported evidence mutation ∧ mutation.affectedMemoryIds.Nodup) := by
  have unreported (missing : ¬ Reported evidence mutation) : escalateQuality run evidence mutation clock states = states := by
    rw [← reasonReported,Option.not_isSome_iff_eq_none] at missing
    exact eachRests run clock missing 0 _ states
  have raised (reported : Reported evidence mutation) (memoryId : String) (member : memoryId ∈ mutation.affectedMemoryIds) :
      Raised (mutation.affectedMemoryIds.count memoryId) (states.rows memoryId)
        ((escalateQuality run evidence mutation clock states).rows memoryId) := by
    obtain ⟨reason,reasoned⟩ := Option.isSome_iff_exists.mp ((reasonReported evidence mutation).mpr reported)
    have each := eachRaises run clock reasoned 0 mutation.affectedMemoryIds states memoryId
    rwa [if_pos member] at each
  constructor
  · intro holds regressed affected
    have reported : Reported evidence mutation := by
      by_contra missing
      obtain ⟨memoryId,member⟩ := List.exists_mem_of_ne_nil _ affected
      have counted := (holds.escalated regressed memoryId member).count
      rw [unreported missing] at counted
      cases before : states.rows memoryId <;> simp [before] at counted
    refine ⟨reported,List.nodup_iff_count_le_one.mpr fun memoryId => ?_⟩
    by_cases member : memoryId ∈ mutation.affectedMemoryIds
    · have once := (holds.escalated regressed memoryId member).count
      rw [(raised reported memoryId member).count] at once
      simp at once
      omega
    · rw [List.count_eq_zero_of_not_mem member]
      exact Nat.zero_le 1
  · intro condition
    refine ⟨fun regressed memoryId member => ?_,fun nothing => unreported fun reported => nothing (.inr reported.lost)⟩
    obtain ⟨reported,distinct⟩ := condition regressed (List.ne_nil_of_mem member)
    have each := raised reported memoryId member
    rwa [List.count_eq_one_of_mem distinct member] at each

/- Direct evidence of a verified mutation with a loss. -/
def directRun : CurationRun := ⟨"00000000-0000-0000-0000-00000000000a","notes",some "coverage"⟩

def directEvidence : QualityEvidence := ⟨⟨"regressed",some 1,some 0,none,none⟩,true,some (-1 / 2),none⟩

def directMutation : QualityMutation := ⟨⟨some "evidence",true⟩,[noteId]⟩

theorem directRegression : ¬ RegressionsEscalate directRun directEvidence directMutation (fun _ _ => 0) .empty := by
  intro holds
  have raised := (holds.escalated (by decide) noteId List.mem_cons_self).disposition
  exact absurd raised (by decide)

end McpMemory.Curation.Escalation
