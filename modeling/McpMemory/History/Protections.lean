import McpMemory.Curation.Policy
import McpMemory.History.Requests

/-! The protections that decide about a restore. `_analyze_restore` reads all that a target has,
and no step after it asks whether one has expired. -/
namespace McpMemory.History
open Memory Text Transaction
open Curation (Protection isProtectionActive)

/- What `_restore_protection_conflict` and `_restore_requires_confirmation` look for. -/
def restoreModes : List String := ["no_autonomous_mutation","manual_review_required"]

def RestoreAnalysis.targets (analysis : RestoreAnalysis) : List String := analysis.findings.protections.map (·.1)

def RestoreAnalysis.counted (analysis : RestoreAnalysis) : List Protection :=
  analysis.findings.protections.flatMap fun item => item.2.filter fun protection => restoreModes.contains protection.mode

/- The protections that should count: those of the targets that are active. -/
def Counts (clock : Curation.Clock) (protections : Protections) (analysis : RestoreAnalysis) (protection : Protection) : Prop :=
  protection ∈ protections ∧ protection.memoryId ∈ analysis.targets ∧ protection.mode ∈ restoreModes ∧
    isProtectionActive clock protection.expiresAt = true

def CountsActive (clock : Curation.Clock) (protections : Protections) (analysis : RestoreAnalysis) : Prop :=
  ∀ protection, protection ∈ analysis.counted ↔ Counts clock protections analysis protection

/- Each target has all the protections that it has in the table. -/
def Listed (protections : Protections) (findings : Findings) : Prop :=
  ∀ item ∈ findings.protections, item.2 = getProtections protections item.1

section
variable {env : Canonical.Env} {protections : Protections} {t : Tables} {findings after : Findings} {reason : Option String}

theorem assignListed {entries : List (String × Protections)} {memoryId : String}
    (listed : ∀ item ∈ entries, item.2 = getProtections protections item.1) :
    ∀ item ∈ assign entries memoryId (getProtections protections memoryId), item.2 = getProtections protections item.1 := by
  intro item member
  unfold assign at member
  split at member
  · obtain ⟨entry,there,rfl⟩ := List.mem_map.mp member
    split
    · rfl
    · exact listed entry there
  · rcases List.mem_append.mp member with there | new
    · exact listed item there
    · cases List.mem_singleton.mp new
      rfl

theorem scanRecordListed {change : InverseRecordChange} (listed : Listed protections findings)
    (ran : scanRecord env protections t change findings = .ok (after,reason)) : Listed protections after := by
  unfold scanRecord at ran
  dsimp only at ran
  split at ran
  · cases ran
    exact assignListed listed
  · obtain ⟨token,_,ran⟩ := checkedOk.mp ran
    split at ran <;> cases ran <;> exact assignListed listed

theorem scanEndListed {memoryId : Uuid} (listed : Listed protections findings)
    (ran : scanEnd env protections t memoryId findings = .ok (after,reason)) : Listed protections after := by
  unfold scanEnd at ran
  dsimp only at ran
  have kept : Listed protections (if findings.protections.any (·.1 == memoryId.text) then findings else { findings with
      protections := assign findings.protections memoryId.text (getProtections protections memoryId.text) }) := by
    split
    · exact listed
    · exact assignListed listed
  split at ran
  · cases ran
    exact kept
  · obtain ⟨token,_,ran⟩ := checkedOk.mp ran
    cases ran
    exact kept

theorem scanAllListed {α : Type} {scan : Scan α} (one : ∀ change before later reason, Listed protections before →
      scan change before = .ok (later,reason) → Listed protections later) :
    ∀ {changes : List α} {findings}, Listed protections findings → scanAll scan changes findings = .ok (after,reason) →
      Listed protections after
  | [],findings,listed,ran => by cases ran; exact listed
  | change::rest,findings,listed,ran => by
    obtain ⟨⟨middle,stopped⟩,first,ran⟩ := checkedOk.mp ran
    have kept := one change findings middle stopped listed first
    cases stopped with
    | some reason => cases ran; exact kept
    | none => exact scanAllListed one kept ran

theorem scanLinkListed {change : InverseLinkChange} (listed : Listed protections findings)
    (ran : scanLink env protections t change findings = .ok (after,reason)) : Listed protections after := by
  obtain ⟨⟨middle,stopped⟩,ends,ran⟩ := checkedOk.mp ran
  have kept : Listed protections middle := scanAllListed (fun _ _ _ _ => scanEndListed) listed ends
  cases stopped with
  | some reason => cases ran; exact kept
  | none =>
    obtain ⟨token,_,ran⟩ := checkedOk.mp ran
    split at ran <;> cases ran <;> exact kept

theorem analyzeListed {event : MutationEvent} {records : List RecordRevision} {links : List LinkRevision} {analysis}
    (ran : analyzeRestore env protections t event records links = .ok analysis) : Listed protections analysis.findings := by
  have nothing : Listed protections ⟨[],[],[]⟩ := fun _ member => absurd member List.not_mem_nil
  unfold analyzeRestore at ran
  split at ran
  · cases ran
    exact nothing
  · obtain ⟨⟨middle,stopped⟩,scanned,ran⟩ := checkedOk.mp ran
    have kept : Listed protections middle := scanAllListed (fun _ _ _ _ => scanRecordListed) nothing scanned
    cases stopped with
    | some reason => cases ran; exact kept
    | none =>
      obtain ⟨⟨last,reason⟩,ended,ran⟩ := checkedOk.mp ran
      cases ran
      exact scanAllListed (fun _ _ _ _ => scanLinkListed) kept ended

theorem memCounted {analysis : RestoreAnalysis} (listed : Listed protections analysis.findings) {protection : Protection} :
    protection ∈ analysis.counted ↔
      protection ∈ protections ∧ protection.memoryId ∈ analysis.targets ∧ protection.mode ∈ restoreModes := by
  simp only [RestoreAnalysis.counted,RestoreAnalysis.targets,List.mem_flatMap,List.mem_filter,List.contains_iff_mem,List.mem_map]
  constructor
  · rintro ⟨item,there,member,mode⟩
    rw [listed item there] at member
    obtain ⟨stored,named⟩ := List.mem_filter.mp member
    exact ⟨stored,⟨item,there,(beq_iff_eq.mp named).symm⟩,mode⟩
  · rintro ⟨stored,⟨item,there,named⟩,mode⟩
    refine ⟨item,there,?_,mode⟩
    rw [listed item there]
    exact List.mem_filter.mpr ⟨stored,beq_iff_eq.mpr named.symm⟩

end

theorem unraised {α ε δ : Type} {x : Except ε α} {wrap : ε → δ} {a} (ok : x.mapError wrap = .ok a) : x = .ok a := by
  cases x with
  | error error => cases ok
  | ok b => exact congrArg Except.ok (Except.ok.inj ok)

theorem restoreProtections (clock : Curation.Clock) {env : Canonical.Env} {database : Database} {request : RestoreRequest}
    {analysis : RestoreAnalysis} (analyzed : analyze env database request.targetEventId = .ok analysis) :
    CountsActive clock database.protections analysis ↔ ∀ protection ∈ database.protections,
      protection.memoryId ∈ analysis.targets → protection.mode ∈ restoreModes →
        isProtectionActive clock protection.expiresAt = true := by
  have listed : Listed database.protections analysis.findings := by
    unfold analyze at analyzed
    split at analyzed
    · cases analyzed
    · cases analyzed
    · have ran := unraised analyzed
      obtain ⟨records,_,ran⟩ := checkedOk.mp ran
      obtain ⟨links,_,ran⟩ := checkedOk.mp ran
      exact analyzeListed ran
  unfold CountsActive Counts
  constructor
  · intro same protection stored target mode
    exact ((same protection).mp ((memCounted listed).mpr ⟨stored,target,mode⟩)).2.2.2
  · intro active protection
    rw [memCounted listed]
    exact ⟨fun ⟨stored,target,mode⟩ => ⟨stored,target,mode,active protection stored target mode⟩,
      fun ⟨stored,target,mode,_⟩ => ⟨stored,target,mode⟩⟩

/- A protection that has run out still denies. -/

def relinked : Database := { Curation.linkedNotes with
  memory := { Curation.linkedNotes.memory with
    links := []
    events := [linkCreated.row]
    linkRevisions := [(created "earlier").row] }
  protections := [⟨Curation.firstId,"no_autonomous_mutation","for a day",none,"1970-01-01T00:00:00+00:00",
    some "1970-01-02T00:00:00+00:00"⟩] }

/- Two days after the epoch. -/
def thirdDay : Curation.Clock where
  fromIsoFormat text := if text = "1970-01-02T00:00:00+00:00" then some ⟨86400000000,some 0⟩ else none
  now := 2 * 86400000000

def relink : RestoreRequest := ⟨first,.all,[],[],none,"undo","key",true⟩

def standing : Protection := ⟨Curation.firstId,"no_autonomous_mutation","for good",none,"1970-01-01T00:00:00+00:00",none⟩

theorem relinkedSample : ∃ analysis,
    analyze plainEnv { relinked with protections := [standing] } relink.targetEventId = .ok analysis ∧
    CountsActive thirdDay [standing] analysis := by
  have analyzed : (analyze plainEnv { relinked with protections := [standing] } relink.targetEventId).toOption.isSome := by
    decide +kernel
  cases ran : analyze plainEnv { relinked with protections := [standing] } relink.targetEventId with
  | error error =>
    rw [ran] at analyzed
    cases analyzed
  | ok analysis =>
    refine ⟨analysis,rfl,(restoreProtections thirdDay ran).mpr fun protection member _ _ => ?_⟩
    cases List.mem_singleton.mp member
    rfl

theorem expiredDenies : ∃ analysis, analyze plainEnv relinked relink.targetEventId = .ok analysis ∧
    (verdict relink analysis).map (·.conflictDetails) = some [("code","protection_denied")] ∧
    relinked.protections.all (fun protection => !isProtectionActive thirdDay protection.expiresAt) ∧
    ¬ CountsActive thirdDay relinked.protections analysis := by
  have analyzed : (analyze plainEnv relinked relink.targetEventId).toOption.map (fun analysis =>
      ((verdict relink analysis).map (·.conflictDetails),analysis.counted)) =
      some (some [("code","protection_denied")],relinked.protections) := by decide +kernel
  have expired : relinked.protections.all (fun protection => !isProtectionActive thirdDay protection.expiresAt) := by decide +kernel
  cases ran : analyze plainEnv relinked relink.targetEventId with
  | error error =>
    rw [ran] at analyzed
    cases analyzed
  | ok analysis =>
    rw [ran] at analyzed
    obtain ⟨denied,counted⟩ := Prod.mk.inj (Option.some.inj analyzed)
    refine ⟨analysis,rfl,denied,expired,fun same => ?_⟩
    obtain ⟨protection,member⟩ := List.exists_mem_of_ne_nil relinked.protections (by decide +kernel)
    obtain ⟨_,_,_,active⟩ := (same protection).mp (counted ▸ member)
    have lapsed := List.all_eq_true.mp expired protection member
    rw [active] at lapsed
    cases lapsed

end McpMemory.History
