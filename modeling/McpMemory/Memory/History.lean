import McpMemory.Memory.Rows

/-! The history that the tables hold: what leaves it alone, and what the revisions add to it. -/
namespace McpMemory.Memory
open Transaction

abbrev Chronicle := List MutationEvent × List RecordRevision × List LinkRevision

def chronicle (t : Tables) : Chronicle := (t.events,t.recordRevisions,t.linkRevisions)

def Unrecorded (before after : Tables) : Prop := chronicle after = chronicle before

variable {α : Type} {free ends : String → Prop}

theorem unrecordedDiffers {before after : Tables} (differs : Differs free ends before after) :
    Unrecorded before after := by
  simp only [Unrecorded,chronicle,differs.events,differs.recordRevisions,differs.linkRevisions]

theorem unrecordedRepairIntent (intent : RepairIntent) : Allows Unrecorded (insertRepairIntent intent) :=
  fun t a after ran => unrecordedDiffers
    (@sparesInsertRepairIntent (fun _ => True) (fun _ => True) intent t a after ran)

/- The rows that the history statements add. -/

theorem insertEventOk {event : MutationEvent} {t : Tables} {a after} (ran : insertEvent event t = .ok (a,after)) :
    after = { t with events := t.events ++ [event] } := by
  unfold insertEvent at ran
  repeat' split at ran
  all_goals first | cases ran; done | cases ran; rfl

theorem insertRecordRevisionOk {revision : RecordRevision} {t : Tables} {a after}
    (ran : insertRecordRevision revision t = .ok (a,after)) :
    after = { t with recordRevisions := t.recordRevisions ++ [revision] } := by
  unfold insertRecordRevision at ran
  repeat' split at ran
  all_goals first | cases ran; done | cases ran; rfl

theorem insertLinkRevisionOk {revision : LinkRevision} {t : Tables} {a after}
    (ran : insertLinkRevision revision t = .ok (a,after)) :
    after = { t with linkRevisions := t.linkRevisions ++ [revision] } := by
  unfold insertLinkRevision at ran
  repeat' split at ran
  all_goals first | cases ran; done | cases ran; rfl

variable {σ ε : Type} (port : Port σ ε) (env : Canonical.Env)

/- The revision of a memory whose token changed, or that came or went. -/
structure Revised (marks : Canonical.Separators) (eventId : String) (before after : Records)
    (revision : RecordRevision) : Prop where
  event : revision.eventId = eventId
  role : revision.role = "target"
  beforeExists : revision.beforeExists = (before.lookup revision.memoryId).isSome
  afterExists : revision.afterExists = (after.lookup revision.memoryId).isSome
  beforeSnapshot : optionally (snapshotText port env marks) (before.lookup revision.memoryId) =
    .ok revision.beforeSnapshot
  afterSnapshot : optionally (snapshotText port env marks) (after.lookup revision.memoryId) =
    .ok revision.afterSnapshot
  beforeToken : optionally (token port env) (before.lookup revision.memoryId) = .ok revision.beforeToken
  afterToken : optionally (token port env) (after.lookup revision.memoryId) = .ok revision.afterToken

variable {port env} {marks : Canonical.Separators} {eventId : String} {before after : Records}

theorem ensuresRecordRevision {inv : σ → Prop} {memoryId : String} (kept : ∀ work changed revision, inv work →
      Revised port env marks eventId before after revision → revision.memoryId = memoryId →
      insertRecordRevision revision (port.tables work) = .ok ((),changed) → inv (port.put changed work)) :
    Ensures inv (writeRecordRevision port env marks eventId before after memoryId) fun _ => True := by
  refine ensuresBind (ensuresLift _) fun same _ => ?_
  cases same with
  | true => exact ensuresPure trivial
  | false =>
    refine ensuresBind (ensuresGiven _) fun beforeSnapshot first => ensuresBind (ensuresGiven _)
      fun afterSnapshot second => ensuresBind (ensuresGiven _) fun beforeToken third =>
      ensuresBind (ensuresGiven _) fun afterToken fourth => ensuresStatement fun work a changed start taken => ?_
    split at taken <;> cases taken
    exact ⟨kept work _ _ start ⟨rfl,rfl,rfl,rfl,first,second,third,fourth⟩ rfl ‹_›,trivial⟩

end McpMemory.Memory
