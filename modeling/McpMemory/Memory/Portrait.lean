import McpMemory.Memory.Schema

/-! What belongs to one memory: its row, its mappings and the links at either end. Each SQL
statement changes this only for the memories that it names. -/
namespace McpMemory.Memory
open Table

structure Portrait where
  row : Option MemoryRow
  workspaces : List (String × String)
  tags : List (String × Int)
  links : List MemoryLink

def touches (memoryId : String) (link : MemoryLink) : Bool :=
  link.sourceId == memoryId || link.targetId == memoryId

def portrait (memoryId : String) (t : Tables) : Portrait := ⟨selectRow memoryId t,
  t.workspaces.filter (·.1 == memoryId),t.memoryTags.filter (·.1 == memoryId),t.links.filter (touches memoryId)⟩

/- The links that leave the memory, but not those that enter it. -/
def outline (memoryId : String) (t : Tables) : Portrait := ⟨selectRow memoryId t,
  t.workspaces.filter (·.1 == memoryId),t.memoryTags.filter (·.1 == memoryId),
  t.links.filter (·.sourceId == memoryId)⟩

/- Only memories that are free to change do, and links enter or leave none that is no possible
end of one. The schema holds on and the history stays. -/
structure Differs (free ends : String → Prop) (before after : Tables) : Prop where
  outline : ∀ memoryId, ¬ free memoryId → outline memoryId after = outline memoryId before
  portrait : ∀ memoryId, ¬ free memoryId → ¬ ends memoryId → portrait memoryId after = portrait memoryId before
  schema : Holds before after
  events : after.events = before.events
  recordRevisions : after.recordRevisions = before.recordRevisions
  linkRevisions : after.linkRevisions = before.linkRevisions

/- Only the history and the repair intents change. -/
structure Notes (before after : Tables) : Prop where
  memories : after.memories = before.memories
  workspaces : after.workspaces = before.workspaces
  tags : after.tags = before.tags
  sequence : after.tagSequence = before.tagSequence
  memoryTags : after.memoryTags = before.memoryTags
  links : after.links = before.links
  searchDocuments : after.searchDocuments = before.searchDocuments

variable {α : Type} {free ends : String → Prop}

/- The statement changes the tables as `rel` allows. -/
def Allows (rel : Tables → Tables → Prop) (sql : Statement α) : Prop :=
  ∀ t a after, sql t = .ok (a,after) → rel t after

abbrev Spares (free ends : String → Prop) (sql : Statement α) : Prop := Allows (Differs free ends) sql

theorem hasIff {t : Tables} {memoryId} : t.has memoryId ↔ (portrait memoryId t).row.isSome := by
  simp [Tables.has,portrait,selectRow,List.find?_isSome]

theorem differsRefl {t : Tables} : Differs free ends t t := ⟨fun _ _ => rfl,fun _ _ _ => rfl,holdsRefl,rfl,rfl,rfl⟩

/- A change beside the links. -/
theorem differsRows {before after : Tables} (schema : Holds before after) (links : after.links = before.links) (events : after.events = before.events)
    (records : after.recordRevisions = before.recordRevisions) (revisions : after.linkRevisions = before.linkRevisions)
    (kept : ∀ memoryId, ¬ free memoryId → selectRow memoryId after = selectRow memoryId before ∧
      after.workspaces.filter (·.1 == memoryId) = before.workspaces.filter (·.1 == memoryId) ∧
      after.memoryTags.filter (·.1 == memoryId) = before.memoryTags.filter (·.1 == memoryId)) :
    Differs free ends before after := by
  refine ⟨fun memoryId apart => ?_,fun memoryId apart _ => ?_,schema,events,records,revisions⟩ <;>
  · obtain ⟨row,workspaces,tags⟩ := kept memoryId apart
    simp only [Memory.outline,Memory.portrait,row,workspaces,tags,links]

/- A change of the links only. -/
theorem differsLinks {t : Tables} {links : List MemoryLink} (schema : Holds t { t with links := links })
    (leaving : ∀ memoryId, ¬ free memoryId →
      links.filter (·.sourceId == memoryId) = t.links.filter (·.sourceId == memoryId))
    (touching : ∀ memoryId, ¬ free memoryId → ¬ ends memoryId →
      links.filter (touches memoryId) = t.links.filter (touches memoryId)) :
    Differs free ends t { t with links := links } :=
  ⟨fun memoryId apart => by simp only [Memory.outline,selectRow,leaving memoryId apart],
    fun memoryId apart outside => by simp only [Memory.portrait,selectRow,touching memoryId apart outside],schema,rfl,rfl,rfl⟩

theorem sparesUpdateMemory {memoryId : String} {set : MemoryRow → MemoryRow} (named : free memoryId)
    (same : ∀ row, (set row).id = row.id) : Spares free ends (updateMemory memoryId set) := by
  intro t a after ran
  cases ran
  refine differsRows (holdsUpdateMemory same) rfl rfl rfl rfl fun other kept => ⟨?_,rfl,rfl⟩
  have apart : other ≠ memoryId := fun same => kept (same ▸ named)
  exact findUpdate fun row _ here => by
    rw [beq_iff_eq] at here
    simp [same,here,apart.symm]

theorem sparesInsertMemory {row : MemoryRow} (named : free row.id) : Spares free ends (insertMemory row) := by
  intro t a after ran
  unfold insertMemory at ran
  split at ran
  · cases ran
  · split at ran
    · cases ran
    · cases ran
      refine differsRows holdsInsertMemory rfl rfl rfl rfl fun other kept => ⟨?_,rfl,rfl⟩
      have apart : ¬ row.id = other := fun same => kept (same ▸ named)
      simp [selectRow,List.find?_append,apart]

/- Deleting a memory takes the links that leave it along, whatever they point to. -/
theorem sparesDeleteMemory {memoryId : String} (named : free memoryId) (every : ∀ other, ends other) :
    Spares free ends (deleteMemory memoryId) := by
  intro t a after ran
  cases ran
  refine ⟨fun other kept => ?_,fun other _ outside => (outside (every other)).elim,holdsDeleteMemory,rfl,rfl,rfl⟩
  have apart : other ≠ memoryId := fun same => kept (same ▸ named)
  have row : (t.memories.filter (·.id != memoryId)).find? (·.id == other) = t.memories.find? (·.id == other) := by
    rw [List.find?_filter]
    refine congrArg (t.memories.find? ·) (funext fun row => ?_)
    cases hit : row.id == other
    · simp
    · rw [beq_iff_eq] at hit
      simpa [hit] using apart
  simp only [outline,selectRow,row,Portrait.mk.injEq,true_and]
  refine ⟨filterOut fun row _ hit => ?_,filterOut fun row _ hit => ?_,filterOut fun link _ hit => ?_⟩ <;>
  · rw [beq_iff_eq] at hit
    simpa [hit] using apart

theorem sparesDeleteWorkspaces {memoryId : String} (named : free memoryId) :
    Spares free ends (deleteWorkspaces memoryId) := by
  intro t a after ran
  cases ran
  refine differsRows (holdsBeside rfl rfl (fun _ member => member) rfl rfl) rfl rfl rfl rfl
    fun other kept => ⟨rfl,filterOut fun row _ hit => ?_,rfl⟩
  have apart : other ≠ memoryId := fun same => kept (same ▸ named)
  rw [beq_iff_eq] at hit
  simpa [hit] using apart

theorem sparesInsertWorkspace {memoryId workspaceId : String} (named : free memoryId) :
    Spares free ends (insertWorkspace memoryId workspaceId) := by
  intro t a after ran
  unfold insertWorkspace at ran
  split at ran
  · cases ran
  · split at ran
    · cases ran
    · cases ran
      refine differsRows (holdsBeside rfl rfl (fun _ member => member) rfl rfl) rfl rfl rfl rfl
        fun other kept => ⟨rfl,?_,rfl⟩
      have apart : ¬ memoryId = other := fun same => kept (same ▸ named)
      simp [apart]

theorem sparesDeleteMemoryTags {memoryId : String} (named : free memoryId) :
    Spares free ends (deleteMemoryTags memoryId) := by
  intro t a after ran
  cases ran
  refine differsRows (holdsBeside rfl rfl (List.filter_subset_self _) rfl rfl) rfl rfl rfl rfl
    fun other kept => ⟨rfl,rfl,filterOut fun row _ hit => ?_⟩
  have apart : other ≠ memoryId := fun same => kept (same ▸ named)
  rw [beq_iff_eq] at hit
  simpa [hit] using apart

theorem sparesInsertMemoryTag {memoryId : String} {tagId : Int} (named : free memoryId) :
    Spares free ends (insertMemoryTag memoryId tagId) := by
  intro t a after ran
  unfold insertMemoryTag at ran
  split at ran
  · cases ran
  · split at ran
    · cases ran
    · rename_i present
      cases ran
      simp only [Bool.or_eq_true,Bool.not_eq_true',not_or,Bool.not_eq_false] at present
      refine differsRows (holdsInsertMemoryTag present.2) rfl rfl rfl rfl fun other kept => ⟨rfl,rfl,?_⟩
      have apart : ¬ memoryId = other := fun same => kept (same ▸ named)
      simp [apart]

theorem sparesInsertTag (name : String) : Spares free ends (insertTag name) := by
  intro t a after ran
  cases ran
  dsimp only
  split
  · exact differsRefl
  · exact differsRows holdsInsertTag rfl rfl rfl rfl fun _ _ => ⟨rfl,rfl,rfl⟩

theorem endsMissed {link : MemoryLink} {other : String} (kept : ¬ free other) (outside : ¬ ends other)
    (source : free link.sourceId) (target : ends link.targetId) : touches other link = false := by
  have apartSource : ¬ link.sourceId = other := fun same => kept (same ▸ source)
  have apartTarget : ¬ link.targetId = other := fun same => outside (same ▸ target)
  simp [touches,apartSource,apartTarget]

theorem sourceMissed {link : MemoryLink} {other : String} (kept : ¬ free other) (source : free link.sourceId) :
    (link.sourceId == other) = false := by
  rw [beq_eq_false_iff_ne]
  exact fun same => kept (same ▸ source)

theorem linkNamed {sourceId targetId linkType : String} {link : MemoryLink}
    (same : isLink sourceId targetId linkType link) : link.sourceId = sourceId ∧ link.targetId = targetId := by
  simp only [isLink,Bool.and_eq_true,beq_iff_eq] at same
  exact same.1

theorem sparesUpsertLink {link : MemoryLink} (source : free link.sourceId) (target : ends link.targetId) :
    Spares free ends (upsertLink link) := by
  intro t a after ran
  unfold upsertLink at ran
  dsimp only at ran
  split at ran
  · cases ran
    refine differsLinks (holdsRows (fun _ there => there) (fun other member => ?_) (fun _ member => member) rfl rfl)
      (fun other kept => ?_) fun other kept outside => ?_
    · obtain ⟨old,there,rfl⟩ := memUpdate.mp member
      exact ⟨old,there,by split <;> rfl⟩
    · refine filterUpdate fun old _ same => ?_
      obtain ⟨leaves,enters⟩ := linkNamed same
      have away := @sourceMissed free old other kept (leaves ▸ source)
      exact ⟨away,away⟩
    · refine filterUpdate fun old _ same => ?_
      obtain ⟨leaves,enters⟩ := linkNamed same
      have away := @endsMissed free ends old other kept outside (leaves ▸ source) (enters ▸ target)
      exact ⟨away,away⟩
  · split at ran
    · cases ran
    · rename_i present
      cases ran
      rw [Bool.not_eq_true',Bool.not_eq_false] at present
      refine differsLinks (holdsInsertLink present) (fun other kept => ?_) fun other kept outside => ?_
      · simp [sourceMissed kept source]
      · simp [endsMissed kept outside source target]

theorem sparesDeleteLink {sourceId targetId linkType : String} (source : free sourceId) (target : ends targetId) :
    Spares free ends (deleteLink sourceId targetId linkType) := by
  intro t a after ran
  cases ran
  refine differsLinks (holdsRows (fun _ there => there) (fun link member => ⟨link,(List.mem_filter.mp member).1,rfl⟩)
    (fun _ member => member) rfl rfl) (fun other kept => ?_) fun other kept outside => ?_ <;>
  · refine filterOut fun link _ hit => ?_
    cases same : isLink sourceId targetId linkType link
    · rfl
    · obtain ⟨leaves,enters⟩ := linkNamed same
      first
      | rw [@sourceMissed free link other kept (leaves ▸ source)] at hit; cases hit
      | rw [@endsMissed free ends link other kept outside (leaves ▸ source) (enters ▸ target)] at hit; cases hit

theorem sparesDeleteSearchDocuments (memoryId : String) : Spares free ends (deleteSearchDocuments memoryId) :=
  fun t _ _ ran => by cases ran; exact differsRows (holdsBeside rfl rfl (fun _ member => member) rfl rfl) rfl rfl rfl rfl fun _ _ => ⟨rfl,rfl,rfl⟩

theorem sparesInsertSearchDocument (document : SearchDocument) :
    Spares free ends (insertSearchDocument document) :=
  fun t _ _ ran => by cases ran; exact differsRows (holdsBeside rfl rfl (fun _ member => member) rfl rfl) rfl rfl rfl rfl fun _ _ => ⟨rfl,rfl,rfl⟩

theorem sparesInsertRepairIntent (intent : RepairIntent) : Spares free ends (insertRepairIntent intent) := by
  intro t a after ran
  cases ran
  dsimp only
  split
  · exact differsRefl
  · exact differsRows (holdsBeside rfl rfl (fun _ member => member) rfl rfl) rfl rfl rfl rfl fun _ _ => ⟨rfl,rfl,rfl⟩

theorem notesRefl (t : Tables) : Notes t t := ⟨rfl,rfl,rfl,rfl,rfl,rfl,rfl⟩

theorem notesInsertRepairIntent (intent : RepairIntent) : Allows Notes (insertRepairIntent intent) := by
  intro t a after ran
  cases ran
  dsimp only
  split <;> exact ⟨rfl,rfl,rfl,rfl,rfl,rfl,rfl⟩

theorem notesInsertEvent (event : MutationEvent) : Allows Notes (insertEvent event) := by
  intro t a after ran
  unfold insertEvent at ran
  repeat' split at ran
  all_goals first | cases ran; done | cases ran; exact ⟨rfl,rfl,rfl,rfl,rfl,rfl,rfl⟩

theorem notesInsertRecordRevision (revision : RecordRevision) : Allows Notes (insertRecordRevision revision) := by
  intro t a after ran
  unfold insertRecordRevision at ran
  repeat' split at ran
  all_goals first | cases ran; done | cases ran; exact ⟨rfl,rfl,rfl,rfl,rfl,rfl,rfl⟩

theorem notesInsertLinkRevision (revision : LinkRevision) : Allows Notes (insertLinkRevision revision) := by
  intro t a after ran
  unfold insertLinkRevision at ran
  repeat' split at ran
  all_goals first | cases ran; done | cases ran; exact ⟨rfl,rfl,rfl,rfl,rfl,rfl,rfl⟩

end McpMemory.Memory
