import McpMemory.Curation.Adapter
import McpMemory.Memory.Archival
import McpMemory.Relational.Updates
import McpMemory.Relational.Writes

/-! Which writes keep the archival invariant. Only the repository moves the time of archiving
with the status; the other writers leave it as it is. -/
namespace McpMemory.Relational
open Memory Text Table Transaction
open Maintenance hiding workspacesOf
open Curation (ActionError Command UpdateValues CreateValues canonicalId selectRecord)

variable (env : Curation.Env) (domain : Ingress.Env)

/- A status that the repository takes for unchanged is that of the row still. The action and the
ingress transaction neither archive a memory nor bring one back, and no archived memory has
a link to a file that is gone. -/
def archiving : Allowed where
  repository seen command t := match command with
    | .updateMemory memoryId changes => ∀ existing, Found seen t memoryId existing →
        changes.status.map strip = some existing.status → ∀ row ∈ t.memories, row.id = existing.id →
        (existing.status = "archived" ↔ row.status = "archived")
    | _ => True
  curation command t := match command with
    | .updateMemory memoryId changes => ∀ existing, selectRecord (canonicalId env memoryId) t = some existing →
        ∀ status ∈ changes.status, status = "archived" ↔ existing.status = "archived"
    | .createMemory values => values.status ≠ some "archived"
    | _ => True
  ingress command _ := match command with
    | .createMemory values => values.status ≠ some "archived"
    | _ => True
  factCheck present t := ∀ link ∈ listExternalLinks t, present link = false → link.status ≠ "archived"

section
variable {env domain} {before after t : Tables}

theorem revisedStamped {existing changes revised now} {row : MemoryRow}
    (agree : revised.status = some existing.status → (existing.status = "archived" ↔ row.status = "archived"))
    (stamped : Stamped row) : Stamped (revise env existing changes revised now row) := by
  unfold Stamped revise archivedAtOf
  dsimp only
  cases status : revised.status with
  | none => exact stamped
  | some text =>
    dsimp only
    split
    · rename_i same
      subst same
      exact stamped.trans (agree status).symm
    · split <;> simp [*]

theorem createdStamped {now values item} (given : prepareMemoryCreate env now values = .ok item) : Stamped item.row := by
  unfold prepareMemoryCreate at given
  split at given
  · cases given
  · obtain ⟨memoryType,_,given⟩ := checkedOk.mp given
    obtain ⟨status,_,given⟩ := checkedOk.mp given
    obtain ⟨_,_,given⟩ := checkedOk.mp given
    obtain ⟨_,_,given⟩ := checkedOk.mp given
    split at given
    · cases given
    · cases given
      unfold Stamped
      dsimp only
      split <;> simp [*]

theorem rewrittenStamped {memoryId changes} (allowed : ∀ existing, selectRecord memoryId before = some existing →
    ∀ status ∈ changes.status, status = "archived" ↔ existing.status = "archived")
    (made : Curation.Updates env memoryId changes before after) (archival : Archival before) : Archival after := by
  obtain ⟨existing,prepared,now,found,given,made⟩ := made
  cases made
  refine archivalUpdate archival (fun _ => rfl) fun row member named => ?_
  have status : prepared.status = changes.status.getD existing.status := by
    unfold Curation.prepareMemoryUpdate at given
    dsimp only at given
    repeat' split at given
    all_goals first | cases given; done | cases given; rfl
  have same : existing.status = row.status := by
    have here := archivalFound archival member
    rw [show row.id = memoryId by simpa using named] at here
    rw [selectRecord,recordById,here] at found
    cases found
    rfl
  have stamped := archival.stamped row member
  unfold Stamped Curation.updatedRow
  rw [status,show row.archivedAt.isSome ↔ row.status = "archived" from stamped,← same]
  cases wanted : changes.status with
  | none => rfl
  | some text => exact (allowed existing found text wanted).symm

theorem plainStamped {row : MemoryRow} (none : row.archivedAt = none) (live : row.status ≠ "archived") : Stamped row := by
  simp [Stamped,none,live]

theorem liveStamped {row : MemoryRow} (stamped : Stamped row) (live : row.status ≠ "archived") : row.archivedAt = none := by
  simpa [Stamped,live] using stamped

theorem actionCreated {now values prepared} (given : Curation.prepareMemoryCreate env now values = .ok prepared) :
    prepared.row.archivedAt = none ∧ prepared.row.status = values.status.getD "active" := by
  unfold Curation.prepareMemoryCreate at given
  dsimp only at given
  repeat' split at given
  all_goals first | cases given; done | cases given; exact ⟨rfl,rfl⟩

theorem ingressCreated {now values prepared} (given : Ingress.prepareCreate domain now values = .ok prepared) :
    prepared.status = values.status.getD "active" := by
  obtain ⟨_,_,given⟩ := checkedOk.mp given
  obtain ⟨_,_,given⟩ := checkedOk.mp given
  obtain ⟨_,_,given⟩ := checkedOk.mp given
  dsimp only at given
  split at given <;> cases given
  rfl

theorem liveStatus {status : Option String} (live : status ≠ some "archived") : status.getD "active" ≠ "archived" := by
  cases status with
  | none => decide
  | some text => simpa using live

theorem statusesArchival {memoryIds status currentStatus} (live : status ≠ "archived")
    (named : ∀ row ∈ t.memories, row.id ∈ memoryIds → currentStatus.all (· == row.status) → row.status ≠ "archived")
    (archival : Archival t) : Archival (updateMemoryStatuses memoryIds status currentStatus t) := by
  unfold updateMemoryStatuses
  dsimp only
  split
  · exact archival
  · refine archivalUpdate archival (fun _ => rfl) fun row member chosen => ?_
    simp only [Bool.and_eq_true,List.contains_iff_mem] at chosen
    have unset := liveStamped (archival.stamped row member) (named row member chosen.1 chosen.2)
    exact plainStamped unset live

theorem externalLink {link} (listed : link ∈ listExternalLinks t) :
    ∃ row ∈ t.memories, link.memoryId = row.id ∧ link.status = row.status := by
  obtain ⟨row,there,listed⟩ := List.mem_flatMap.mp listed
  obtain ⟨_,_,listed⟩ := List.mem_flatMap.mp listed
  obtain ⟨_,_,rfl⟩ := List.mem_map.mp listed
  exact ⟨row,there,rfl,rfl⟩

theorem factCheckArchival {present} (fine : (archiving env).factCheck present t) (archival : Archival t) :
    Archival (factCheck present t) := by
  refine statusesArchival (by decide) (fun row _ _ current => ?_) (statusesArchival (by decide)
    (fun row member degraded _ => ?_) archival)
  · rw [← show "degraded" = row.status by simpa using current]
    decide
  · obtain ⟨link,listed,same⟩ := List.mem_map.mp degraded
    obtain ⟨listed,missing⟩ := List.mem_filter.mp listed
    obtain ⟨owner,there,named,status⟩ := externalLink listed
    rw [equalOfKey archival.keyed member there (same.symm.trans named),← status]
    exact fine link listed (by simpa using missing)

/- An insertion or a removal of a link leaves the rows. -/
theorem linkRows {sourceId targetId linkType rowcount} (made : deleteLink sourceId targetId linkType before = .ok (rowcount,after)) :
    after.memories = before.memories := by
  cases made
  rfl

theorem replacedRows {link} (made : replaceLink link before = .ok ((),after)) : after.memories = before.memories := by
  unfold replaceLink at made
  split at made <;> cases made
  rfl

theorem upsertRows {link} (made : upsertLink link before = .ok ((),after)) : after.memories = before.memories := by
  unfold upsertLink at made
  dsimp only at made
  repeat' split at made
  all_goals first | cases made; done | cases made; rfl

theorem archivingKept : Kept env domain (archiving env) Archival where
  beside _ _ beside := archivalRows beside.memories
  repository seen command before after fine archival made := by
    cases command with
    | getMemory | getLinks | getProtections | setLineage => exact made.elim
    | updateMemory memoryId changes =>
      obtain ⟨existing,revised,now,found,given,made⟩ := made
      cases made
      refine archivalUpdate archival (fun _ => rfl) fun row member named => revisedStamped (fun same => ?_)
        (archival.stamped row member)
      exact fine existing found ((validated given).1.symm.trans same) row member (by simpa using named)
    | createMemory values =>
      obtain ⟨now,item,given,made⟩ := made
      exact archivalInsert made (createdStamped given) archival
    | deleteMemory memoryId =>
      obtain ⟨existing,_,first,cut,unlinked,apart,last⟩ := made
      cases unlinked
      cases last
      have rows : cut.memories = before.memories := apart.memories
      exact archivalFilter (archivalRows rows archival) rfl
    | addLink =>
      obtain ⟨normalized,_,made⟩ := made
      exact archivalRows (replacedRows made) archival
    | removeLink =>
      obtain ⟨normalized,rowcount,_,made⟩ := made
      exact archivalRows (linkRows made) archival
  curation command before after fine archival made := by
    cases command with
    | getMemory | getLinks | getProtections => exact made.elim
    | updateMemory memoryId changes => exact rewrittenStamped fine made archival
    | createMemory values =>
      obtain ⟨now,prepared,given,made⟩ := made
      obtain ⟨unset,status⟩ := actionCreated given
      refine archivalInsert made (plainStamped unset ?_) archival
      exact status ▸ liveStatus fine
    | deleteMemory memoryId =>
      obtain ⟨middle,apart,made⟩ := made
      cases made
      exact archivalFilter (archivalRows apart.memories archival) rfl
    | addLink =>
      obtain ⟨normalized,_,made⟩ := made
      exact archivalRows (upsertRows made) archival
    | removeLink =>
      obtain ⟨normalized,rowcount,_,made⟩ := made
      exact archivalRows (linkRows made) archival
    | setLineage memoryId lineage =>
      obtain ⟨record,found,made⟩ := made
      exact rewrittenStamped (fun _ _ status given => by cases given) made archival
  ingress command before after fine archival made := by
    cases command with
    | getMemory => exact made.elim
    | createMemory values =>
      obtain ⟨now,prepared,given,made⟩ := made
      refine archivalInsert made (plainStamped rfl ?_) archival
      rw [show (Ingress.inserted prepared (nextMemoryRef _)).status = _ from ingressCreated given]
      exact liveStatus fine
    | appendMemory values =>
      obtain ⟨memoryId,prepared,now,made⟩ := made
      cases made
      exact archivalUpdate archival (fun _ => rfl) fun row member _ => archival.stamped row member
  staleness cutoff workspaceId t archival := archivalUpdate archival (fun _ => rfl) fun row member chosen => by
    have active : row.status = "active" := by
      simp only [isStalePlan,Bool.and_eq_true,beq_iff_eq] at chosen
      exact chosen.1.1.2
    have unset := liveStamped (archival.stamped row member) (by rw [active]; decide)
    exact plainStamped unset (by simp)
  factCheck _ _ := factCheckArchival
  deletes t after memoryId archival rows _ := archivalFilter archival rows

theorem foundHere {memoryId existing} (found : Found none t memoryId existing) :
    ∃ row ∈ t.memories, existing = hydrateRecord t row := by
  obtain ⟨resolved,_,read⟩ := Curation.repositoryResolved found
  obtain ⟨row,here,same⟩ := Option.map_eq_some_iff.mp read
  exact ⟨row,(findSome here).1,same.symm⟩

/- Where nobody wrote between the read and the change, every command of the repository is allowed. -/
theorem archivingHere (archival : Archival t) (command : Command) : (archiving env).repository none command t := by
  cases command with
  | updateMemory memoryId changes =>
    intro existing found _ row member same
    obtain ⟨other,there,rfl⟩ := foundHere found
    rw [show other = row from equalOfKey archival.keyed there member same.symm]
    rfl
  | _ => trivial

end

/- What the collector goes by: the age of a row since it was archived. -/
def Ages (row : MemoryRow) : Prop :=
  (row.status = "archived" ∧ ∃ since, row.archivedAt = some since ∧
    ∀ cutoff, isExpired cutoff row = decide (since < cutoff)) ∨
  row.status ≠ "archived" ∧ ∀ cutoff, isExpired cutoff row = false

theorem stampedAges {row : MemoryRow} (stamped : Stamped row) : Ages row := by
  by_cases archived : row.status = "archived"
  · obtain ⟨since,set⟩ := Option.isSome_iff_exists.mp (stamped.mpr archived)
    exact .inl ⟨archived,since,set,fun cutoff => by simp [isExpired,archived,set]⟩
  · exact .inr ⟨archived,fun cutoff => by simp [isExpired,archived]⟩

theorem archivalHolds {database : Database} {writes : List Write} (start : Archival database.memory)
    (fine : Interleave.Holding (apply env domain) ((archiving env).On env domain) database writes) :
    let t := (Interleave.reach (apply env domain) database writes).memory
    Archival t ∧ ∀ row ∈ t.memories, Ages row := by
  have archival := keptRun archivingKept fine start
  exact ⟨archival,fun row member => stampedAges (archival.stamped row member)⟩

/- A note that its own client archives. -/

def asciiActions : Curation.Env := ⟨⟨ascii,fun _ => "digest"⟩,fun title _ _ => title⟩

def asciiDomain : Ingress.Env := ⟨⟨ascii,fun _ => "digest"⟩,fun title _ _ => title⟩

def ticking : Oracle ActionError := fun n => ⟨none,toString n,"t" ++ toString n,n⟩

def noteId : String := "00000000-0000-0000-0000-000000000001"

def issue (command : Command) : Write := .repository none (.call command fun _ => .done []) ticking

def addNote : Write := issue (.createMemory
  ⟨some noteId,"note","kept",none,none,none,["w"],[],none,none,none,[]⟩)

def archiveNote : Write := issue (.updateMemory noteId { UpdateValues.nothing with status := some "archived" })

theorem archivalHoldsSample :
    let t := (Interleave.reach (apply asciiActions asciiDomain) Database.empty [addNote,archiveNote]).memory
    t.memories.map (·.archivedAt) = [some "t1"] ∧ Archival t := by
  have first : Archival (apply asciiActions asciiDomain addNote Database.empty).memory :=
    keptApply (@archivingKept asciiActions asciiDomain) ⟨trivial,trivial⟩ archivalEmpty
  have fine : Interleave.Holding (apply asciiActions asciiDomain)
      ((archiving asciiActions).On asciiActions asciiDomain) Database.empty [addNote,archiveNote] :=
    ⟨⟨trivial,trivial⟩,⟨archivingHere first _,trivial⟩,trivial⟩
  exact ⟨by decide +kernel,(archivalHolds asciiActions asciiDomain archivalEmpty fine).1⟩

/- A note that an action archives. -/

def archiveAction : Curation.Callback := .call
  (.updateMemory noteId { UpdateValues.nothing with status := some "archived" })
  fun _ => .done (some ⟨"archive_memory",[noteId],none⟩)

def actionArchives : Write := .curation
  ⟨⟨"model",none⟩,⟨"run","action",[noteId],[],none,some "archive_memory",.null,none,"curator",none,none⟩,archiveAction,
    ticking⟩

def curating : Database := { Database.empty with
  curation := ⟨[⟨"run",none,"frontier","context",none,none,.executing,"t0"⟩],[]⟩ }

theorem archivalBroken :
    let t := (Interleave.reach (apply asciiActions asciiDomain) curating [addNote,actionArchives]).memory
    Archival curating.memory ∧ ¬ Archival t := by
  have rows : (Interleave.reach (apply asciiActions asciiDomain) curating [addNote,actionArchives]).memory.memories.map
      (fun row => (row.status,row.archivedAt)) = [("archived",none)] := by decide +kernel
  refine ⟨archivalEmpty,fun archival => ?_⟩
  obtain ⟨row,member,same⟩ := List.mem_map.mp (rows ▸ List.mem_singleton_self ("archived",none))
  obtain ⟨status,unset⟩ := Prod.mk.inj same
  have stamped := (archival.stamped row member).mpr status
  rw [unset] at stamped
  cases stamped

end McpMemory.Relational
