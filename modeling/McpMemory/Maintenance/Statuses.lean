import McpMemory.Lib.Interleave
import McpMemory.Maintenance.Housekeeping

/-! The handlers of `core/task_handlers/maintenance_housekeeping.py` and what they do to the
status of a memory. Each is one transaction. Not here: what the sweeper does to tasks and
to the journal, and the counts and examples that the handlers report. -/
namespace McpMemory.Maintenance
open Memory Table

def isDangling (t : Tables) (link : MemoryLink) : Bool :=
  !t.has link.sourceId || !likeExternal link.targetId && !t.has link.targetId

def danglingLe (a b : MemoryLink) : Bool :=
  a.sourceId < b.sourceId || a.sourceId == b.sourceId && (a.targetId < b.targetId ||
    a.targetId == b.targetId && a.linkType ≤ b.linkType)

def danglingBatch (batchSize : Nat) (t : Tables) : List MemoryLink :=
  ((t.links.filter (isDangling t)).insertionSort (danglingLe · ·)).take batchSize

def deleteBatch (batch : List MemoryLink) (t : Tables) : Tables := { t with links := t.links.filter fun link =>
  !(batch.any fun gone => isLink gone.sourceId gone.targetId gone.linkType link) }

/- The batches follow one another until one is empty; no more than there are links. -/
def deleteBatches (batchSize : Nat) : Nat → Tables → Tables
  | 0,t => t
  | batches + 1,t =>
    if (danglingBatch batchSize t).isEmpty then t
    else deleteBatches batchSize batches (deleteBatch (danglingBatch batchSize t) t)

def reconcileDanglingLinks (batchSize : Nat) (t : Tables) : Tables := deleteBatches batchSize (t.links.length + 1) t

def deadMetadataKeys : List String := ["ingest_task_id","appended_via_ingest","created_via_ingest",
  "defragmenter_task_id","deduplicator_task_id","split_group_id","split_child_memory_ids",
  "split_from_memory_title","split_sibling_memory_ids","split_part_index","split_part_count",
  "split_child_count"]

def gcDeadMetadataKeys (keys : List String) (t : Tables) : Tables := { t with memories := t.memories.map fun row =>
  { row with metadata := row.metadata.filter fun field => !keys.contains field.1 } }

structure SweeperTask extends Sweep where
  linkBatchSize : Nat

/- A batch of no size is refused. -/
def handleSweeperTask (task : SweeperTask) (database : Database) : Database :=
  if task.linkBatchSize = 0 ∨ task.batchSize = 0 then database
  else
    let linked := { database with memory := reconcileDanglingLinks task.linkBatchSize database.memory }
    let swept := gcArchivedMemories task.toSweep linked
    { swept with memory := gcDeadMetadataKeys deadMetadataKeys swept.memory }

inductive Handler where
  | projectManager (cutoff : String) (workspaceId : Option String)
  | factChecker (present : ExternalLink → Bool)
  | sweeper (task : SweeperTask)

def handle : Handler → Database → Database
  | .projectManager cutoff workspaceId,database =>
    { database with memory := markStalePlans cutoff workspaceId database.memory }
  | .factChecker present,database => { database with memory := factCheck present database.memory }
  | .sweeper task,database => handleSweeperTask task database

def statusOf (t : Tables) (memoryId : String) : Option String := (selectRow memoryId t).map (·.status)

inductive Moves : String → String → Prop
  | stays (status) : Moves status status
  | ages : Moves "active" "stale"
  | degrades : Moves "active" "degraded"
  | recovers : Moves "degraded" "active"

theorem movesSource {old status : String} (moves : Moves old status) : status = old ∨
    old = "active" ∧ (status = "stale" ∨ status = "degraded") ∨ old = "degraded" ∧ status = "active" := by
  cases moves <;> simp

/- No memory comes, and the status of one that stays moves as it may. -/
def Orderly (before after : Tables) : Prop := ∀ memoryId status, statusOf after memoryId = some status →
  ∃ old, statusOf before memoryId = some old ∧ Moves old status

/- Every memory with a link to a file that is gone is active or degraded. -/
def Followed (present : ExternalLink → Bool) (t : Tables) : Prop := ∀ link ∈ listExternalLinks t,
  present link = false → ∀ row ∈ t.memories, row.id = link.memoryId → row.status = "active" ∨ row.status = "degraded"

def Spared : Handler → Database → Prop
  | .factChecker present,database => Followed present database.memory
  | _,_ => True

section
variable {before middle after t : Tables}

theorem selectUpdated {sel : MemoryRow → Bool} {set : MemoryRow → MemoryRow} (same : ∀ row, (set row).id = row.id)
    (memoryId : String) : selectRow memoryId { t with memories := update sel set t.memories } =
      (selectRow memoryId t).map fun row => if sel row then set row else row := by
  simp only [selectRow,update,List.find?_map]
  congr 2
  funext row
  simp only [Function.comp]
  split
  · rw [same]
  · rfl

/- An update of the status alone. -/
theorem statusUpdated {sel : MemoryRow → Bool} {status : String} (memoryId : String) :
    statusOf { t with memories := update sel (fun row => { row with status := status }) t.memories } memoryId =
      (selectRow memoryId t).map fun row => if sel row then status else row.status := by
  unfold statusOf
  rw [@selectUpdated t sel (fun row => { row with status := status }) (fun _ => rfl),Option.map_map]
  congr 1
  funext row
  simp only [Function.comp]
  split <;> rfl

theorem orderlyUpdate {sel : MemoryRow → Bool} {status : String}
    (moves : ∀ row ∈ t.memories, sel row → Moves row.status status) :
    Orderly t { t with memories := update sel (fun row => { row with status := status }) t.memories } := by
  intro memoryId new found
  rw [statusUpdated] at found
  obtain ⟨row,here,rfl⟩ := Option.map_eq_some_iff.mp found
  refine ⟨row.status,by rw [statusOf,here]; rfl,?_⟩
  split
  · exact moves row (List.mem_of_find?_eq_some here) ‹_›
  · exact .stays _

theorem stalePlansOrderly (cutoff : String) (workspaceId : Option String) :
    Orderly t (markStalePlans cutoff workspaceId t) := by
  refine orderlyUpdate fun row _ stale => ?_
  simp only [isStalePlan,Bool.and_eq_true,beq_iff_eq] at stale
  rw [stale.1.1.2]
  exact .ages

theorem selectNamed {memoryId : String} {row : MemoryRow} (found : selectRow memoryId t = some row) :
    row ∈ t.memories ∧ row.id = memoryId :=
  ⟨List.mem_of_find?_eq_some found,by simpa using List.find?_some found⟩

theorem statusesUpdated (memoryIds : List String) (status : String) (current : Option String) (memoryId : String) :
    statusOf (updateMemoryStatuses memoryIds status current t) memoryId = (selectRow memoryId t).map fun row =>
      if memoryIds.contains memoryId && current.all (· == row.status) then status else row.status := by
  unfold updateMemoryStatuses
  dsimp only
  split
  · rename_i none
    simp [List.isEmpty_iff.mp none,statusOf]
  · rw [statusUpdated]
    cases found : selectRow memoryId t with
    | none => rfl
    | some row => rw [Option.map_some,Option.map_some,(selectNamed found).2]

def degradedIds (present : ExternalLink → Bool) (t : Tables) : List String :=
  ((listExternalLinks t).filter fun link => !present link).map (·.memoryId)

def restoredIds (present : ExternalLink → Bool) (t : Tables) : List String :=
  (((listExternalLinks t).filter fun link => present link && link.status == "degraded").map (·.memoryId)).filter
    (!(degradedIds present t).contains ·)

theorem degradedIff {present : ExternalLink → Bool} {memoryId} : (degradedIds present t).contains memoryId = true ↔
    ∃ link ∈ listExternalLinks t, present link = false ∧ link.memoryId = memoryId := by
  simp [degradedIds,and_assoc]

theorem factCheckParts (present : ExternalLink → Bool) : factCheck present t =
    updateMemoryStatuses (restoredIds present t) "active" (some "degraded")
      (updateMemoryStatuses (degradedIds present t) "degraded" none t) := rfl

/- A missing file degrades whatever the status; only what is degraded is restored. -/
theorem factCheckStatus (present : ExternalLink → Bool) (memoryId : String) :
    statusOf (factCheck present t) memoryId = (selectRow memoryId t).map fun row =>
      if (degradedIds present t).contains memoryId then "degraded"
      else if (restoredIds present t).contains memoryId && row.status == "degraded" then "active" else row.status := by
  have first := @statusesUpdated t (degradedIds present t) "degraded" none memoryId
  rw [factCheckParts]
  generalize updateMemoryStatuses (degradedIds present t) "degraded" none t = middle at first ⊢
  rw [statusesUpdated]
  cases found : selectRow memoryId t with
  | none =>
    rw [found] at first
    cases marked : selectRow memoryId middle with
    | none => rfl
    | some row => simp [statusOf,marked] at first
  | some row =>
    rw [found] at first
    obtain ⟨marked,there,same⟩ := Option.map_eq_some_iff.mp first
    rw [there,Option.map_some,Option.map_some]
    cases gone : (degradedIds present t).contains memoryId with
    | false =>
      simp only [gone,Bool.false_and,Bool.false_eq_true,if_false] at same
      simp only [same,Option.all_some,Bool.beq_comm (a := "degraded"),Bool.false_eq_true,if_false]
    | true =>
      have kept : (restoredIds present t).contains memoryId = false := by
        simp [restoredIds,List.contains_iff_mem.mp gone]
      simp only [gone,Option.all_none,Bool.and_true,if_true] at same
      simp only [kept,same,Bool.false_and,Bool.false_eq_true,if_false,if_true]

theorem factCheckOrderly {present : ExternalLink → Bool} (followed : Followed present t) :
    Orderly t (factCheck present t) := by
  intro memoryId status found
  rw [factCheckStatus] at found
  obtain ⟨row,here,same⟩ := Option.map_eq_some_iff.mp found
  refine ⟨row.status,by rw [statusOf,here]; rfl,?_⟩
  subst same
  split
  · rename_i gone
    obtain ⟨link,listed,missing,named⟩ := degradedIff.mp gone
    obtain ⟨member,same⟩ := selectNamed here
    rcases followed link listed missing row member (same.trans named.symm) with active | already
    · rw [active]
      exact .degrades
    · rw [already]
      exact .stays _
  · split
    · rename_i restored
      rw [beq_iff_eq.mp (Bool.and_eq_true_iff.mp restored).2]
      exact .recovers
    · exact .stays _

theorem linkNamed {link : ExternalLink} (listed : link ∈ listExternalLinks t) : ∃ row ∈ t.memories,
    row.id = link.memoryId ∧ row.status = link.status := by
  unfold listExternalLinks at listed
  obtain ⟨row,member,listed⟩ := List.mem_flatMap.mp listed
  obtain ⟨_,_,listed⟩ := List.mem_flatMap.mp listed
  obtain ⟨_,_,rfl⟩ := List.mem_map.mp listed
  exact ⟨row,member,rfl,rfl⟩

/- And no check but such a one leaves the others alone. -/
theorem orderlyFollowed {present : ExternalLink → Bool} (unique : UniqueBy (·.id) t.memories)
    (orderly : Orderly t (factCheck present t)) : Followed present t := by
  intro link listed missing row member named
  have here : selectRow row.id t = some row := by
    cases found : selectRow row.id t with
    | none => simpa using findNone found row member
    | some first =>
      obtain ⟨there,same⟩ := selectNamed found
      rw [equalOfKey unique there member same]
  have gone : (degradedIds present t).contains row.id = true := degradedIff.mpr ⟨link,listed,missing,named.symm⟩
  obtain ⟨old,same,moves⟩ := orderly row.id "degraded" (by rw [factCheckStatus,here,Option.map_some,if_pos gone])
  rw [statusOf,here] at same
  rw [show row.status = old from Option.some.inj same]
  rcases movesSource moves with same | ⟨active,_⟩ | ⟨_,other⟩
  · exact .inr same.symm
  · exact .inl active
  · exact absurd other (by decide)

theorem deletedLinksSame (batchSize batches : Nat) : (deleteBatches batchSize batches t).memories = t.memories := by
  induction batches generalizing t with
  | zero => rfl
  | succ batches ih =>
    unfold deleteBatches
    split
    · rfl
    · exact ih

/- The sweeper takes memories away and leaves the status of the others. -/
def Keeps (before after : Tables) : Prop := ∀ memoryId status, statusOf after memoryId = some status →
  statusOf before memoryId = some status

theorem keepsFilter (gone : String) (memories : after.memories = before.memories.filter (·.id != gone)) :
    Keeps before after := by
  intro memoryId status found
  unfold statusOf selectRow at found ⊢
  rw [memories,List.find?_filter] at found
  obtain ⟨row,here,same⟩ := Option.map_eq_some_iff.mp found
  have hit := List.find?_some here
  have apart : memoryId ≠ gone := fun same => by simp [same] at hit
  have asked : (fun row : MemoryRow => decide ((row.id != gone) = true ∧ (row.id == memoryId) = true)) =
      (·.id == memoryId) := by
    funext row
    by_cases named : row.id = memoryId <;> simp [named,apart]
  rwa [asked] at found

theorem keepsDeleted (sweep : Sweep) (database : Database) (memoryId : String) :
    Keeps database.memory (deleteArchived sweep database memoryId).memory := by
  unfold deleteArchived
  dsimp only
  split
  · exact keepsFilter memoryId rfl
  · exact fun _ _ => id

theorem keepsCollected (sweep : Sweep) (database : Database) :
    Keeps database.memory (gcArchivedMemories sweep database).memory := by
  have all : ∀ (memoryIds : List String) (database : Database),
      Keeps database.memory (memoryIds.foldl (deleteArchived sweep) database).memory := by
    intro memoryIds
    induction memoryIds with
    | nil => exact fun _ _ _ => id
    | cons gone rest ih =>
      exact fun database memoryId status found => keepsDeleted sweep database gone memoryId status
        (ih _ memoryId status found)
  unfold gcArchivedMemories
  dsimp only
  split
  · exact all _ database
  · exact fun _ _ => id

theorem keepsPruned (keys : List String) : Keeps t (gcDeadMetadataKeys keys t) := by
  intro memoryId status found
  unfold statusOf selectRow gcDeadMetadataKeys at found
  rw [List.find?_map,Option.map_map] at found
  exact found

theorem sweeperOrderly (task : SweeperTask) (database : Database) :
    Orderly database.memory (handleSweeperTask task database).memory := by
  have kept : Keeps database.memory (handleSweeperTask task database).memory := by
    unfold handleSweeperTask
    split
    · exact fun _ _ => id
    · intro memoryId status found
      have swept := keepsCollected _ _ memoryId status (keepsPruned _ memoryId status found)
      rwa [statusOf,selectRow,reconcileDanglingLinks,deletedLinksSame] at swept
  exact fun memoryId status found => ⟨status,kept memoryId status found,.stays status⟩

theorem handleOrderly {handler : Handler} {database} (spared : Spared handler database) :
    Orderly database.memory (handle handler database).memory := by
  cases handler with
  | projectManager cutoff workspaceId => exact stalePlansOrderly cutoff workspaceId
  | factChecker present => exact factCheckOrderly spared
  | sweeper task => exact sweeperOrderly task database

end

abbrev run : Database → List Handler → Database := Interleave.reach handle

/- A status that no handler starts from is there for good. -/
theorem settledStays {database : Database} {handlers} (spared : Interleave.Holding handle Spared database handlers)
    {memoryId status : String} (found : statusOf (run database handlers).memory memoryId = some status) :
    ∃ old, statusOf database.memory memoryId = some old ∧ (old ≠ "active" → old ≠ "degraded" → status = old) := by
  induction handlers generalizing database with
  | nil => exact ⟨status,found,fun _ _ => rfl⟩
  | cons handler rest ih =>
    obtain ⟨middle,there,settled⟩ := ih spared.2 found
    obtain ⟨old,here,moves⟩ := handleOrderly spared.1 memoryId middle there
    refine ⟨old,here,fun live whole => ?_⟩
    rcases movesSource moves with same | ⟨active,_⟩ | ⟨degraded,_⟩
    · subst same
      exact settled live whole
    · exact absurd active live
    · exact absurd degraded whole

/- Every step of a run in which the fact checker meets no missing file of another memory moves a
status only as it may, and what is neither active nor degraded stays what it is. -/
theorem maintenanceOrderly (database : Database) (handlers : List Handler)
    (spared : Interleave.Holding handle Spared database handlers) :
    (∀ first handler rest, handlers = first ++ handler :: rest →
      Orderly (run database first).memory (handle handler (run database first)).memory) ∧
    ∀ memoryId old, statusOf database.memory memoryId = some old → old ≠ "active" → old ≠ "degraded" →
      ∀ status, statusOf (run database handlers).memory memoryId = some status → status = old := by
  refine ⟨fun first handler rest split => ?_,fun memoryId old here live whole status found => ?_⟩
  · subst split
    exact handleOrderly (Interleave.holdingAppend.mp spared).2.1
  · obtain ⟨start,there,settled⟩ := settledStays spared found
    cases here.symm.trans there
    exact settled live whole

/- One check of the facts moves the statuses as it may just where it meets no such file. -/
theorem factCheckExact {t : Tables} (unique : UniqueBy (·.id) t.memories) (present : ExternalLink → Bool) :
    Orderly t (factCheck present t) ↔ Followed present t := ⟨orderlyFollowed unique,factCheckOrderly⟩

/- An archived memory whose file goes and comes back. -/
def noted (status : String) : Database := { Database.empty with memory := { Memory.empty with
  memories := [⟨"m",some 1,"title","content",none,"fact",status,"t0","t0",none,[]⟩]
  links := [⟨"m","ext:notes.md","NEXT",""⟩] } }

def gone : Handler := .factChecker fun _ => false

def back : Handler := .factChecker fun _ => true

theorem archivedReturns : statusOf (noted "archived").memory "m" = some "archived" ∧
    statusOf (run (noted "archived") [gone]).memory "m" = some "degraded" ∧
    statusOf (run (noted "archived") [gone,back]).memory "m" = some "active" ∧
    ¬ ∀ database handlers memoryId old, statusOf database.memory memoryId = some old → old ≠ "active" → old ≠ "degraded" →
      ∀ status, statusOf (run database handlers).memory memoryId = some status → status = old := by
  have start : statusOf (noted "archived").memory "m" = some "archived" := by decide +kernel
  have last : statusOf (run (noted "archived") [gone,back]).memory "m" = some "active" := by decide +kernel
  refine ⟨start,by decide +kernel,last,fun stays => ?_⟩
  exact absurd (stays _ _ _ _ start (by decide) (by decide) _ last) (by decide)

theorem maintenanceOrderlySample : Orderly (noted "active").memory (handle gone (noted "active")).memory := by
  have first : Spared gone (noted "active") := fun link _ _ row member _ => by
    cases List.mem_singleton.mp member
    exact .inl rfl
  have second : Spared back (handle gone (noted "active")) := fun link _ missing => Bool.noConfusion missing
  have spared : Interleave.Holding handle Spared (noted "active") [gone,back] := ⟨first,second,trivial⟩
  exact (maintenanceOrderly _ _ spared).1 [] gone [back] rfl

end McpMemory.Maintenance
