import McpMemory.Journal.Store
import McpMemory.Lib.Connection
import McpMemory.Maintenance.Dangling
import McpMemory.Tasks.Record

/-! `handle_sweeper_task` under `SQLiteMaintenanceHousekeeping.execute`, statement by statement, any of
which may raise. The journal and the vector store that it calls run on the same connection and commit
it themselves. What the task reports is not here. -/
namespace McpMemory.Maintenance.Sweeping
open Transaction Connection Memory Reconcile
open Curation (Protection)
open Tasks (TaskRecord)

structure Embedding where
  sourceKind : String
  sourceId : String
  modelName : String
  deriving DecidableEq, Repr

structure Store where
  memory : Tables
  protections : List Protection
  embeddings : List Embedding
  tasks : List TaskRecord
  journal : List Journal.Entry

/- The context of the task and what it reads of its data and the configuration. -/
structure Context where
  hasJournal : Bool
  hasVectorStore : Bool
  modelName : Option String
  depthLimit : Option Nat
  linkBatchSize : Nat
  gc : Sweep
  cutoffTimestamp : Int

abbrev Sweeper (α : Type) := Connected Store String α

def change (effect : Store → Store) : Sweeper Unit := execute fun store => .ok ((),effect store)

def onMemory (effect : Tables → Tables) : Sweeper Unit := change fun store => { store with memory := effect store.memory }

/- Two SELECTs, for the report alone. -/
def listLineageMemories : Sweeper Unit := do
  query fun _ => ()
  query fun _ => ()

/- A round for each batch; each takes a link away, so the links are rounds enough. -/
def reconcileRounds (context : Context) : Nat → Sweeper Unit
  | 0 => pure ()
  | rounds + 1 => do
    let rows ← query fun store => danglingLinks context.linkBatchSize store.memory
    if rows.isEmpty then pure ()
    else do
      execute fun store => if fitsExpression context.depthLimit rows.length then
        .ok ((),{ store with memory := deleteLinks rows store.memory }) else .error "Expression tree is too large"
      reconcileRounds context rounds

def reconcileDanglingLinks (context : Context) : Sweeper Unit := do
  reconcileRounds context ((← inspect fun c => c.seen.memory.links.length) + 1)

def isFree (gc : Sweep) (store : Store) (memoryId : String) : Bool :=
  !isProtected gc.now store.protections memoryId && !isLinked store.memory memoryId

def isDeletable (gc : Sweep) (store : Store) (memoryId : String) : Bool :=
  store.memory.memories.any (fun row => row.id == memoryId && isExpired gc.cutoff row) && isFree gc store memoryId

def eligibleIds (gc : Sweep) (store : Store) : List String :=
  ((((store.memory.memories.filter (isExpired gc.cutoff)).insertionSort (expiredLe · ·)).take gc.batchSize).map (·.id)).filter
    (isFree gc store)

/- The guarded DELETE, whose foreign keys take the mappings and the outgoing links along. -/
def deleteExpired (gc : Sweep) (memoryId : String) (store : Store) : Nat × Store :=
  if isDeletable gc store memoryId then
    (1,{ store with memory := { store.memory with
      memories := store.memory.memories.filter (·.id != memoryId)
      workspaces := store.memory.workspaces.filter (·.1 != memoryId)
      memoryTags := store.memory.memoryTags.filter (·.1 != memoryId)
      links := store.memory.links.filter (·.sourceId != memoryId) } })
  else (0,store)

def collectMemory (gc : Sweep) (memoryId : String) : Sweeper Unit := do
  let rowcount ← execute fun store => .ok (deleteExpired gc memoryId store)
  if rowcount ≠ 1 then pure ()
  else do
    onMemory fun t => { t with links := t.links.filter fun link => !(link.sourceId == memoryId || link.targetId == memoryId) }
    onMemory fun t => { t with searchDocuments := t.searchDocuments.filter (·.memoryId != memoryId) }
    change fun store => { store with
      embeddings := store.embeddings.filter fun row => !(row.sourceKind == "memory" && row.sourceId == memoryId) }
    change fun store => { store with protections := store.protections.filter (·.memoryId != memoryId) }

def gcArchivedMemories (gc : Sweep) : Sweeper Unit := do
  let eligible ← query (eligibleIds gc)
  if gc.delete then each (collectMemory gc) eligible else pure ()

def deleteCompletedTasks (cutoffTimestamp : Int) : Sweeper Unit := change fun store => { store with
  tasks := store.tasks.filter fun task => !(task.status == .completed && task.updatedAt < cutoffTimestamp) }

def isDue (now : Int) (entry : Journal.Entry) : Bool := entry.status == .recoverable && entry.recoverableUntil.any (· ≤ now)

def dueIds (now : Int) (store : Store) : List Int :=
  ((store.journal.filter (isDue now)).insertionSort (·.timestamp ≤ ·.timestamp)).map (·.id)

def deleteRecoverable (ids : List Int) : Sweeper Unit := change fun store => { store with
  journal := store.journal.filter fun entry => !(ids.contains entry.id && entry.status == .recoverable) }

/- `System1Journal.purge_expired_recoverable`. -/
def purgeExpiredRecoverable (now : Int) : Sweeper (List Int) := do
  let ids ← query (dueIds now)
  if ids.isEmpty then pure []
  else do
    deleteRecoverable ids
    commit
    pure ids

def purgeRecoverableJournalEntries (cutoffTimestamp : Int) : Sweeper (List Int) := do
  let ids ← query (dueIds cutoffTimestamp)
  if ids.isEmpty then pure []
  else do
    deleteRecoverable ids
    pure ids

/- The vector store's `delete` of one thought. -/
def deleteThought (modelName : Option String) (id : Int) : Sweeper Unit := do
  change fun store => { store with embeddings := store.embeddings.filter fun row =>
    !(row.sourceKind == "thought" && row.sourceId == toString id && modelName.all (· == row.modelName)) }
  commit

def cleanupDeletedThoughtEmbeddings (context : Context) (ids : List Int) : Sweeper Unit :=
  if context.hasVectorStore then each (deleteThought context.modelName) ids else pure ()

def purgeProcessedJournalEntries (cutoffTimestamp : Int) : Sweeper Unit := change fun store => { store with
  journal := store.journal.filter fun entry =>
    !((entry.status == .processed || entry.status == .archived) && entry.timestamp < cutoffTimestamp) }

def pruned (metadata : Json.Object) : Json.Object := metadata.filter fun field => !deadMetadataKeys.contains field.1

def isPruned (row : MemoryRow) : Bool := row.metadata.any fun field => deadMetadataKeys.contains field.1

def pruneMetadata (memoryId : String) (metadata : Json.Object) : Sweeper Unit := onMemory fun t => { t with
  memories := Table.update (·.id == memoryId) (fun row => { row with metadata := metadata }) t.memories }

def gcDeadMetadataKeys : Sweeper Unit := do
  let rows ← query fun store => store.memory.memories.filter isPruned
  each (fun row => pruneMetadata row.id (pruned row.metadata)) rows

/- By the journal, where there is one. -/
def purge (context : Context) : Sweeper (List Int) := if context.hasJournal then purgeExpiredRecoverable context.cutoffTimestamp
  else purgeRecoverableJournalEntries context.cutoffTimestamp

/- `sweep`. -/
def sweep (context : Context) : Sweeper Unit := do
  listLineageMemories
  reconcileDanglingLinks context
  gcArchivedMemories context.gc
  deleteCompletedTasks context.cutoffTimestamp
  let ids ← purge context
  cleanupDeletedThoughtEmbeddings context ids
  purgeProcessedJournalEntries context.cutoffTimestamp
  gcDeadMetadataKeys

/- `execute` of the port. -/
def housekeeping {α : Type} (operation : Sweeper α) : Sweeper α := rollingBack do
  let result ← operation
  commit
  pure result

/- The sweep up to its first COMMIT, and from there. -/

def preparing (context : Context) : Sweeper Unit := do
  listLineageMemories
  reconcileDanglingLinks context
  gcArchivedMemories context.gc
  deleteCompletedTasks context.cutoffTimestamp

def finishing (context : Context) : Sweeper Unit := do
  purgeProcessedJournalEntries context.cutoffTimestamp
  gcDeadMetadataKeys
  commit

def firstCommit (context : Context) : Sweeper (List Int) := do
  preparing context
  let ids ← purge context
  cleanupDeletedThoughtEmbeddings context (if context.hasJournal then [] else ids.take 1)
  pure ids

def afterFirstCommit (context : Context) (ids : List Int) : Sweeper Unit := do
  cleanupDeletedThoughtEmbeddings context (if context.hasJournal then ids else ids.drop 1)
  finishing context

/- Who commits inside the sweep: the journal, or else the vector store. -/
def commitsInside (context : Context) : Bool := context.hasJournal || context.hasVectorStore

variable {context : Context}

theorem cleanupAppend (first rest : List Int) : cleanupDeletedThoughtEmbeddings context (first ++ rest) =
    cleanupDeletedThoughtEmbeddings context first >>= fun _ => cleanupDeletedThoughtEmbeddings context rest := by
  unfold cleanupDeletedThoughtEmbeddings
  split
  · exact eachAppend _ first rest
  · rfl

theorem sweepSplits : (sweep context >>= fun result => commit >>= fun _ => pure result) =
    firstCommit context >>= afterFirstCommit context := by
  have cleaned (ids : List Int) : cleanupDeletedThoughtEmbeddings context ids =
      cleanupDeletedThoughtEmbeddings context (if context.hasJournal then [] else ids.take 1) >>= fun _ =>
        cleanupDeletedThoughtEmbeddings context (if context.hasJournal then ids else ids.drop 1) := by
    rw [← cleanupAppend]
    split
    · rfl
    · rw [List.take_append_drop]
  unfold sweep firstCommit afterFirstCommit preparing finishing
  simp only [bindAssoc]
  iterate 5 refine congrArg _ (funext fun _ => ?_)
  rename_i ids
  rw [cleaned ids,bindAssoc]
  refine congrArg _ (funext fun _ => ?_)
  iterate 3 refine congrArg _ (funext fun _ => ?_)
  exact bindPure commit

/- The rounds of the first pass are enough. -/
theorem roundsFinish (rounds : Nat) {oracle : Oracle String} {session after}
    (enough : session.data.seen.memory.links.countP (isDangling session.data.seen.memory) < rounds)
    (ran : reconcileRounds context rounds oracle session = (.ok (),after)) :
    danglingLinks context.linkBatchSize after.data.seen.memory = [] := by
  induction rounds generalizing session with
  | zero => exact absurd enough (Nat.not_lt_zero _)
  | succ rounds ih =>
    obtain ⟨rows,read,asked,rest⟩ := bindOk.mp ran
    obtain ⟨rfl,same⟩ := selectOk asked
    split at rest
    · rename_i none
      rw [← (pureOk.mp rest).2,← same]
      exact List.isEmpty_iff.mp none
    · rename_i found
      obtain ⟨_,deleted,delete,rest⟩ := bindOk.mp rest
      have changed := executeSeen delete
      split at changed
      · simp only [Except.ok.injEq,Prod.mk.injEq,true_and] at changed
        have fewer := countShrinks fun none => found (List.isEmpty_iff.mpr none)
        refine ih ?_ rest
        rw [← changed,← same]
        exact Nat.lt_of_lt_of_le fewer (Nat.le_of_lt_succ enough)
      · cases changed

theorem reconcilesAll {oracle : Oracle String} {session after}
    (ran : reconcileDanglingLinks context oracle session = (.ok (),after)) :
    danglingLinks context.linkBatchSize after.data.seen.memory = [] := by
  obtain ⟨links,_,counted,rest⟩ := bindOk.mp ran
  obtain ⟨rfl,rfl⟩ := inspectOk.mp counted
  exact roundsFinish _ (Nat.lt_succ_of_le (List.countP_le_length)) rest

/- Nothing of what comes before the purge is kept, and none of it touches the journal. -/

theorem queryUncommitted {α : Type} (ask : Store → α) : Transaction.Keeps Connection.committed (query ask : Sweeper α) :=
  keepsSelect _

theorem roundsUncommitted (rounds : Nat) : Transaction.Keeps Connection.committed (reconcileRounds context rounds) := by
  induction rounds with
  | zero => exact keepsPure ()
  | succ rounds ih =>
    refine keepsBind (queryUncommitted _) fun rows => ?_
    split
    · exact keepsPure ()
    · exact keepsBind executeUncommitted fun _ => ih

theorem collectUncommitted (memoryId : String) : Transaction.Keeps Connection.committed (collectMemory context.gc memoryId) := by
  refine keepsBind executeUncommitted fun rowcount => ?_
  split
  · exact keepsPure ()
  · exact keepsBind executeUncommitted fun _ => keepsBind executeUncommitted fun _ =>
      keepsBind executeUncommitted fun _ => executeUncommitted

theorem preparingUncommitted : Transaction.Keeps Connection.committed (preparing context) := by
  refine keepsBind (keepsBind (queryUncommitted _) fun _ => queryUncommitted _) fun _ => ?_
  refine keepsBind (keepsBind (keepsInspect _) fun links => roundsUncommitted _) fun _ => ?_
  refine keepsBind (keepsBind (queryUncommitted _) fun eligible => ?_) fun _ => executeUncommitted
  split
  · exact keepsEach fun memoryId _ => collectUncommitted memoryId
  · exact keepsPure ()

section
variable {inv : Store → Prop}

theorem changeSees {effect : Store → Store} (kept : ∀ store, inv store → inv (effect store)) :
    Ensures (SeesOnly inv) (change effect) fun _ => True :=
  executeSees fun store _ after holds taken => by cases taken; exact kept store holds

/- A property of the journal alone. -/
variable (journal : ∀ before after, after.journal = before.journal → inv before → inv after)
include journal

theorem apartSees {effect : Store → Store} (apart : ∀ store, (effect store).journal = store.journal) :
    Ensures (SeesOnly inv) (change effect) fun _ => True := changeSees fun store => journal store _ (apart store)

theorem roundsSees (rounds : Nat) : Ensures (SeesOnly inv) (reconcileRounds context rounds) fun _ => True := by
  induction rounds with
  | zero => exact ensuresPure trivial
  | succ rounds ih =>
    refine ensuresBind (querySees _) fun rows _ => ?_
    split
    · exact ensuresPure trivial
    · refine ensuresBind (executeSees fun store _ after holds taken => ?_) fun _ _ => ih
      split at taken <;> cases taken
      exact journal store _ rfl holds

theorem collectSees (memoryId : String) : Ensures (SeesOnly inv) (collectMemory context.gc memoryId) fun _ => True := by
  have deleted : Ensures (SeesOnly inv) (execute fun store => .ok (deleteExpired context.gc memoryId store) : Sweeper Nat) fun _ => True := by
    refine executeSees fun store rowcount after holds taken => ?_
    unfold deleteExpired at taken
    split at taken <;> cases taken
    · exact journal store _ rfl holds
    · exact holds
  refine ensuresBind deleted fun rowcount _ => ?_
  split
  · exact ensuresPure trivial
  · exact ensuresBind (apartSees journal fun _ => rfl) fun _ _ => ensuresBind (apartSees journal fun _ => rfl) fun _ _ =>
      ensuresBind (apartSees journal fun _ => rfl) fun _ _ => apartSees journal fun _ => rfl

theorem gcSees : Ensures (SeesOnly inv) (gcArchivedMemories context.gc) fun _ => True := by
  refine ensuresBind (querySees _) fun eligible _ => ?_
  split
  · exact ensuresEach fun memoryId _ => collectSees journal memoryId
  · exact ensuresPure trivial

theorem preparingSees : Ensures (SeesOnly inv) (preparing context) fun _ => True := by
  refine ensuresBind (ensuresBind (querySees _) fun _ _ => querySees _) fun _ _ => ?_
  have counted : Ensures (SeesOnly inv) (inspect fun c => c.seen.memory.links.length : Sweeper Nat) fun _ => True :=
    ensuresInspect fun _ _ => trivial
  refine ensuresBind (ensuresBind counted fun links _ => roundsSees journal _) fun _ _ => ?_
  exact ensuresBind (gcSees journal) fun _ _ => apartSees journal fun _ => rfl

theorem cleanupSees (ids : List Int) : Ensures (SeesOnly inv) (cleanupDeletedThoughtEmbeddings context ids) fun _ => True := by
  unfold cleanupDeletedThoughtEmbeddings
  split
  · exact ensuresEach fun id _ => ensuresBind (apartSees journal fun _ => rfl) fun _ _ => commitSees
  · exact ensuresPure trivial

end

/- The entries of these ids that were recoverable. -/
def Gone (ids : List Int) (store : Store) : Prop := ∀ entry ∈ store.journal, entry.id ∈ ids → entry.status ≠ .recoverable

section
variable {ids : List Int} {now : Int} {store : Store} {oracle : Oracle String}

theorem goneJournal (before after : Store) (same : after.journal = before.journal) (gone : Gone ids before) : Gone ids after := by
  unfold Gone
  rwa [same]

theorem dueRemains (due : dueIds now store ≠ []) : ¬ Gone (dueIds now store) store := by
  intro gone
  obtain ⟨id,listed⟩ := List.exists_mem_of_ne_nil _ due
  obtain ⟨entry,sorted,same⟩ := List.mem_map.mp listed
  obtain ⟨present,old⟩ := List.mem_filter.mp ((List.mem_insertionSort _).mp sorted)
  refine gone entry present (same ▸ listed) ?_
  unfold isDue at old
  simp only [Bool.and_eq_true,beq_iff_eq] at old
  exact old.1

theorem deletedGone : Gone ids { store with
    journal := store.journal.filter fun entry => !(ids.contains entry.id && entry.status == .recoverable) } := by
  intro entry kept listed recoverable
  have left := (List.mem_filter.mp kept).2
  simp [listed,recoverable] at left

theorem processedGone (cutoff : Int) (gone : Gone ids store) : Gone ids { store with journal := store.journal.filter fun entry =>
    !((entry.status == .processed || entry.status == .archived) && entry.timestamp < cutoff) } :=
  fun entry kept listed => gone entry (List.mem_filter.mp kept).1 listed

theorem finishingSees : Ensures (SeesOnly (Gone ids)) (finishing context) fun _ => True := by
  refine ensuresBind (changeSees fun store => processedGone context.cutoffTimestamp) fun _ _ => ?_
  refine ensuresBind (ensuresBind (querySees _) fun rows _ => ensuresEach fun row _ => ?_) fun _ _ => commitSees
  exact apartSees goneJournal fun _ => rfl

theorem afterSees (deleted : List Int) : Ensures (SeesOnly (Gone ids)) (afterFirstCommit context deleted) fun _ => True :=
  ensuresBind (cleanupSees goneJournal _) fun _ _ => finishingSees

/- The purge, with the COMMIT that the journal puts after it, or the vector store. -/

theorem changeSeen {effect : Store → Store} {session after} (ran : change effect oracle session = (.ok (),after)) :
    after.data.seen = effect session.data.seen := by
  have taken := executeSeen ran
  simp only [Except.ok.injEq,Prod.mk.injEq,true_and] at taken
  exact taken.symm

theorem deleteGone {session after} (ran : deleteRecoverable ids oracle session = (.ok (),after)) : Gone ids after.data.seen := by
  rw [changeSeen ran]
  exact deletedGone

theorem committedSees {session after} (gone : Gone ids session.data.seen)
    (ran : (commit : Sweeper Unit) oracle session = (.ok (),after)) : SeesOnly (Gone ids) after.data := by
  rw [commitEnds ran]
  exact ⟨gone,nofun⟩

theorem thoughtSees {modelName : Option String} {id : Int} {session after} (gone : Gone ids session.data.seen)
    (ran : deleteThought modelName id oracle session = (.ok (),after)) : SeesOnly (Gone ids) after.data := by
  obtain ⟨_,middle,changed,committed⟩ := bindOk.mp ran
  refine committedSees ?_ committed
  rw [changeSeen changed]
  exact goneJournal session.data.seen _ rfl gone

/- The ids are those due before the call. -/
theorem purgeIds {session after} (ran : purge context oracle session = (.ok ids,after)) :
    ids = dueIds context.cutoffTimestamp session.data.seen := by
  unfold purge purgeExpiredRecoverable purgeRecoverableJournalEntries at ran
  split at ran <;> obtain ⟨due,middle,asked,rest⟩ := bindOk.mp ran <;> rw [(selectOk asked).1] <;> split at rest
  · rename_i none
    rw [← (pureOk.mp rest).1,List.isEmpty_iff.mp none]
  · obtain ⟨_,_,_,rest⟩ := bindOk.mp rest
    obtain ⟨_,_,_,rest⟩ := bindOk.mp rest
    exact (pureOk.mp rest).1.symm
  · rename_i none
    rw [← (pureOk.mp rest).1,List.isEmpty_iff.mp none]
  · obtain ⟨_,_,_,rest⟩ := bindOk.mp rest
    exact (pureOk.mp rest).1.symm

theorem firstIds {moment after} (ran : firstCommit context oracle ⟨⟨store,none⟩,moment⟩ = (.ok ids,after)) :
    ids = dueIds context.cutoffTimestamp store := by
  obtain ⟨_,prepared,before,rest⟩ := bindOk.mp ran
  obtain ⟨due,_,purged,rest⟩ := bindOk.mp rest
  obtain ⟨_,_,_,rest⟩ := bindOk.mp rest
  have same : SeesOnly (fun data => data.journal = store.journal) prepared.data :=
    ((preparingSees fun _ _ same holds => same.trans holds).kept before ⟨rfl,nofun⟩).1
  rw [← (pureOk.mp rest).1,purgeIds purged]
  unfold dueIds
  rw [seesSeen same]

theorem cleanupNone : cleanupDeletedThoughtEmbeddings context [] = pure () := by
  unfold cleanupDeletedThoughtEmbeddings
  split <;> rfl

theorem cleanupIdle (deleted : List Int) (nothing : ids = [] ∨ commitsInside context = false) (part : deleted ⊆ ids) :
    cleanupDeletedThoughtEmbeddings context deleted = pure () := by
  rcases nothing with rfl | absent
  · rw [List.subset_nil.mp part]
    exact cleanupNone
  · unfold commitsInside at absent
    unfold cleanupDeletedThoughtEmbeddings
    simp [(Bool.or_eq_false_iff.mp absent).2]

theorem cleanupUnkept (id : Int) : Unkept (cleanupDeletedThoughtEmbeddings context [id]) := by
  unfold cleanupDeletedThoughtEmbeddings
  split
  · exact unkeptReturn (unkeptThen executeUncommitted fun _ => unkeptCommit) fun _ => ()
  · exact unkeptKeeps (keepsPure ())

theorem recoverableUncommitted (now : Int) : Transaction.Keeps Connection.committed (purgeRecoverableJournalEntries now) := by
  refine keepsBind (queryUncommitted _) fun ids => ?_
  split
  · exact keepsPure []
  · exact keepsBind executeUncommitted fun _ => keepsPure ids

theorem expiredUnkept (now : Int) : Unkept (purgeExpiredRecoverable now) := by
  refine unkeptThen (queryUncommitted _) fun ids => ?_
  split
  · exact unkeptKeeps (keepsPure [])
  · exact unkeptThen executeUncommitted fun _ => unkeptReturn unkeptCommit fun _ => ids

theorem firstUnkept : Unkept (firstCommit context) := by
  refine unkeptThen preparingUncommitted fun _ => ?_
  unfold purge
  split
  · rw [cleanupNone]
    exact unkeptReturn (expiredUnkept _) id
  · refine unkeptThen (recoverableUncommitted _) fun ids => ?_
    cases ids with
    | nil =>
      rw [List.take_nil,cleanupNone]
      exact unkeptKeeps (keepsPure [])
    | cons id rest => exact unkeptReturn (cleanupUnkept id) fun _ => id::rest

theorem purgeKept {session after} (nothing : ids = [] ∨ commitsInside context = false)
    (ran : purge context oracle session = (.ok ids,after)) : after.data.committed = session.data.committed := by
  unfold purge at ran
  split at ran
  · rename_i journal
    obtain ⟨due,middle,asked,rest⟩ := bindOk.mp ran
    rw [← (queryUncommitted _).ok asked]
    split at rest
    · rw [← (pureOk.mp rest).2]
    · rename_i found
      obtain ⟨_,_,_,rest⟩ := bindOk.mp rest
      obtain ⟨_,_,_,rest⟩ := bindOk.mp rest
      rw [(pureOk.mp rest).1] at found
      unfold commitsInside at nothing
      simp [journal] at nothing
      exact absurd (List.isEmpty_iff.mpr nothing) found
  · exact (recoverableUncommitted _).ok ran

theorem firstKept {moment after} (nothing : ids = [] ∨ commitsInside context = false)
    (ran : firstCommit context oracle ⟨⟨store,none⟩,moment⟩ = (.ok ids,after)) : after.data.committed = store := by
  obtain ⟨_,prepared,before,rest⟩ := bindOk.mp ran
  obtain ⟨due,purged,run,rest⟩ := bindOk.mp rest
  obtain ⟨_,cleaned,clean,rest⟩ := bindOk.mp rest
  obtain ⟨rfl,rfl⟩ := pureOk.mp rest
  rw [cleanupIdle _ nothing (by split; exact List.nil_subset _; exact List.take_subset _ _)] at clean
  rw [← (pureOk.mp clean).2,purgeKept nothing run]
  exact preparingUncommitted.ok before

/- Once the first COMMIT is made. -/
theorem firstSees {session after} (found : ids ≠ []) (commits : commitsInside context = true)
    (ran : firstCommit context oracle session = (.ok ids,after)) : SeesOnly (Gone ids) after.data := by
  obtain ⟨_,prepared,before,rest⟩ := bindOk.mp ran
  obtain ⟨due,purged,run,rest⟩ := bindOk.mp rest
  obtain ⟨_,cleaned,clean,rest⟩ := bindOk.mp rest
  obtain ⟨rfl,rfl⟩ := pureOk.mp rest
  unfold purge at run
  split at run
  · rename_i journal
    rw [if_pos journal,cleanupNone] at clean
    rw [← (pureOk.mp clean).2]
    obtain ⟨listed,middle,asked,rest⟩ := bindOk.mp run
    split at rest
    · exact absurd (pureOk.mp rest).1.symm found
    · obtain ⟨_,deleted,delete,rest⟩ := bindOk.mp rest
      obtain ⟨_,committed,commit,rest⟩ := bindOk.mp rest
      obtain ⟨rfl,rfl⟩ := pureOk.mp rest
      exact committedSees (deleteGone delete) commit
  · rename_i journal
    have vector : context.hasVectorStore = true := by simpa [commitsInside,journal] using commits
    obtain ⟨listed,middle,asked,rest⟩ := bindOk.mp run
    split at rest
    · exact absurd (pureOk.mp rest).1.symm found
    · obtain ⟨_,deleted,delete,rest⟩ := bindOk.mp rest
      obtain ⟨rfl,rfl⟩ := pureOk.mp rest
      obtain ⟨id,others,rfl⟩ := List.exists_cons_of_ne_nil found
      rw [if_neg journal] at clean
      unfold cleanupDeletedThoughtEmbeddings at clean
      rw [if_pos vector] at clean
      obtain ⟨_,thought,removed,rest⟩ := bindOk.mp clean
      rw [← (pureOk.mp rest).2]
      exact thoughtSees (deleteGone delete) removed

theorem finishingUnkept : Unkept (finishing context) := by
  refine unkeptThen executeUncommitted fun _ => unkeptThen ?_ fun _ => unkeptCommit
  exact keepsBind (queryUncommitted _) fun rows => keepsEach fun row _ => executeUncommitted

theorem afterUnkept (nothing : ids = [] ∨ commitsInside context = false) : Unkept (afterFirstCommit context ids) := by
  unfold afterFirstCommit
  rw [cleanupIdle _ nothing (by split; exact List.Subset.refl _; exact List.drop_subset _ _)]
  exact unkeptThen (keepsPure ()) fun _ => finishingUnkept

end

/- The call from an idle connection leaves nothing behind if it raises. -/
def Atomic (context : Context) (oracle : Oracle String) (store : Store) (moment : Nat) : Prop :=
  ∀ error, (housekeeping (sweep context) oracle ⟨⟨store,none⟩,moment⟩).1 = .error error →
    (housekeeping (sweep context) oracle ⟨⟨store,none⟩,moment⟩).2.data = ⟨store,none⟩

/- The first COMMIT of the sweep is made, and a statement after it raises. -/
def FailsLate (context : Context) (oracle : Oracle String) (store : Store) (moment : Nat) : Prop :=
  ∃ ids after error, firstCommit context oracle ⟨⟨store,none⟩,moment⟩ = (.ok ids,after) ∧
    (afterFirstCommit context ids oracle after).1 = .error error

section
variable {oracle : Oracle String} {store : Store} {moment : Nat}

theorem failsLateKept {ids after error} (due : dueIds context.cutoffTimestamp store ≠ []) (commits : commitsInside context = true)
    (first : firstCommit context oracle ⟨⟨store,none⟩,moment⟩ = (.ok ids,after))
    (late : (afterFirstCommit context ids oracle after).1 = .error error) : ¬ Atomic context oracle store moment := by
  intro atomic
  have same := firstIds first
  have split : (sweep context >>= fun result => commit >>= fun _ => pure result) oracle ⟨⟨store,none⟩,moment⟩ =
      afterFirstCommit context ids oracle after := by
    rw [sweepSplits,bindRuns,first]
  have raised : (housekeeping (sweep context) oracle ⟨⟨store,none⟩,moment⟩).1 = .error error := by
    rw [housekeeping,rollingBackRaises,split,late]
  have kept := (rollingBackFails raised).2
  rw [split] at kept
  have left : (afterFirstCommit context ids oracle after).2.data.committed = store :=
    congrArg Connection.committed (kept.symm.trans (atomic error raised))
  have ensured : Ensures (SeesOnly (Gone ids)) (afterFirstCommit context ids) fun _ => True := afterSees ids
  have gone := (ensured oracle after (firstSees (same ▸ due) commits first)).1.1
  rw [left,same] at gone
  exact dueRemains due gone

theorem earlyAtomic (early : dueIds context.cutoffTimestamp store = [] ∨ commitsInside context = false ∨
    ¬ FailsLate context oracle store moment) : Atomic context oracle store moment := by
  intro error raised
  obtain ⟨inner,kept⟩ := rollingBackFails raised
  refine kept.trans (congrArg (Connection.mk · none) ?_)
  rw [sweepSplits,bindRuns] at inner ⊢
  cases first : firstCommit context oracle ⟨⟨store,none⟩,moment⟩ with
  | mk answer after =>
    rw [first] at inner
    cases answer with
    | error failed => exact (congrArg (·.2.data.committed) first).symm.trans (firstUnkept oracle _ failed (by rw [first]))
    | ok ids =>
      have nothing : ids = [] ∨ commitsInside context = false := by
        rcases early with none | absent | never
        · exact .inl ((firstIds first).trans none)
        · exact .inr absent
        · exact absurd ⟨ids,after,error,first,inner⟩ never
      exact (afterUnkept nothing oracle after error inner).trans (firstKept nothing first)

theorem sweepAtomic : Atomic context oracle store moment ↔ dueIds context.cutoffTimestamp store = [] ∨
    commitsInside context = false ∨ ¬ FailsLate context oracle store moment := by
  constructor
  · intro atomic
    by_cases due : dueIds context.cutoffTimestamp store = []
    · exact .inl due
    cases commits : commitsInside context with
    | false => exact .inr (.inl rfl)
    | true =>
      refine .inr (.inr ?_)
      rintro ⟨ids,after,error,first,late⟩
      exact failsLateKept due commits first late atomic
  · exact earlyAtomic

/- The embedding of a purged thought cannot be deleted. -/
theorem purgeKeptForGood : ¬ Atomic ⟨true,true,none,none,100,⟨"2026-01-01","2026-04-01",100,false⟩,1000⟩
    (fun moment => ⟨if moment = 9 then some "disk I/O error" else none,"","",0⟩)
    ⟨Memory.empty,[],[],[],[⟨1,"note",none,0,.recoverable,none,none,some 500⟩]⟩ 0 := by
  intro atomic
  have kept := congrArg (·.committed.journal.length) (atomic "disk I/O error" rfl)
  exact absurd kept (by decide)

end

end McpMemory.Maintenance.Sweeping
