import McpMemory.Maintenance.Sweeping

/-! What a sweep that only reports on archived memories leaves of the memories and of their links: the
dead keys of the metadata go, and links that lead nowhere. -/
namespace McpMemory.Maintenance.Sweeping
open Transaction Connection Memory Reconcile

def prunedRow (row : MemoryRow) : MemoryRow := { row with metadata := pruned row.metadata }

/- Before the metadata is pruned. -/
structure Relinked (before t : Tables) : Prop where
  rest : t = { before with links := t.links }
  fewer : t.links ⊆ before.links
  kept : ∀ link ∈ before.links, isDangling before link = false → link ∈ t.links

structure Swept (before after : Tables) : Prop where
  memories : after.memories = before.memories.map prunedRow
  workspaces : after.workspaces = before.workspaces
  tags : after.tags = before.tags
  memoryTags : after.memoryTags = before.memoryTags
  fewer : after.links ⊆ before.links
  kept : ∀ link ∈ before.links, isDangling before link = false → link ∈ after.links

section
variable {before t other : Tables} {rows : List MemoryLink} {context : Context}

theorem relinkedDangling (relinked : Relinked before t) (link : MemoryLink) : isDangling t link = isDangling before link := by
  rw [relinked.rest]
  rfl

theorem relinkedDelete (relinked : Relinked before t) (dangling : ∀ link ∈ rows, isDangling before link) :
    Relinked before (deleteLinks rows t) where
  rest := by
    rw [deleteLinks]
    conv_lhs => rw [relinked.rest]
  fewer link member := relinked.fewer (List.mem_of_mem_filter member)
  kept link member leads := by
    refine List.mem_filter.mpr ⟨relinked.kept link member leads,?_⟩
    rw [Bool.not_eq_true',← Bool.not_eq_true,List.contains_iff_mem]
    intro listed
    obtain ⟨row,found,same⟩ := List.mem_map.mp listed
    rw [← danglingKey same,dangling row found] at leads
    cases leads

def Relinks (before : Tables) (store : Store) : Prop := Relinked before store.memory

theorem roundsRelink (rounds : Nat) : Ensures (SeesOnly (Relinks before)) (reconcileRounds context rounds) fun _ => True := by
  induction rounds with
  | zero => exact ensuresPure trivial
  | succ rounds ih =>
    have told : Ensures (SeesOnly (Relinks before)) (query fun store => danglingLinks context.linkBatchSize store.memory : Sweeper _)
        fun rows => ∀ link ∈ rows, isDangling before link :=
      queryTells fun store relinked link member => relinkedDangling relinked link ▸ memDanglingLinks member
    refine ensuresBind told fun rows dangling => ?_
    split
    · exact ensuresPure trivial
    · refine ensuresBind (executeSees fun store _ after relinked taken => ?_) fun _ _ => ih
      split at taken <;> cases taken
      exact relinkedDelete relinked dangling

/- A step that leaves the memories alone. -/
theorem apartRelinks {effect : Store → Store} (apart : ∀ store, (effect store).memory = store.memory) :
    Ensures (SeesOnly (Relinks before)) (change effect) fun _ => True :=
  changeSees fun store relinked => show Relinked before _ from (apart store).symm ▸ relinked

theorem preparingRelinks (report : context.gc.delete = false) :
    Ensures (SeesOnly (Relinks before)) (preparing context) fun _ => True := by
  refine ensuresBind (ensuresBind (querySees _) fun _ _ => querySees _) fun _ _ => ?_
  have counted : Ensures (SeesOnly (Relinks before)) (inspect fun c => c.seen.memory.links.length : Sweeper Nat) fun _ => True :=
    ensuresInspect fun _ _ => trivial
  refine ensuresBind (ensuresBind counted fun links _ => roundsRelink _) fun _ _ => ?_
  have collected : Ensures (SeesOnly (Relinks before)) (gcArchivedMemories context.gc) fun _ => True := by
    refine ensuresBind (querySees _) fun eligible _ => ?_
    rw [report]
    exact ensuresPure trivial
  exact ensuresBind collected fun _ _ => apartRelinks fun _ => rfl

theorem purgeRelinks : Ensures (SeesOnly (Relinks before)) (purge context) fun _ => True := by
  unfold purge
  split
  · refine ensuresBind (querySees _) fun ids _ => ?_
    split
    · exact ensuresPure trivial
    · exact ensuresBind (apartRelinks fun _ => rfl) fun _ _ => ensuresBind commitSees fun _ _ => ensuresPure trivial
  · refine ensuresBind (querySees _) fun ids _ => ?_
    split
    · exact ensuresPure trivial
    · exact ensuresBind (apartRelinks fun _ => rfl) fun _ _ => ensuresPure trivial

theorem cleanupRelinks (ids : List Int) :
    Ensures (SeesOnly (Relinks before)) (cleanupDeletedThoughtEmbeddings context ids) fun _ => True := by
  unfold cleanupDeletedThoughtEmbeddings
  split
  · exact ensuresEach fun id _ => ensuresBind (apartRelinks fun _ => rfl) fun _ _ => commitSees
  · exact ensuresPure trivial

end

/- The rows are written back one by one. -/

def prunedWith (rows : List MemoryRow) (row : MemoryRow) : MemoryRow :=
  match rows.find? (·.id == row.id) with
  | some found => { row with metadata := pruned found.metadata }
  | none => row

def pruneRow (t : Tables) (row : MemoryRow) : Tables := { t with
  memories := Table.update (·.id == row.id) (fun old => { old with metadata := pruned row.metadata }) t.memories }

theorem prunesSeen {rows : List MemoryRow} {oracle : Oracle String} {session after}
    (ran : each (fun row => pruneMetadata row.id (pruned row.metadata)) rows oracle session = (.ok (),after)) :
    after.data.seen.memory = rows.foldl pruneRow session.data.seen.memory := by
  induction rows generalizing session with
  | nil => rw [← (pureOk.mp ran).2]; rfl
  | cons row rest ih =>
    obtain ⟨_,middle,first,later⟩ := bindOk.mp ran
    have written : change (fun store => { store with memory := pruneRow store.memory row }) oracle session = (.ok (),middle) := first
    rw [ih later,changeSeen written]
    rfl

theorem pruneRows {rows : List MemoryRow} (distinct : (rows.map (·.id)).Nodup) (t : Tables) :
    rows.foldl pruneRow t = { t with memories := t.memories.map (prunedWith rows) } := by
  induction rows generalizing t with
  | nil =>
    show t = { t with memories := t.memories.map id }
    rw [List.map_id]
  | cons row rest ih =>
    rw [List.map_cons,List.nodup_cons] at distinct
    rw [List.foldl_cons,ih distinct.2,pruneRow,Table.update]
    dsimp only
    rw [List.map_map]
    refine congrArg (fun memories => { t with memories := memories }) (List.map_congr_left fun old _ => ?_)
    rw [Function.comp_apply,prunedWith,prunedWith]
    by_cases same : row.id = old.id
    · have fresh : rest.find? (·.id == old.id) = none := by
        refine List.find?_eq_none.mpr fun other member found => distinct.1 ?_
        rw [same,← eq_of_beq found]
        exact List.mem_map_of_mem member
      simp [same,fresh]
    · have apart : ¬ old.id = row.id := fun equal => same equal.symm
      simp [apart,same]

theorem prunedStill {row : MemoryRow} (clean : isPruned row = false) : prunedRow row = row := by
  have kept : pruned row.metadata = row.metadata := by
    refine List.filter_eq_self.mpr fun field member => ?_
    have apart := List.any_eq_false.mp clean field member
    simpa using apart
  rw [prunedRow,kept]

theorem pruneAll {t : Tables} (distinct : (t.memories.map (·.id)).Nodup) :
    (t.memories.filter isPruned).foldl pruneRow t = { t with memories := t.memories.map prunedRow } := by
  have part : ((t.memories.filter isPruned).map (·.id)).Nodup := distinct.sublist (List.filter_sublist.map _)
  rw [pruneRows part]
  refine congrArg (fun memories => { t with memories := memories }) (List.map_congr_left fun row member => ?_)
  unfold prunedWith
  cases found : (t.memories.filter isPruned).find? (·.id == row.id) with
  | some other =>
    have there := List.mem_of_mem_filter (List.mem_of_find?_eq_some found)
    have named : other.id = row.id := eq_of_beq (List.find?_some found :)
    rw [List.inj_on_of_nodup_map distinct there member named]
    rfl
  | none =>
    cases dirty : isPruned row with
    | false => exact (prunedStill dirty).symm
    | true => exact absurd (BEq.rfl) (List.find?_eq_none.mp found row (List.mem_filter.mpr ⟨member,dirty⟩))

theorem firstRelinks {context : Context} {before : Tables} (report : context.gc.delete = false) :
    Ensures (SeesOnly (Relinks before)) (firstCommit context) fun _ => True :=
  ensuresBind (preparingRelinks report) fun _ _ => ensuresBind purgeRelinks fun _ _ =>
    ensuresBind (cleanupRelinks _) fun _ _ => ensuresPure trivial

theorem sweepPrunes {context : Context} {store : Store} {oracle : Oracle String} {moment : Nat} {after}
    (distinct : (store.memory.memories.map (·.id)).Nodup) (report : context.gc.delete = false)
    (ran : housekeeping (sweep context) oracle ⟨⟨store,none⟩,moment⟩ = (.ok (),after)) :
    Swept store.memory after.data.committed.memory := by
  have body : (sweep context >>= fun result => commit >>= fun _ => pure result) oracle ⟨⟨store,none⟩,moment⟩ = (.ok (),after) := by
    unfold housekeeping rollingBack at ran
    split at ran
    · rename_i found
      exact found.trans ran
    · cases ran
  rw [sweepSplits] at body
  obtain ⟨ids,cut,first,rest⟩ := bindOk.mp body
  obtain ⟨_,cleaned,clean,rest⟩ := bindOk.mp rest
  obtain ⟨_,processed,process,rest⟩ := bindOk.mp rest
  obtain ⟨_,pruned,prune,last⟩ := bindOk.mp rest
  have start : SeesOnly (Relinks store.memory) (⟨store,none⟩ : Connection Store) :=
    ⟨⟨rfl,List.Subset.refl _,fun _ member _ => member⟩,nofun⟩
  have atCut := ((firstRelinks report).kept first start).1
  have atCleaned := ((cleanupRelinks _).kept clean atCut).1
  have apart : Ensures (SeesOnly (Relinks store.memory)) (purgeProcessedJournalEntries context.cutoffTimestamp) fun _ => True :=
    apartRelinks fun _ => rfl
  have relinked : Relinked store.memory processed.data.seen.memory := seesSeen (apart.kept process atCleaned).1
  obtain ⟨rows,read,asked,written⟩ := bindOk.mp prune
  obtain ⟨rfl,same⟩ := selectOk asked
  have memories : processed.data.seen.memory.memories = store.memory.memories := by rw [relinked.rest]
  have done := prunesSeen written
  rw [← same,pruneAll (memories ▸ distinct)] at done
  rw [commitEnds last]
  have links : pruned.data.seen.memory.links = processed.data.seen.memory.links := by rw [done]
  constructor
  · rw [done,← memories]
  · rw [done,relinked.rest]
  · rw [done,relinked.rest]
  · rw [done,relinked.rest]
  · rw [links]
    exact relinked.fewer
  · rw [links]
    exact relinked.kept

end McpMemory.Maintenance.Sweeping
