import McpMemory.Memory.Tables

/-! `rebuild_semantic_index` of `memory_embedding_maintenance.py` over the SQLite stores. The records
are embedded and handed to the vector index by the ingestor of `searchkernel`, which is taken as it
comes; so is how a timestamp is read and written. -/
namespace McpMemory.Rebuild
open Memory Table

structure EmbeddingRow (ν : Type) where
  sourceKind : String
  sourceId : String
  workspaceId : Option String
  modelName : String
  embedding : ν
  memoryUpdatedAt : Option String

structure Store (ν : Type) where
  tables : Tables
  embeddings : List (EmbeddingRow ν)

structure KernelRecord where
  sourceId : String
  workspaceId : Option String
  updatedAt : String
  indexedText : String
  deriving DecidableEq, Repr

def inlineEmbeddingRepairLimit : Nat := 64

variable {ν : Type}

def listedLe (a b : MemoryRow) : Bool :=
  b.updatedAt < a.updatedAt || b.updatedAt == a.updatedAt && b.createdAt ≤ a.createdAt

/- `ORDER BY updated_at DESC, created_at DESC`; a negative limit is none. -/
def listMemories (limit : Int) (t : Tables) : List MemoryRecord :=
  let rows := t.memories.insertionSort (listedLe · ·)
  (if limit < 0 then rows else rows.take limit.toNat).map (hydrateRecord t)

def deleteByModel (modelName : String) (store : Store ν) : Store ν := { store with
  embeddings := store.embeddings.filter fun row => !(row.sourceKind == "memory" && row.modelName == modelName) }

def isEmbedding (sourceId modelName : String) (row : EmbeddingRow ν) : Bool :=
  row.sourceKind == "memory" && row.sourceId == sourceId && row.modelName == modelName

/- The upsert of a memory's embedding. It is left out where the memory has changed since it was read,
and an older embedding does not replace a newer one. -/
def upsert (modelName : String) (record : KernelRecord) (embedding : ν) (store : Store ν) : Store ν :=
  match selectRow record.sourceId store.tables with
  | none => store
  | some current =>
    if current.updatedAt = record.updatedAt then
      let row : EmbeddingRow ν := ⟨"memory",record.sourceId,record.workspaceId,modelName,embedding,some record.updatedAt⟩
      let isHere := isEmbedding record.sourceId modelName
      if store.embeddings.any isHere then { store with
        embeddings := update (fun old => isHere old && old.memoryUpdatedAt.all (· ≤ record.updatedAt)) (fun _ => row)
          store.embeddings }
      else { store with embeddings := store.embeddings ++ [row] }
    else store

/- The ingestor's `index_records`: how many records failed, and the stores after it. -/
structure Kernel (ν : Type) where
  index : List KernelRecord → Store ν → Nat × Store ν
  embed : KernelRecord → ν

/- Without a failure every record was embedded and handed to the vector index, one after another. -/
def Kernel.Commits (kernel : Kernel ν) (modelName : String) : Prop := ∀ records store, (kernel.index records store).1 = 0 →
  (kernel.index records store).2 = records.foldl (fun store record => upsert modelName record (kernel.embed record) store) store

structure Maintenance (ν : Type) where
  semanticEnabled : Bool
  fallbackBlocked : Bool
  deletesByModel : Bool
  modelName : String
  /- `datetime.fromisoformat` and `isoformat`. -/
  stamp : String → Option String
  kernel : Kernel ν

inductive RebuildError where
  | valueError
  | ingestionError (failed : Nat)
  deriving DecidableEq, Repr

structure Rebuilt where
  semanticEnabled : Bool
  rebuilt : Bool
  recordsIndexed : Nat
  reason : Option String
  deriving DecidableEq, Repr

def memoryEmbeddingText (memory : MemoryRecord) : String :=
  String.intercalate "\n" ([memory.summary.getD "",memory.content,String.intercalate ", " memory.tags].filter (· != ""))

def toKernelRecord (m : Maintenance ν) (memory : MemoryRecord) : Option KernelRecord := do
  let _ ← m.stamp memory.createdAt
  let updatedAt ← m.stamp memory.updatedAt
  pure ⟨memory.id,memory.workspaceIds.find? (· != ""),updatedAt,memoryEmbeddingText memory⟩

def repairLe (a b : MemoryRecord) : Bool := b.updatedAt < a.updatedAt || b.updatedAt == a.updatedAt && b.id ≤ a.id

/- `sorted` in reverse by the timestamp and the id. -/
def prioritizeEmbeddingRepairs (candidates : List MemoryRecord) : List MemoryRecord :=
  candidates.insertionSort (repairLe · ·)

def indexMemoryRecords (m : Maintenance ν) (records : List MemoryRecord) (store : Store ν) :
    Except RebuildError Unit × Store ν :=
  match records.mapM (toKernelRecord m) with
  | none => (.error .valueError,store)
  | some kernelRecords =>
    let ran := m.kernel.index kernelRecords store
    (if ran.1 = 0 then .ok () else .error (.ingestionError ran.1),ran.2)

/- No more than the limit at once, the newest first. -/
def batch (staleOrMissing : List MemoryRecord) : List MemoryRecord :=
  if staleOrMissing.length > inlineEmbeddingRepairLimit then
    (prioritizeEmbeddingRepairs staleOrMissing).take inlineEmbeddingRepairLimit
  else staleOrMissing

def ensureMemoryEmbeddings (m : Maintenance ν) (candidates : List MemoryRecord) (store : Store ν) :
    Except RebuildError Unit × Store ν :=
  if candidates.isEmpty then (.ok (),store)
  else indexMemoryRecords m (batch candidates) store

def candidates (limit : Int) (t : Tables) : List MemoryRecord := (listMemories limit t).filter (·.status != "archived")

def rebuildSemanticIndex (m : Maintenance ν) (limit : Int) (store : Store ν) : Except RebuildError Rebuilt × Store ν :=
  if m.semanticEnabled = false then (.ok ⟨false,false,0,some "semantic_search_disabled"⟩,store)
  else if m.fallbackBlocked then (.ok ⟨true,false,0,some "fallback_embedding_persistence_blocked"⟩,store)
  else if m.deletesByModel = false then (.ok ⟨true,false,0,some "vector_store_rebuild_unsupported"⟩,store)
  else
    let listed := candidates limit store.tables
    match ensureMemoryEmbeddings m listed (deleteByModel m.modelName store) with
    | (.ok (),after) => (.ok ⟨true,true,listed.length,none⟩,after)
    | (.error error,after) => (.error error,after)

/- What a rebuild is for. -/

def HasEmbedding (modelName : String) (store : Store ν) (memoryId : String) : Prop :=
  ∃ row ∈ store.embeddings, isEmbedding memoryId modelName row

instance (modelName : String) (store : Store ν) : DecidablePred (HasEmbedding modelName store) := fun _ => by
  unfold HasEmbedding; infer_instance

def Covers (m : Maintenance ν) (limit : Int) (store after : Store ν) (recordsIndexed : Nat) : Prop :=
  (∀ record ∈ candidates limit store.tables, HasEmbedding m.modelName after record.id) ∧
    recordsIndexed = after.tables.memories.countP fun row => HasEmbedding m.modelName after row.id

section
variable {m : Maintenance ν} {limit : Int} {store after : Store ν} {modelName : String}

/- The record is as it is stored. -/
def Current (t : Tables) (record : KernelRecord) : Prop :=
  ∃ row, selectRow record.sourceId t = some row ∧ row.updatedAt = record.updatedAt

theorem isEmbeddingIff {sourceId : String} {row : EmbeddingRow ν} : isEmbedding sourceId modelName row = true ↔
    row.sourceKind = "memory" ∧ row.sourceId = sourceId ∧ row.modelName = modelName := by
  simp [isEmbedding,and_assoc]

theorem hasDeleted (memoryId : String) : ¬ HasEmbedding modelName (deleteByModel modelName store) memoryId := by
  rintro ⟨row,member,here⟩
  obtain ⟨kind,_,model⟩ := isEmbeddingIff.mp here
  have kept := (List.mem_filter.mp member).2
  simp [kind,model] at kept

theorem upsertTables (record : KernelRecord) (embedding : ν) :
    (upsert modelName record embedding store).tables = store.tables := by
  unfold upsert
  split
  · rfl
  · dsimp only
    split
    · split <;> rfl
    · rfl

/- An upsert adds the embedding of a record that is as it is stored, and takes none away. -/
theorem hasUpsert (record : KernelRecord) (embedding : ν) (memoryId : String) :
    HasEmbedding modelName (upsert modelName record embedding store) memoryId ↔
      HasEmbedding modelName store memoryId ∨ record.sourceId = memoryId ∧ Current store.tables record := by
  unfold upsert Current
  split
  · rename_i absent
    simp [absent]
  · rename_i current found
    by_cases same : current.updatedAt = record.updatedAt
    · simp only [same,if_true,found,Option.some.injEq,exists_eq_left',and_true]
      split
      · rename_i there
        obtain ⟨stored,member,here⟩ := List.any_eq_true.mp there
        obtain ⟨kind,source,model⟩ := isEmbeddingIff.mp here
        constructor
        · rintro ⟨row,present,hit⟩
          obtain ⟨old,was,rfl⟩ := memUpdate.mp present
          split at hit
          · exact .inr (isEmbeddingIff.mp hit).2.1
          · exact .inl ⟨old,was,hit⟩
        · intro either
          have old : ∃ row ∈ store.embeddings, isEmbedding memoryId modelName row := by
            rcases either with there | rfl
            · exact there
            · exact ⟨stored,member,here⟩
          obtain ⟨row,present,hit⟩ := old
          refine ⟨_,memUpdate.mpr ⟨row,present,rfl⟩,?_⟩
          split
          · rename_i replaced
            have named := (isEmbeddingIff.mp (Bool.and_eq_true_iff.mp replaced).1).2.1
            exact isEmbeddingIff.mpr ⟨rfl,named.symm.trans (isEmbeddingIff.mp hit).2.1,rfl⟩
          · exact hit
      · simp [HasEmbedding,isEmbedding,or_and_right,exists_or]
    · simp [same,found]

theorem hasUpserts {embed : KernelRecord → ν} {records : List KernelRecord} (memoryId : String) :
    HasEmbedding modelName (records.foldl (fun store record => upsert modelName record (embed record) store) store) memoryId ↔
      HasEmbedding modelName store memoryId ∨ ∃ record ∈ records, record.sourceId = memoryId ∧ Current store.tables record := by
  induction records generalizing store with
  | nil => simp
  | cons record rest ih =>
    rw [List.foldl_cons,ih,hasUpsert,upsertTables]
    simp [or_assoc]

theorem upsertsTables {embed : KernelRecord → ν} {records : List KernelRecord} :
    (records.foldl (fun store record => upsert modelName record (embed record) store) store).tables = store.tables := by
  induction records generalizing store with
  | nil => rfl
  | cons record rest ih => rw [List.foldl_cons,ih,upsertTables]

/- The listed memories are some of those stored, each once. -/
theorem listedRows (limit : Int) (t : Tables) : ∃ rows : List MemoryRow, candidates limit t = rows.map (hydrateRecord t) ∧
    (∀ row ∈ rows, row ∈ t.memories) ∧ (UniqueBy (·.id) t.memories → UniqueBy (·.id) rows) := by
  unfold candidates listMemories
  dsimp only
  generalize ordered : t.memories.insertionSort (listedLe · ·) = all
  have perm : all.Perm t.memories := by
    rw [← ordered]
    exact List.perm_insertionSort (listedLe · ·) t.memories
  have cut : ∃ part : List MemoryRow, (if limit < 0 then all else all.take limit.toNat) = part ∧ part.Sublist all := by
    split
    · exact ⟨all,rfl,List.Sublist.refl _⟩
    · exact ⟨_,rfl,List.take_sublist _ _⟩
  obtain ⟨part,same,sublist⟩ := cut
  rw [same,List.filter_map]
  refine ⟨_,rfl,fun row member => ?_,fun unique => ?_⟩
  · exact perm.subset (sublist.subset (List.mem_filter.mp member).1)
  · have whole : UniqueBy (·.id) all := (perm.map fun row : MemoryRow => row.id).nodup_iff.mpr unique
    exact List.Nodup.sublist ((List.filter_sublist.trans sublist).map _) whole

theorem batchListed {listed : List MemoryRecord} : ∀ record ∈ batch listed, record ∈ listed := by
  intro record member
  unfold batch at member
  split at member
  · have sorted : record ∈ prioritizeEmbeddingRepairs listed := List.mem_of_mem_take member
    exact (List.mem_insertionSort (repairLe · ·)).mp sorted
  · exact member

theorem batchLength {listed : List MemoryRecord} : (batch listed).length ≤ inlineEmbeddingRepairLimit := by
  unfold batch
  split
  · rw [List.length_take]
    omega
  · omega

theorem batchEmpty {listed : List MemoryRecord} (none : listed.isEmpty = true) : batch listed = [] := by
  rw [List.isEmpty_iff.mp none]
  rfl

/- A rebuild that reports rebuilt has handed its batch to the vector index. -/
theorem rebuiltBatch {m : Maintenance ν} {recordsIndexed : Nat} (commits : m.kernel.Commits m.modelName)
    (rebuilt : rebuildSemanticIndex m limit store = (.ok ⟨true,true,recordsIndexed,none⟩,after)) :
    recordsIndexed = (candidates limit store.tables).length ∧
    ∃ records, (batch (candidates limit store.tables)).mapM (toKernelRecord m) = some records ∧
      after = records.foldl (fun store record => upsert m.modelName record (m.kernel.embed record) store)
        (deleteByModel m.modelName store) := by
  unfold rebuildSemanticIndex at rebuilt
  split at rebuilt
  · simp at rebuilt
  · split at rebuilt
    · simp at rebuilt
    · split at rebuilt
      · simp at rebuilt
      · dsimp only at rebuilt
        split at rebuilt
        · rename_i indexed
          simp only [Prod.mk.injEq,Except.ok.injEq,Rebuilt.mk.injEq,true_and,and_true] at rebuilt
          obtain ⟨rfl,rfl⟩ := rebuilt
          refine ⟨rfl,?_⟩
          unfold ensureMemoryEmbeddings at indexed
          split at indexed
          · rename_i empty
            cases indexed
            exact ⟨[],by rw [batchEmpty empty]; rfl,rfl⟩
          · unfold indexMemoryRecords at indexed
            split at indexed
            · simp at indexed
            · rename_i records read
              dsimp only at indexed
              split at indexed
              · rename_i committed
                cases indexed
                exact ⟨records,read,commits _ _ committed⟩
              · simp at indexed
        · simp at rebuilt

theorem memMapM {α β : Type} {f : α → Option β} {items : List α} {all : List β} (read : items.mapM f = some all) :
    (∀ b ∈ all, ∃ a ∈ items, f a = some b) ∧ ∀ a ∈ items, ∃ b ∈ all, f a = some b := by
  induction items generalizing all with
  | nil =>
    simp only [List.mapM_nil,pure,Option.some.injEq] at read
    subst read
    simp
  | cons first rest ih =>
    simp only [List.mapM_cons,bind,pure,Option.bind_eq_some_iff] at read
    obtain ⟨b,here,others,later,same⟩ := read
    cases same
    obtain ⟨back,forth⟩ := ih later
    constructor
    · intro other member
      rcases List.mem_cons.mp member with rfl | member
      · exact ⟨first,List.mem_cons_self,here⟩
      · obtain ⟨a,inside,same⟩ := back other member
        exact ⟨a,List.mem_cons_of_mem _ inside,same⟩
    · intro a member
      rcases List.mem_cons.mp member with rfl | member
      · exact ⟨b,List.mem_cons_self,here⟩
      · obtain ⟨other,inside,same⟩ := forth a member
        exact ⟨other,List.mem_cons_of_mem _ inside,same⟩

theorem kernelRecordOf {m : Maintenance ν} {memory : MemoryRecord} {record : KernelRecord}
    (read : toKernelRecord m memory = some record) :
    record.sourceId = memory.id ∧ m.stamp memory.updatedAt = some record.updatedAt := by
  simp only [toKernelRecord,bind,pure,Option.bind_eq_some_iff] at read
  obtain ⟨_,_,updatedAt,stamped,same⟩ := read
  cases same
  exact ⟨rfl,stamped⟩

/- The memories that a rebuild gives an embedding: those of its batch whose timestamp is read and
written back as it is stored. -/
theorem hasRebuilt {m : Maintenance ν} {recordsIndexed : Nat} (commits : m.kernel.Commits m.modelName)
    (unique : UniqueBy (·.id) store.tables.memories)
    (rebuilt : rebuildSemanticIndex m limit store = (.ok ⟨true,true,recordsIndexed,none⟩,after)) (memoryId : String) :
    HasEmbedding m.modelName after memoryId ↔ ∃ memory ∈ batch (candidates limit store.tables),
      memory.id = memoryId ∧ m.stamp memory.updatedAt = some memory.updatedAt := by
  obtain ⟨_,records,read,rfl⟩ := rebuiltBatch commits rebuilt
  obtain ⟨rows,listed,stored,_⟩ := listedRows limit store.tables
  obtain ⟨back,forth⟩ := memMapM read
  have whole : ∀ memory ∈ batch (candidates limit store.tables), ∀ record, toKernelRecord m memory = some record →
      (Current store.tables record ↔ m.stamp memory.updatedAt = some memory.updatedAt) := by
    intro memory member record same
    obtain ⟨source,stamped⟩ := kernelRecordOf same
    have here := batchListed memory member
    rw [listed] at here
    obtain ⟨row,inside,rfl⟩ := List.mem_map.mp here
    have selected : selectRow record.sourceId store.tables = some row := by
      rw [source]
      cases found : selectRow (hydrateRecord store.tables row).id store.tables with
      | none => exact absurd (findNone found row (stored row inside)) (by simp [hydrateRecord])
      | some other =>
        obtain ⟨present,named⟩ := findSome found
        rw [equalOfKey unique present (stored row inside) (beq_iff_eq.mp named)]
    unfold Current
    rw [selected,stamped]
    simp only [Option.some.injEq,exists_eq_left']
    exact eq_comm
  rw [hasUpserts,or_iff_right (hasDeleted memoryId)]
  constructor
  · rintro ⟨record,member,source,current⟩
    obtain ⟨memory,inside,same⟩ := back record member
    exact ⟨memory,inside,(kernelRecordOf same).1.symm.trans source,(whole memory inside record same).mp current⟩
  · rintro ⟨memory,inside,rfl,stamped⟩
    obtain ⟨record,member,same⟩ := forth memory inside
    exact ⟨record,member,(kernelRecordOf same).1,(whole memory inside record same).mpr stamped⟩

/- Rows of a table by their keys: as many as there are keys. -/
theorem countKeys {ρ : Type} {key : ρ → String} {rows part : List ρ} (unique : UniqueBy key rows) (inside : ∀ row ∈ part, row ∈ rows)
    (once : UniqueBy key part) : rows.countP (fun row => (part.map key).contains (key row)) = part.length := by
  have nodup : rows.Nodup := List.Nodup.of_map _ unique
  rw [List.countP_eq_length_filter]
  have same : (rows.filter fun row => (part.map key).contains (key row)).Perm part := by
    refine (List.perm_ext_iff_of_nodup (nodup.filter _) (List.Nodup.of_map _ once)).mpr fun row => ?_
    simp only [List.mem_filter,List.contains_iff_mem,List.mem_map]
    constructor
    · rintro ⟨member,other,held,same⟩
      rwa [← equalOfKey unique (inside other held) member same]
    · exact fun held => ⟨inside row held,row,held,rfl⟩
  exact same.length_eq

/- A rebuild that reports rebuilt covers the listed memories just where they fit one batch and each
timestamp is stored as it is written back. -/
theorem rebuildExact (m : Maintenance ν) (limit : Int) (store after : Store ν) (recordsIndexed : Nat)
    (commits : m.kernel.Commits m.modelName) (unique : UniqueBy (·.id) store.tables.memories)
    (rebuilt : rebuildSemanticIndex m limit store = (.ok ⟨true,true,recordsIndexed,none⟩,after)) :
    Covers m limit store after recordsIndexed ↔
      (candidates limit store.tables).length ≤ inlineEmbeddingRepairLimit ∧
      ∀ memory ∈ candidates limit store.tables, m.stamp memory.updatedAt = some memory.updatedAt := by
  have has := hasRebuilt commits unique rebuilt
  obtain ⟨counted,records,_,ended⟩ := rebuiltBatch commits rebuilt
  obtain ⟨rows,listed,stored,once⟩ := listedRows limit store.tables
  have ids : (candidates limit store.tables).map (·.id) = rows.map (·.id) := by
    rw [listed,List.map_map]
    rfl
  have nodup : ((candidates limit store.tables).map (·.id)).Nodup := by
    rw [ids]
    exact once unique
  have one : ∀ a ∈ candidates limit store.tables, ∀ b ∈ candidates limit store.tables, a.id = b.id → a = b :=
    fun a left b right same => List.inj_on_of_nodup_map nodup left right same
  unfold Covers
  constructor
  · rintro ⟨covers,_⟩
    have batched : ∀ memory ∈ candidates limit store.tables, memory ∈ batch (candidates limit store.tables) ∧
        m.stamp memory.updatedAt = some memory.updatedAt := by
      intro memory member
      obtain ⟨other,inside,same,stamped⟩ := (has memory.id).mp (covers memory member)
      have equal : other = memory := one other (batchListed other inside) memory member same
      subst equal
      exact ⟨inside,stamped⟩
    refine ⟨?_,fun memory member => (batched memory member).2⟩
    have subset := List.subperm_of_subset (List.Nodup.of_map _ nodup) fun memory member => (batched memory member).1
    exact subset.length_le.trans batchLength
  · rintro ⟨fits,stamped⟩
    have all : batch (candidates limit store.tables) = candidates limit store.tables := by
      unfold batch
      rw [if_neg (by omega)]
    have held (memoryId : String) : HasEmbedding m.modelName after memoryId ↔ memoryId ∈ rows.map (·.id) := by
      rw [has,all,← ids,List.mem_map]
      constructor
      · rintro ⟨memory,member,same,_⟩
        exact ⟨memory,member,same⟩
      · rintro ⟨memory,member,same⟩
        exact ⟨memory,member,same,stamped memory member⟩
    refine ⟨fun memory member => (held memory.id).mpr (ids ▸ List.mem_map_of_mem member),?_⟩
    have tables : after.tables = store.tables := by
      rw [ended,upsertsTables]
      rfl
    rw [counted,tables,listed,List.length_map,← countKeys unique stored (once unique)]
    refine List.countP_congr fun row _ => ?_
    simp [held]

end

/- An ingestor that embeds whatever it is given. -/
def plainKernel : Kernel Unit :=
  ⟨fun records store => (0,records.foldl (fun store record => upsert "model" record () store) store),fun _ => ()⟩

def plainMaintenance : Maintenance Unit := ⟨true,false,true,"model",some,plainKernel⟩

theorem plainCommits : plainMaintenance.kernel.Commits plainMaintenance.modelName := fun _ _ _ => rfl

def stored (number : Nat) : MemoryRow :=
  ⟨String.singleton (Char.ofNat (200 - number)),none,"title","content",none,"fact","active","t","t",none,[]⟩

def memoriesUpTo (number : Nat) : Store Unit := ⟨{ Memory.empty with memories := (List.range number).map stored },[]⟩

/- One memory more than a batch holds. -/
theorem lastLeftOut : (rebuildSemanticIndex plainMaintenance 10000 (memoriesUpTo 65)).1 = .ok ⟨true,true,65,none⟩ ∧
    ¬ ∀ (m : Maintenance Unit) limit store after recordsIndexed, m.kernel.Commits m.modelName →
      UniqueBy (·.id) store.tables.memories →
      rebuildSemanticIndex m limit store = (.ok ⟨true,true,recordsIndexed,none⟩,after) →
      Covers m limit store after recordsIndexed := by
  have unique : UniqueBy (·.id) (memoriesUpTo 65).tables.memories := by decide +kernel
  have ran : (rebuildSemanticIndex plainMaintenance 10000 (memoriesUpTo 65)).1 = .ok ⟨true,true,65,none⟩ ∧
      (rebuildSemanticIndex plainMaintenance 10000 (memoriesUpTo 65)).2.tables.memories.countP (fun row =>
        HasEmbedding "model" (rebuildSemanticIndex plainMaintenance 10000 (memoriesUpTo 65)).2 row.id) = 64 := by
    decide +kernel
  refine ⟨ran.1,fun covers => ?_⟩
  generalize same : rebuildSemanticIndex plainMaintenance 10000 (memoriesUpTo 65) = reply at ran
  obtain ⟨answer,after⟩ := reply
  obtain ⟨rfl,counted⟩ := ran
  exact absurd ((covers _ _ _ _ _ plainCommits unique same).2.trans counted) (by decide)

theorem rebuildSample : Covers plainMaintenance 10000 (memoriesUpTo 2)
    (rebuildSemanticIndex plainMaintenance 10000 (memoriesUpTo 2)).2 2 := by
  refine (rebuildExact plainMaintenance 10000 (memoriesUpTo 2) _ 2 plainCommits (by decide) (Prod.ext rfl rfl)).mpr ⟨?_,?_⟩
  · decide +kernel
  · exact fun _ _ => rfl

end McpMemory.Rebuild
