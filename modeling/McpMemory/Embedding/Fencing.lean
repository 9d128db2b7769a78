import McpMemory.Embedding.Store
import McpMemory.Lib.Interleave

/-! Indexers beside the writers of the memories: `integrations/searchkernel_ingestion.py` over the vector
store. An indexer reads its records one by one, each at its own time, and the kernel then upserts any of
them in any order, each upsert a transaction; others commit between. -/
namespace McpMemory.Embedding
open Memory Interleave

/- What the kernel gets of a memory. -/
structure KernelRecord where
  sourceId : String
  workspaceId : Option String
  indexedText : String
  updatedAt : String

structure Indexing where
  modelName : String
  dimension : Nat
  memoryIds : List String
  picks : List (Nat × Int)

structure Store (V : Type) where
  tables : Tables
  embeddings : List (EmbeddingRow V)

/- A transaction of another component, which may drop embeddings with its memories; or an embedding
without a version, as that of a thought. -/
inductive Op (V : Type) where
  | index (job : Indexing)
  | commit (effect : Tables → Tables) (dropped : EmbeddingRow V → Bool)
  | store (row : EmbeddingRow V)

inductive Call (V : Type) where
  | reading (job : Indexing) (left : List String) (records : List MemoryRecord)
  | writing (job : Indexing) (records : List KernelRecord) (picks : List (Nat × Int))
  | committing (effect : Tables → Tables) (dropped : EmbeddingRow V → Bool)
  | storing (row : EmbeddingRow V)
  | ended

structure Upserted (V : Type) where
  row : EmbeddingRow V
  accepted : Bool
  deriving DecidableEq

variable {V : Type} (env : Env V)

/- Both times are parsed. -/
def toKernelRecord (memory : MemoryRecord) : Option KernelRecord := do
  let _ ← env.isoformat memory.createdAt
  let updatedAt ← env.isoformat memory.updatedAt
  some ⟨memory.id,memory.workspaceIds.find? (· ≠ ""),memoryEmbeddingText memory,updatedAt⟩

def embedded (modelName : String) (now : Int) (record : KernelRecord) : EmbeddingRow V :=
  ⟨"memory",record.sourceId,record.workspaceId,modelName,env.embed modelName record.indexedText,some record.updatedAt,now⟩

def enter : Op V → Call V
  | .index job => .reading job job.memoryIds []
  | .commit effect dropped => .committing effect dropped
  | .store row => .storing { row with memoryUpdatedAt := none }

/- A vector of another dimension raises. -/
def stepIndexer (call : Call V) (store : Store V) : Call V × Store V × List (Upserted V) :=
  match call with
  | .reading job [] records => match records.mapM (toKernelRecord env) with
    | none => (.ended,store,[])
    | some records => (.writing job records job.picks,store,[])
  | .reading job (memoryId::left) records =>
    (.reading job left (records ++ (recordById memoryId store.tables).toList),store,[])
  | .writing _ _ [] => (.ended,store,[])
  | .writing job records ((index,now)::picks) => match records[index]? with
    | none => (.writing job records picks,store,[])
    | some record =>
      let row := embedded env job.modelName now record
      if env.size row.embedding ≠ job.dimension then (.ended,store,[])
      else
        let (accepted,embeddings) := upsert store.tables row store.embeddings
        (.writing job records picks,{ store with embeddings },[⟨row,accepted⟩])
  | .committing effect dropped =>
    (.ended,⟨effect store.tables,store.embeddings.filter fun row => !dropped row⟩,[])
  | .storing row => (.ended,{ store with embeddings := (upsert store.tables row store.embeddings).2 },[])
  | .ended => (.ended,store,[])

def indexers : Machine (Op V) (Call V) (Store V) (Upserted V) := ⟨enter,stepIndexer env⟩

def storeAt (start : Store V) (events : List (Event (Op V))) (n : Nat) : Store V :=
  ((indexers env).run (idle start) (events.take n)).store

def traceAt (start : Store V) (events : List (Event (Op V))) (n : Nat) : List (Upserted V) :=
  ((indexers env).run (idle start) (events.take n)).trace

/- A memory that is written anew gets a later time, as a text; the times are texts that Python
gives back as they are. -/
structure Versioned (start : Store V) (events : List (Event (Op V))) : Prop where
  newer : ∀ k ≤ events.length, ∀ n ≤ k, ∀ row ∈ (storeAt env start events n).tables.memories,
    ∀ later ∈ (storeAt env start events k).tables.memories, later.id = row.id → row.updatedAt < later.updatedAt ∨
      later.updatedAt = row.updatedAt ∧
        memoryEmbeddingText (hydrateRecord (storeAt env start events k).tables later) =
          memoryEmbeddingText (hydrateRecord (storeAt env start events n).tables row)
  canonical : ∀ n ≤ events.length, ∀ row ∈ (storeAt env start events n).tables.memories,
    env.isoformat row.updatedAt = some row.updatedAt

/- The row is that of the version it carries, which these tables hold. -/
structure Belongs (t : Tables) (row : EmbeddingRow V) (version : String) : Prop where
  there : ∃ record, recordById row.sourceId t = some record ∧ record.updatedAt = version ∧
    row.embedding = env.embed row.modelName (memoryEmbeddingText record)

def Fresh (store : Store V) : Prop :=
  Table.UniqueBy (fun row => (row.sourceKind,row.sourceId,row.modelName)) store.embeddings ∧
    ∀ row ∈ store.embeddings, ∀ version, row.memoryUpdatedAt = some version → Belongs env store.tables row version

section
variable {env} {t : Tables} {new row : EmbeddingRow V} {rows : List (EmbeddingRow V)}

theorem foundRecord {memoryId : String} {record : MemoryRecord} (found : recordById memoryId t = some record) :
    ∃ row ∈ t.memories, row.id = memoryId ∧ selectRow memoryId t = some row ∧ record = hydrateRecord t row := by
  obtain ⟨row,selected,same⟩ := Option.map_eq_some_iff.mp found
  obtain ⟨member,named⟩ := Table.findSome selected
  exact ⟨row,member,by simpa using named,selected,same.symm⟩

theorem isRowOfIff {sourceKind sourceId modelName : String} :
    isRowOf sourceKind sourceId modelName row ↔ (row.sourceKind,row.sourceId,row.modelName) = (sourceKind,sourceId,modelName) := by
  simp [isRowOf,and_assoc]

/- What a write leaves in the row of its key. -/
structure Writes (new row : EmbeddingRow V) : Prop where
  key : (row.sourceKind,row.sourceId,row.modelName) = (new.sourceKind,new.sourceId,new.modelName)
  embedding : row.embedding = new.embedding
  memoryUpdatedAt : row.memoryUpdatedAt = new.memoryUpdatedAt

theorem memFenced (member : row ∈ (insertFenced new rows).1) : row ∈ rows ∨ Writes new row := by
  unfold insertFenced at member
  split at member
  · rcases List.mem_append.mp member with old | here
    · exact .inl old
    · cases List.mem_singleton.mp here
      exact .inr ⟨rfl,rfl,rfl⟩
  · split at member
    · obtain ⟨old,there,rfl⟩ := Table.memUpdate.mp member
      split
      · rename_i hit
        exact .inr ⟨isRowOfIff.mp hit,rfl,rfl⟩
      · exact .inl there
    · exact .inl member

theorem fencedWrites {version : String} (carried : new.memoryUpdatedAt = some version)
    (older : ∀ row ∈ rows, sameKey new row → ∀ stored, row.memoryUpdatedAt = some stored → stored ≤ version) :
    (insertFenced new rows).2 = 1 ∧ ∃ row ∈ (insertFenced new rows).1, Writes new row := by
  unfold insertFenced
  split
  · exact ⟨rfl,new,List.mem_append_right _ (List.mem_singleton_self new),rfl,rfl,rfl⟩
  · rename_i row found
    obtain ⟨member,hit⟩ := Table.findSome found
    have fits : row.memoryUpdatedAt.all fun stored => new.memoryUpdatedAt.any (stored ≤ ·) := by
      rw [carried]
      cases given : row.memoryUpdatedAt with
      | none => rfl
      | some stored => simpa using older row member hit stored given
    rw [if_pos fits]
    refine ⟨rfl,_,Table.memUpdate.mpr ⟨row,member,rfl⟩,?_⟩
    rw [if_pos hit]
    exact ⟨isRowOfIff.mp hit,rfl,rfl⟩

theorem fencedUnique (unique : Table.UniqueBy (fun row => (row.sourceKind,row.sourceId,row.modelName)) rows) :
    Table.UniqueBy (fun row => (row.sourceKind,row.sourceId,row.modelName)) (insertFenced new rows).1 := by
  unfold insertFenced
  split
  · rename_i none
    refine Table.insertUnique (fun row member same => ?_) unique
    have missed := Table.findNone none row member
    rw [isRowOfIff.mpr same] at missed
    cases missed
  · split
    · exact Table.updateUnique (fun _ _ _ => rfl) unique
    · exact unique

theorem replacedUnique (unique : Table.UniqueBy (fun row => (row.sourceKind,row.sourceId,row.modelName)) rows) :
    Table.UniqueBy (fun row => (row.sourceKind,row.sourceId,row.modelName)) (insertOrReplace new rows) := by
  refine Table.insertUnique (fun row member same => ?_) (List.Nodup.sublist (List.filter_sublist.map _) unique)
  have apart := (List.mem_filter.mp member).2
  rw [sameKey,isRowOfIff.mpr same] at apart
  cases apart

theorem upsertUnique (unique : Table.UniqueBy (fun row => (row.sourceKind,row.sourceId,row.modelName)) rows) :
    Table.UniqueBy (fun row => (row.sourceKind,row.sourceId,row.modelName)) (upsert t new rows).2 := by
  unfold upsert
  split
  · exact replacedUnique unique
  · split
    · exact unique
    · split
      · exact unique
      · exact fencedUnique unique

/- The version that is there decides. -/
def Current (t : Tables) (memoryId version : String) : Prop :=
  ∃ current, selectRow memoryId t = some current ∧ current.updatedAt = version

theorem upsertCurrent {version : String} (carried : new.memoryUpdatedAt = some version) (current : Current t new.sourceId version) :
    upsert t new rows = ((insertFenced new rows).2 == 1,(insertFenced new rows).1) := by
  obtain ⟨current,found,same⟩ := current
  simp only [upsert,carried,found,same,ne_eq,not_true_eq_false,if_false]

theorem upsertOutdated {version : String} (carried : new.memoryUpdatedAt = some version) (outdated : ¬ Current t new.sourceId version) :
    upsert t new rows = (false,rows) := by
  simp only [upsert,carried]
  split
  · rfl
  · rename_i current found
    rw [if_pos fun same => outdated ⟨current,found,same⟩]

/- What a step of a call does to the store, and what it says. -/
inductive Moved (env : Env V) (call : Call V) (store : Store V) : Store V → List (Upserted V) → Prop
  | quiet : Moved env call store store []
  | committed (effect : Tables → Tables) (dropped : EmbeddingRow V → Bool) :
      Moved env call store ⟨effect store.tables,store.embeddings.filter fun row => !dropped row⟩ []
  | stored (other : EmbeddingRow V) (bare : other.memoryUpdatedAt = none) :
      Moved env call store { store with embeddings := insertOrReplace other store.embeddings } []
  | upserted (job records picks record now) (writing : call = .writing job records picks) (member : record ∈ records) :
      Moved env call store
        { store with embeddings := (upsert store.tables (embedded env job.modelName now record) store.embeddings).2 }
        [⟨embedded env job.modelName now record,
          (upsert store.tables (embedded env job.modelName now record) store.embeddings).1⟩]

/- The records of a call are such as were read, and what the kernel makes of them. -/
def Known (env : Env V) (read : MemoryRecord → Prop) : Call V → Prop
  | .reading _ _ records => ∀ record ∈ records, read record
  | .writing _ records _ => ∀ record ∈ records, ∃ memory, read memory ∧ toKernelRecord env memory = some record
  | .storing row => row.memoryUpdatedAt = none
  | .committing _ _ | .ended => True

theorem mapped {records : List MemoryRecord} {kernel} (made : records.mapM (toKernelRecord env) = some kernel) :
    ∀ record ∈ kernel, ∃ memory ∈ records, toKernelRecord env memory = some record := by
  induction records generalizing kernel with
  | nil =>
    cases made
    exact fun _ member => by cases member
  | cons memory rest ih =>
    rw [List.mapM_cons] at made
    obtain ⟨first,here,made⟩ := Option.bind_eq_some_iff.mp made
    obtain ⟨others,there,made⟩ := Option.bind_eq_some_iff.mp made
    cases made
    intro record member
    rcases List.mem_cons.mp member with rfl | member
    · exact ⟨memory,List.mem_cons_self,here⟩
    · obtain ⟨other,listed,same⟩ := ih there record member
      exact ⟨other,List.mem_cons_of_mem _ listed,same⟩

theorem stepMoved {call : Call V} {read} (known : Known env read call) (store : Store V) :
    Moved env call store (stepIndexer env call store).2.1 (stepIndexer env call store).2.2 := by
  cases call with
  | reading job left records =>
    cases left with
    | nil =>
      unfold stepIndexer
      dsimp only
      split <;> exact .quiet
    | cons memoryId left => exact .quiet
  | writing job records picks =>
    cases picks with
    | nil => exact .quiet
    | cons pick picks =>
      obtain ⟨index,now⟩ := pick
      unfold stepIndexer
      dsimp only
      split
      · exact .quiet
      · rename_i record found
        split
        · exact .quiet
        · exact .upserted job records ((index,now) :: picks) record now rfl (List.mem_of_getElem? found)
  | committing effect dropped => exact .committed effect dropped
  | storing row =>
    have bare : row.memoryUpdatedAt = none := known
    have made : upsert store.tables row store.embeddings = (true,insertOrReplace row store.embeddings) := by
      simp only [upsert,bare]
    unfold stepIndexer
    dsimp only
    rw [made]
    exact .stored row bare
  | ended => exact .quiet

theorem stepKnown {call : Call V} {read : MemoryRecord → Prop} (known : Known env read call) {store : Store V}
    (reads : ∀ memoryId record, recordById memoryId store.tables = some record → read record) :
    Known env read (stepIndexer env call store).1 := by
  cases call with
  | reading job left records =>
    cases left with
    | nil =>
      unfold stepIndexer
      dsimp only
      split
      · trivial
      · rename_i kernel made
        exact fun record member =>
          (mapped made record member).imp fun memory listed => ⟨known memory listed.1,listed.2⟩
    | cons memoryId left =>
      intro record member
      rcases List.mem_append.mp member with old | here
      · exact known record old
      · exact reads memoryId record (Option.mem_toList.mp here)
  | writing job records picks =>
    cases picks with
    | nil => trivial
    | cons pick picks =>
      unfold stepIndexer
      dsimp only
      split
      · exact known
      · split
        · trivial
        · exact known
  | committing effect dropped => trivial
  | storing row => trivial
  | ended => trivial

theorem knownMono {read other : MemoryRecord → Prop} (more : ∀ record, read record → other record) {call : Call V}
    (known : Known env read call) : Known env other call := by
  cases call with
  | reading job left records => exact fun record member => more record (known record member)
  | writing job records picks =>
    exact fun record member => (known record member).imp fun memory listed => ⟨more memory listed.1,listed.2⟩
  | committing effect dropped => trivial
  | storing row => exact known
  | ended => trivial

theorem kernelOf {memory : MemoryRecord} {record} (made : toKernelRecord env memory = some record) :
    record.sourceId = memory.id ∧ record.indexedText = memoryEmbeddingText memory ∧
      env.isoformat memory.updatedAt = some record.updatedAt := by
  obtain ⟨_,_,made⟩ := Option.bind_eq_some_iff.mp made
  obtain ⟨updatedAt,parsed,made⟩ := Option.bind_eq_some_iff.mp made
  cases made
  exact ⟨rfl,rfl,parsed⟩

end

section
variable {env} {start : Store V} {events : List (Event (Op V))} {n : Nat}

def Read (env : Env V) (start : Store V) (events : List (Event (Op V))) (n : Nat) (record : MemoryRecord) : Prop :=
  ∃ m ≤ n, recordById record.id (storeAt env start events m).tables = some record

/- What holds after so many events. -/
structure Tracked (env : Env V) (start : Store V) (events : List (Event (Op V))) (n : Nat) : Prop where
  keyed : Table.UniqueBy (fun row => (row.sourceKind,row.sourceId,row.modelName)) (storeAt env start events n).embeddings
  belongs : ∀ row ∈ (storeAt env start events n).embeddings, ∀ version, row.memoryUpdatedAt = some version →
    ∃ m ≤ n, Belongs env (storeAt env start events m).tables row version
  known : ∀ call ∈ ((indexers env).run (idle start) (events.take n)).calls, Known env (Read env start events n) call

theorem belongsBefore (versioned : Versioned env start events) {m k : Nat} (before : m ≤ k) (bound : k ≤ events.length)
    {row : EmbeddingRow V} {stored} (belongs : Belongs env (storeAt env start events m).tables row stored) {version}
    (current : Current (storeAt env start events k).tables row.sourceId version) : stored ≤ version := by
  obtain ⟨record,found,rfl,_⟩ := belongs.there
  obtain ⟨old,member,named,_,rfl⟩ := foundRecord found
  obtain ⟨now,selected,rfl⟩ := current
  obtain ⟨there,same⟩ := Table.findSome selected
  have named' : now.id = old.id := (beq_iff_eq.mp same).trans named.symm
  rcases versioned.newer k bound m before old member now there named' with later | ⟨equal,_⟩
  · exact String.not_lt.mp (String.lt_asymm later)
  · exact equal ▸ String.le_refl _

/- An upsert of a record that was read is taken exactly if its version is there still. -/
theorem outcome (versioned : Versioned env start events) (bound : n ≤ events.length) (tracked : Tracked env start events n)
    {memory record} (read : Read env start events n memory) (made : toKernelRecord env memory = some record)
    (modelName : String) (now : Int) :
    let store := storeAt env start events n
    let row := embedded env modelName now record
    Current store.tables row.sourceId record.updatedAt ∧ Belongs env store.tables row record.updatedAt ∧
        upsert store.tables row store.embeddings = (true,(insertFenced row store.embeddings).1) ∧
        (∃ written ∈ (insertFenced row store.embeddings).1, Writes row written) ∨
      ¬ Current store.tables row.sourceId record.updatedAt ∧
        upsert store.tables row store.embeddings = (false,store.embeddings) := by
  dsimp only
  by_cases current : Current (storeAt env start events n).tables record.sourceId record.updatedAt
  · obtain ⟨m,before,found⟩ := read
    obtain ⟨source,text,parsed⟩ := kernelOf made
    obtain ⟨old,member,named,_,rfl⟩ := foundRecord found
    have same : record.updatedAt = old.updatedAt :=
      Option.some.inj (parsed.symm.trans (versioned.canonical m (before.trans bound) old member))
    have belongs : Belongs env (storeAt env start events n).tables (embedded env modelName now record) record.updatedAt := by
      obtain ⟨here,selected,equal⟩ := current
      obtain ⟨there,found⟩ := Table.findSome selected
      have named' : here.id = old.id := (beq_iff_eq.mp found).trans source
      refine ⟨_,Option.map_eq_some_iff.mpr ⟨here,selected,rfl⟩,equal,?_⟩
      rcases versioned.newer n bound m before old member here there named' with later | ⟨_,texts⟩
      · exact absurd (equal.trans same ▸ later) (String.lt_irrefl _)
      · simp only [embedded,text,texts]
    have fits := @fencedWrites V (embedded env modelName now record) _ record.updatedAt rfl fun row listed hit stored carried => by
      obtain ⟨earlier,first,owned⟩ := tracked.belongs row listed stored carried
      have key := isRowOfIff.mp hit
      simp only [Prod.mk.injEq] at key
      exact belongsBefore versioned first bound owned (key.2.1 ▸ current)
    refine .inl ⟨current,belongs,?_,fits.2⟩
    rw [upsertCurrent rfl current,fits.1]
    rfl
  · exact .inr ⟨current,upsertOutdated rfl current⟩

/- The store after one more event, and what the event says. -/
structure Next (env : Env V) (start : Store V) (events : List (Event (Op V))) (n : Nat) (emitted : List (Upserted V)) : Prop where
  trace : traceAt env start events (n + 1) = emitted ++ traceAt env start events n
  moved : (storeAt env start events (n + 1) = storeAt env start events n ∧ emitted = []) ∨
    ∃ call ∈ ((indexers env).run (idle start) (events.take n)).calls,
      Moved env call (storeAt env start events n) (storeAt env start events (n + 1)) emitted
  calls : ∀ call ∈ ((indexers env).run (idle start) (events.take (n + 1))).calls,
    call ∈ ((indexers env).run (idle start) (events.take n)).calls ∨ (∃ op, call = enter op) ∨
      ∃ before ∈ ((indexers env).run (idle start) (events.take n)).calls,
        call = (stepIndexer env before (storeAt env start events n)).1

theorem nextEvent (tracked : Tracked env start events n) : ∃ emitted, Next env start events n emitted := by
  cases found : events[n]? with
  | none =>
    have same := @runEnded _ _ _ _ (indexers env) (idle start) events n found
    refine ⟨[],congrArg World.trace same,.inl ⟨congrArg World.store same,rfl⟩,fun call member => .inl ?_⟩
    rwa [same] at member
  | some event =>
    have taken := @runTake _ _ _ _ (indexers env) (idle start) events n event found
    cases event with
    | start op =>
      have stored := congrArg World.store taken
      have told := congrArg World.trace taken
      refine ⟨[],told,.inl ⟨stored,rfl⟩,fun call member => ?_⟩
      rw [taken] at member
      rcases List.mem_append.mp member with old | here
      · exact .inl old
      · exact .inr (.inl ⟨op,List.mem_singleton.mp here⟩)
    | advance index =>
      cases here : ((indexers env).run (idle start) (events.take n)).calls[index]? with
      | none =>
        rw [nextIdle here] at taken
        refine ⟨[],congrArg World.trace taken,.inl ⟨congrArg World.store taken,rfl⟩,fun call member => .inl ?_⟩
        rwa [taken] at member
      | some call =>
        have listed := List.mem_of_getElem? here
        have moved := stepMoved (tracked.known call listed) (storeAt env start events n)
        rw [nextAdvance here] at taken
        have after : storeAt env start events (n + 1) = (stepIndexer env call (storeAt env start events n)).2.1 :=
          congrArg World.store taken
        refine ⟨_,congrArg World.trace taken,.inr ⟨call,listed,after ▸ moved⟩,fun other member => ?_⟩
        rw [taken] at member
        rcases List.mem_or_eq_of_mem_set member with old | rfl
        · exact .inl old
        · exact .inr (.inr ⟨call,listed,rfl⟩)

/- A row that is not from before carries no version, or the one that is there. -/
theorem rowNext (versioned : Versioned env start events) (bound : n ≤ events.length) (tracked : Tracked env start events n)
    {emitted} (next : Next env start events n emitted) {row} (member : row ∈ (storeAt env start events (n + 1)).embeddings) :
    row ∈ (storeAt env start events n).embeddings ∨ row.memoryUpdatedAt = none ∨
      ∃ version, row.memoryUpdatedAt = some version ∧ Belongs env (storeAt env start events n).tables row version ∧
        Current (storeAt env start events n).tables row.sourceId version := by
  rcases next.moved with ⟨same,_⟩ | ⟨call,listed,moved⟩
  · exact .inl (same ▸ member)
  · generalize storeAt env start events (n + 1) = after at moved member
    cases moved with
    | quiet => exact .inl member
    | committed effect dropped => exact .inl (List.mem_filter.mp member).1
    | stored other bare =>
      rcases List.mem_append.mp member with old | here
      · exact .inl (List.mem_filter.mp old).1
      · cases List.mem_singleton.mp here
        exact .inr (.inl bare)
    | upserted job records picks record now writing listed' =>
      subst writing
      obtain ⟨memory,read,made⟩ := tracked.known _ listed record listed'
      rcases outcome versioned bound tracked read made job.modelName now with ⟨current,belongs,made,_⟩ | ⟨_,made⟩
      · rw [made] at member
        rcases memFenced member with old | writes
        · exact .inl old
        · have key := writes.key
          simp only [Prod.mk.injEq] at key
          obtain ⟨found,there,same,text⟩ := belongs.there
          refine .inr (.inr ⟨record.updatedAt,writes.memoryUpdatedAt,⟨found,?_,same,?_⟩,?_⟩)
          · rw [key.2.1]
            exact there
          · rw [writes.embedding,key.2.2]
            exact text
          · rw [key.2.1]
            exact current
      · rw [made] at member
        exact .inl member

theorem keyedNext (tracked : Tracked env start events n) {emitted} (next : Next env start events n emitted) :
    Table.UniqueBy (fun row => (row.sourceKind,row.sourceId,row.modelName)) (storeAt env start events (n + 1)).embeddings := by
  rcases next.moved with ⟨same,_⟩ | ⟨call,_,moved⟩
  · rw [same]
    exact tracked.keyed
  · generalize storeAt env start events (n + 1) = after at moved
    cases moved with
    | quiet => exact tracked.keyed
    | committed effect dropped => exact List.Nodup.sublist (List.filter_sublist.map _) tracked.keyed
    | stored other bare => exact replacedUnique tracked.keyed
    | upserted job records picks record now writing listed => exact upsertUnique tracked.keyed

theorem trackedNext (versioned : Versioned env start events) (bound : n ≤ events.length) (tracked : Tracked env start events n) :
    Tracked env start events (n + 1) := by
  obtain ⟨emitted,next⟩ := nextEvent tracked
  have longer : ∀ record, Read env start events n record → Read env start events (n + 1) record :=
    fun _ read => read.imp fun m found => ⟨found.1.trans (Nat.le_succ n),found.2⟩
  refine ⟨keyedNext tracked next,fun row member version carried => ?_,fun call member => ?_⟩
  · rcases rowNext versioned bound tracked next member with old | bare | ⟨other,given,belongs,_⟩
    · exact (tracked.belongs row old version carried).imp fun m found => ⟨found.1.trans (Nat.le_succ n),found.2⟩
    · rw [bare] at carried
      cases carried
    · cases given.symm.trans carried
      exact ⟨n,Nat.le_succ n,belongs⟩
  · rcases next.calls call member with old | ⟨op,rfl⟩ | ⟨before,listed,rfl⟩
    · exact knownMono longer (tracked.known call old)
    · cases op with
      | index job => exact fun _ member => by cases member
      | commit effect dropped => trivial
      | store row => exact (rfl : ({ row with memoryUpdatedAt := none } : EmbeddingRow V).memoryUpdatedAt = none)
    · refine knownMono longer (stepKnown (tracked.known before listed) fun memoryId record found => ⟨n,Nat.le_refl n,?_⟩)
      obtain ⟨row,_,named,_,rfl⟩ := foundRecord found
      rw [show (hydrateRecord _ row).id = memoryId from named]
      exact found

theorem trackedAll (versioned : Versioned env start events) (fresh : Fresh env start) :
    ∀ n ≤ events.length, Tracked env start events n := by
  intro n
  induction n with
  | zero =>
    exact fun _ => ⟨fresh.1,fun row member version carried => ⟨0,Nat.le_refl 0,fresh.2 row member version carried⟩,
      fun _ member => by cases member⟩
  | succ n ih => exact fun bound => trackedNext versioned (Nat.le_of_succ_le bound) (ih (Nat.le_of_succ_le bound))

/- The version of a key never goes back, also where its row was gone between. -/
theorem neverBack (versioned : Versioned env start events) (fresh : Fresh env start) {n : Nat} {row : EmbeddingRow V}
    (member : row ∈ (storeAt env start events n).embeddings) {version} (carried : row.memoryUpdatedAt = some version) :
    ∀ k, n ≤ k → k ≤ events.length → ∀ later ∈ (storeAt env start events k).embeddings, sameKey row later →
      ∀ other, later.memoryUpdatedAt = some other → version ≤ other := by
  intro k reached
  induction k, reached using Nat.le_induction with
  | base =>
    intro bound later there same other given
    have key := isRowOfIff.mp same
    cases Table.equalOfKey (trackedAll versioned fresh n bound).keyed there member key
    exact Option.some.inj (carried.symm.trans given) ▸ String.le_refl _
  | succ k reached ih =>
    intro bound later there same other given
    have before := Nat.le_of_succ_le bound
    have tracked := trackedAll versioned fresh k before
    obtain ⟨emitted,next⟩ := nextEvent tracked
    rcases rowNext versioned before tracked next there with old | bare | ⟨current,carries,_,here⟩
    · exact ih before later old same other given
    · rw [bare] at given
      cases given
    · cases carries.symm.trans given
      obtain ⟨m,first,belongs⟩ := (trackedAll versioned fresh n (reached.trans before)).belongs row member version carried
      have key := isRowOfIff.mp same
      simp only [Prod.mk.injEq] at key
      exact belongsBefore versioned (first.trans reached) before belongs (key.2.1 ▸ here)

/- What an upsert answers, and what it did. -/
def Answered (env : Env V) (before after : Store V) (upserted : Upserted V) : Prop :=
  ∃ version, upserted.row.memoryUpdatedAt = some version ∧
    if upserted.accepted then Belongs env before.tables upserted.row version ∧ ∃ row ∈ after.embeddings, Writes upserted.row row
    else ¬ Current before.tables upserted.row.sourceId version ∧ after = before

theorem answeredNext (versioned : Versioned env start events) (bound : n ≤ events.length) (tracked : Tracked env start events n)
    {upserted} (next : Next env start events n [upserted]) :
    Answered env (storeAt env start events n) (storeAt env start events (n + 1)) upserted := by
  rcases next.moved with ⟨_,none⟩ | ⟨call,listed,moved⟩
  · cases none
  · generalize storeAt env start events (n + 1) = after at moved
    generalize said : [upserted] = emitted at moved
    cases moved with
    | quiet => cases said
    | committed effect dropped => cases said
    | stored other bare => cases said
    | upserted job records picks record now writing listed' =>
      subst writing
      cases said
      obtain ⟨memory,read,made⟩ := tracked.known _ listed record listed'
      refine ⟨record.updatedAt,rfl,?_⟩
      rcases outcome versioned bound tracked read made job.modelName now with ⟨_,belongs,made,written⟩ | ⟨outdated,made⟩
      · rw [made]
        exact ⟨belongs,written⟩
      · rw [made]
        exact ⟨outdated,rfl⟩

/- What the search does not take for stale is the embedding of what the memory is now. -/
theorem neverStale (versioned : Versioned env start events) (bound : n ≤ events.length) (tracked : Tracked env start events n)
    {memoryId record} (found : recordById memoryId (storeAt env start events n).tables = some record) {modelName row}
    (kept : getRow "memory" memoryId modelName (storeAt env start events n).embeddings = some row)
    (carries : row.memoryUpdatedAt.isSome)
    (current : isStaleOrMissing env modelName (storeAt env start events n).embeddings record = false) :
    row.embedding = env.embed modelName (memoryEmbeddingText record) := by
  obtain ⟨version,carried⟩ := Option.isSome_iff_exists.mp carries
  obtain ⟨here,there,named,_,rfl⟩ := foundRecord found
  have same : version = here.updatedAt := by
    unfold isStaleOrMissing at current
    split at current
    · cases current
    · rw [show (hydrateRecord _ here).id = memoryId from named,kept] at current
      simp only [carried,ne_eq,decide_not,Bool.not_eq_false',decide_eq_true_eq] at current
      exact current
  obtain ⟨member,hit⟩ := Table.findSome kept
  have key := isRowOfIff.mp hit
  simp only [Prod.mk.injEq] at key
  obtain ⟨m,before,belongs⟩ := tracked.belongs row member version carried
  obtain ⟨record,found,equal,text⟩ := belongs.there
  obtain ⟨old,listed,earlier,_,rfl⟩ := foundRecord found
  have named' : here.id = old.id := named.trans (key.2.1.symm.trans earlier.symm)
  rcases versioned.newer n bound m before old listed here there named' with later | ⟨_,texts⟩
  · exact absurd (equal.trans same ▸ later) (String.lt_irrefl _)
  · rw [text,key.2.2,texts]

theorem embeddingsFenced (fresh : Fresh env start) (versioned : Versioned env start events) :
    (∀ n ≤ events.length, ∀ row ∈ (storeAt env start events n).embeddings, ∀ version, row.memoryUpdatedAt = some version →
      ∃ m ≤ n, Belongs env (storeAt env start events m).tables row version) ∧
    (∀ n k, n ≤ k → k ≤ events.length → ∀ row ∈ (storeAt env start events n).embeddings,
      ∀ later ∈ (storeAt env start events k).embeddings, sameKey row later → ∀ version other,
        row.memoryUpdatedAt = some version → later.memoryUpdatedAt = some other → version ≤ other) ∧
    (∀ n ≤ events.length, ∀ upserted, traceAt env start events (n + 1) = upserted :: traceAt env start events n →
      Answered env (storeAt env start events n) (storeAt env start events (n + 1)) upserted) ∧
    ∀ n ≤ events.length, ∀ memoryId record, recordById memoryId (storeAt env start events n).tables = some record →
      ∀ modelName row, getRow "memory" memoryId modelName (storeAt env start events n).embeddings = some row →
        row.memoryUpdatedAt.isSome → isStaleOrMissing env modelName (storeAt env start events n).embeddings record = false →
        row.embedding = env.embed modelName (memoryEmbeddingText record) := by
  refine ⟨fun n bound => (trackedAll versioned fresh n bound).belongs,
    fun n k reached bound row member later there same version other carried =>
      neverBack versioned fresh member carried k reached bound later there same other,fun n bound upserted said => ?_,
    fun n bound memoryId record found modelName row kept carries current =>
      neverStale versioned bound (trackedAll versioned fresh n bound) found kept carries current⟩
  have tracked := trackedAll versioned fresh n bound
  obtain ⟨emitted,next⟩ := nextEvent tracked
  have only : emitted = [upserted] := List.append_cancel_right (next.trace.symm.trans said)
  exact answeredNext versioned bound tracked (only ▸ next)

end

/- Two indexers about a commit: the one that read before it writes after it, and is turned away. -/

def verbatim : Env String := ⟨fun _ text => text,fun _ => 1,some,fun _ => none⟩

def draft : MemoryRow := ⟨"m",some 1,"note","old",none,"fact","active","2024-01-01T00:00:00+00:00",
  "2024-01-01T00:00:00+00:00",none,[]⟩

def drafted : Store String := ⟨{ Memory.empty with memories := [draft] },[]⟩

def revise (t : Tables) : Tables := { t with
  memories := t.memories.map fun row => { row with content := "new", updatedAt := "2024-01-02T00:00:00+00:00" } }

def crossing : List (Event (Op String)) := [.start (.index ⟨"model",1,["m"],[(0,5)]⟩),
  .start (.index ⟨"model",1,["m"],[(0,6)]⟩),.start (.commit revise fun _ => false),.advance 0,.advance 2,.advance 1,.advance 0,
  .advance 0,.advance 1,.advance 1]

theorem embeddingsFencedSample :
    (traceAt verbatim drafted crossing 10).map (fun upserted => (upserted.row.embedding,upserted.accepted)) =
      [("new",true),("old",false)] ∧
    ∀ row ∈ (storeAt verbatim drafted crossing 10).embeddings, ∀ version, row.memoryUpdatedAt = some version →
      ∃ m ≤ 10, Belongs verbatim (storeAt verbatim drafted crossing m).tables row version := by
  have versioned : Versioned verbatim drafted crossing := ⟨by decide +kernel,fun _ _ _ _ => rfl⟩
  have fresh : Fresh verbatim drafted := ⟨List.nodup_nil,fun _ member => by cases member⟩
  exact ⟨by decide +kernel,(embeddingsFenced fresh versioned).1 10 (by decide)⟩

end McpMemory.Embedding
