import McpMemory.Curation.Adapter
import McpMemory.Embedding.Fencing
import McpMemory.Work.Items

/-! The repair of embeddings in the background: `repair_task` of `memory_embedding_maintenance.py` over
`embedding_repair_store.py`, with the search that queues repairs, the worker that gives back what a dead
task holds, and everybody else who commits between. The SQLite vector store has no integrity scan. -/
namespace McpMemory.Embedding
open Memory Interleave Work.Repair
open Work (RepairItem Lease StoreError)
open Curation (repositoryMemory)

structure Persisted (V : Type) where
  tables : Tables
  embeddings : List (EmbeddingRow V)
  repairs : List RepairItem
  now : Int
  minted : Nat

/- `raises` tells where the kernel fails in a batch; it upserts the records of a batch in turn. -/
structure RepairTask where
  id : String
  workspaceId : Option String
  batchSize : Nat
  maxBatchesPerRun : Nat
  modelName : String
  dimension : Nat
  raises : Nat → Nat → Bool

def defaultLeaseTtlSeconds : Int := 1800

def defaultEmbeddingRepairPruneLimit : Nat := 256

/- A transaction of another component may drop embeddings and leave repair intents. -/
inductive RepairOp (V : Type) where
  | repair (task : RepairTask)
  | schedule (requests : List RepairRequest)
  | release (taskId : String)
  | commit (effect : Tables → Tables) (dropped : EmbeddingRow V → Bool) (intents : List RepairRequest)
  | upsert (row : EmbeddingRow V)
  | tick (now : Int)

inductive Repairing (V : Type) where
  | claiming (task : RepairTask) (batches : Nat)
  | examining (task : RepairTask) (batches : Nat) (left : List RepairItem) (pairs : List (MemoryRecord × RepairItem))
  | comparing (task : RepairTask) (batches : Nat) (item : RepairItem) (record : MemoryRecord) (left : List RepairItem)
      (pairs : List (MemoryRecord × RepairItem))
  | dropping (task : RepairTask) (batches : Nat) (item : RepairItem) (left : List RepairItem)
      (pairs : List (MemoryRecord × RepairItem))
  | indexing (task : RepairTask) (batches index : Nat) (left : List (KernelRecord × RepairItem)) (indexed : List RepairItem)
  | finishing (task : RepairTask) (batches : Nat) (left : List RepairItem)
  | pruning
  | scheduling (left : List RepairRequest)
  | releasing (taskId : String)
  | givingBack (itemIds : List String)
  | once (op : RepairOp V)
  | reading (found : RepairItem → Bool) (after : Repairing V)
  | ended

/- An item that a task of some model completes. -/
structure Completed where
  modelName : String
  item : RepairItem

variable {V : Type} (env : Env V) (uuid : Nat → String)

/- `INSERT … ON CONFLICT`: nothing changes where the version is there, in whatever status. -/
def minting (request : RepairRequest) (store : Persisted V) : RepairItem :=
  newItem ⟨none,uuid store.minted,"",store.now⟩ request

def enqueueRepair (request : RepairRequest) (store : Persisted V) : Persisted V :=
  let item := minting uuid request store
  { store with
    minted := store.minted + 1
    repairs := if store.repairs.any (repairs.clashes item) then store.repairs else store.repairs ++ [item] }

def isVersionOf (request : RepairRequest) (item : RepairItem) : Bool := item.memoryId == request.memoryId &&
  item.modelName == request.modelName && item.memoryUpdatedAt == request.memoryUpdatedAt

/- `claim_batch`, which is one transaction. -/
def claimedIds (lease : Lease) (limit : Nat) (workspaceId : Option String) (rows : List RepairItem) : List String :=
  (((rows.filter (isReady workspaceId lease.now)).insertionSort fun a b => a.createdAt ≤ b.createdAt).take limit).map (·.id)

def claimedRows (lease : Lease) (limit : Nat) (workspaceId : Option String) (rows : List RepairItem) : List RepairItem :=
  Table.update ((claimedIds lease limit workspaceId rows).contains ·.id) (leased lease) rows

def claimedItems (lease : Lease) (limit : Nat) (workspaceId : Option String) (rows : List RepairItem) : List RepairItem :=
  ((claimedRows lease limit workspaceId rows).filter ((claimedIds lease limit workspaceId rows).contains ·.id)).insertionSort
    fun a b => a.createdAt ≤ b.createdAt

def completedRow (now : Int) (item : RepairItem) : RepairItem := { item with
  status := "completed", updatedAt := now, completedAt := some now, leaseOwner := none, leaseExpiresAt := none
  lastError := none }

def releasedRow (now : Int) (item : RepairItem) : RepairItem := { item with
  status := "pending", updatedAt := now, leaseOwner := none, leaseExpiresAt := none, lastError := none }

/- An UPDATE of the running item of an id, none where that is not one row. -/
def changeRunning (itemId : String) (set : RepairItem → RepairItem) (rows : List RepairItem) : Option (List RepairItem) :=
  if rows.countP (isRunning itemId) = 1 then some (Table.update (isRunning itemId) set rows) else none

def prunedRows (now : Int) (rows : List RepairItem) : List RepairItem :=
  rows.filter fun row => !((prunable now defaultEmbeddingRepairPruneLimit ⟨[],rows⟩).map (·.id)).contains row.id

def claimWorkspace (task : RepairTask) : Option String := some (task.workspaceId.getD "*")

abbrev RepairStep (V : Type) := Repairing V × Persisted V × List Completed

/- An item that does not run any more raises; what was completed is read again, unless it was pruned by then. -/
def completing (task : RepairTask) (item : RepairItem) (after : Repairing V) (store : Persisted V) : RepairStep V :=
  match changeRunning item.id (completedRow store.now) store.repairs with
  | none => (.ended,store,[])
  | some rows => (.reading (·.id == item.id) after,{ store with repairs := rows },[⟨task.modelName,item⟩])

def examine (task : RepairTask) (batches : Nat) (item : RepairItem) (left : List RepairItem)
    (pairs : List (MemoryRecord × RepairItem)) (store : Persisted V) : Repairing V :=
  if Text.strip item.memoryId = "" || item.modelName ≠ task.modelName then .dropping task batches item left pairs
  else match repositoryMemory store.tables item.memoryId with
    | .error _ => .ended
    | .ok none => .dropping task batches item left pairs
    | .ok (some record) =>
      if record.status = "archived" || item.memoryUpdatedAt ≠ record.updatedAt then .dropping task batches item left pairs
      else .comparing task batches item record left pairs

def stepRepair (call : Repairing V) (store : Persisted V) : RepairStep V :=
  match call with
  | .claiming task batches =>
    if max task.maxBatchesPerRun 1 ≤ batches then (.pruning,store,[])
    else
      let lease : Lease := ⟨task.id,store.now,defaultLeaseTtlSeconds⟩
      let items := claimedItems lease (max task.batchSize 1) (claimWorkspace task) store.repairs
      if items.isEmpty then (.pruning,store,[])
      else (.examining task (batches + 1) items [],
        { store with repairs := claimedRows lease (max task.batchSize 1) (claimWorkspace task) store.repairs },[])
  | .examining task batches [] pairs =>
    if pairs.isEmpty then (.claiming task batches,store,[])
    else match pairs.mapM fun pair => (toKernelRecord env pair.1).map (·,pair.2) with
      | none => (.ended,store,[])
      | some left => (.indexing task batches 0 left [],store,[])
  | .examining task batches (item::left) pairs => (examine task batches item left pairs store,store,[])
  | .comparing task batches item record left pairs =>
    match getRow "memory" record.id task.modelName store.embeddings with
    | some row =>
      if embeddingIsStale env row.updatedAt record.updatedAt then
        (.examining task batches left (pairs ++ [(record,item)]),store,[])
      else (.dropping task batches item left pairs,store,[])
    | none => (.examining task batches left (pairs ++ [(record,item)]),store,[])
  | .dropping task batches item left pairs => completing task item (.examining task batches left pairs) store
  | .indexing task batches _ [] indexed => (.finishing task batches indexed,store,[])
  | .indexing task batches index ((record,item)::left) indexed =>
    let row := embedded env task.modelName store.now record
    if task.raises batches index || env.size row.embedding ≠ task.dimension then (.ended,store,[])
    else (.indexing task batches (index + 1) left (indexed ++ [item]),
      { store with embeddings := (upsert store.tables row store.embeddings).2 },[])
  | .finishing task batches [] => (.claiming task batches,store,[])
  | .finishing task batches (item::left) => completing task item (.finishing task batches left) store
  | .pruning => (.ended,{ store with repairs := prunedRows store.now store.repairs },[])
  | .scheduling [] => (.ended,store,[])
  | .scheduling (request::left) =>
    let item := minting uuid request store
    (.reading (if store.repairs.any (repairs.clashes item) then isVersionOf request else (·.id == item.id))
      (.scheduling left),enqueueRepair uuid request store,[])
  | .releasing taskId => (.givingBack ((store.repairs.filter fun row =>
      row.status == "running" && row.leaseOwner == some taskId).take 100 |>.map (·.id)),store,[])
  | .givingBack [] => (.ended,store,[])
  | .givingBack (itemId::left) => match changeRunning itemId (releasedRow store.now) store.repairs with
    | none => (.givingBack left,store,[])
    | some rows => (.givingBack left,{ store with repairs := rows },[])
  | .once (.commit effect dropped intents) => (.ended,intents.foldl (fun store request => enqueueRepair uuid request store)
      { store with tables := effect store.tables, embeddings := store.embeddings.filter fun row => !dropped row },[])
  | .once (.upsert row) => (.ended,{ store with embeddings := (upsert store.tables row store.embeddings).2 },[])
  | .once (.tick now) => (.ended,{ store with now },[])
  | .once _ => (.ended,store,[])
  | .reading found after => (if store.repairs.any found then after else .ended,store,[])
  | .ended => (.ended,store,[])

def beginRepair : RepairOp V → Repairing V
  | .repair task => .claiming task 0
  | .schedule requests => .scheduling requests
  | .release taskId => .releasing taskId
  | op => .once op

def repairing : Machine (RepairOp V) (Repairing V) (Persisted V) Completed := ⟨beginRepair,stepRepair env uuid⟩

/- What one step of a call does, by where the call is. -/
inductive Moves (store : Persisted V) : Repairing V → RepairStep V → Prop
  | ends : Moves store call (.ended,store,[])
  | prunes : Moves store (.claiming task batches) (.pruning,store,[])
  | claims : Moves store (.claiming task batches)
      (.examining task (batches + 1) (claimedItems lease limit workspaceId store.repairs) [],
        { store with repairs := claimedRows lease limit workspaceId store.repairs },[])
  | again : Moves store (.examining task batches [] pairs) (.claiming task batches,store,[])
  | indexes (made : (pairs.mapM fun pair => (toKernelRecord env pair.1).map (·,pair.2)) = some left) :
      Moves store (.examining task batches [] pairs) (.indexing task batches 0 left [],store,[])
  | examines : Moves store (.examining task batches (item :: left) pairs)
      (examine task batches item left pairs store,store,[])
  | wants : Moves store (.comparing task batches item record left pairs)
      (.examining task batches left (pairs ++ [(record,item)]),store,[])
  | spares (found : getRow "memory" record.id task.modelName store.embeddings = some row)
      (current : embeddingIsStale env row.updatedAt record.updatedAt = false) :
      Moves store (.comparing task batches item record left pairs) (.dropping task batches item left pairs,store,[])
  | drops : Moves store (.dropping task batches item left pairs)
      (completing task item (.examining task batches left pairs) store)
  | upserts : Moves store (.indexing task batches index ((record,item) :: left) indexed)
      (.indexing task batches (index + 1) left (indexed ++ [item]), { store with embeddings :=
        (upsert store.tables (embedded env task.modelName store.now record) store.embeddings).2 },[])
  | indexed : Moves store (.indexing task batches index [] indexed) (.finishing task batches indexed,store,[])
  | finishes : Moves store (.finishing task batches (item :: left))
      (completing task item (.finishing task batches left) store)
  | finished : Moves store (.finishing task batches []) (.claiming task batches,store,[])
  | pruned : Moves store .pruning (.ended,{ store with repairs := prunedRows store.now store.repairs },[])
  | enqueues : Moves store (.scheduling (request :: left))
      (.reading found (.scheduling left),enqueueRepair uuid request store,[])
  | lists : Moves store (.releasing taskId) (.givingBack itemIds,store,[])
  | passes : Moves store (.givingBack (itemId :: left)) (.givingBack left,store,[])
  | releases (made : changeRunning itemId (releasedRow store.now) store.repairs = some rows) :
      Moves store (.givingBack (itemId :: left)) (.givingBack left,{ store with repairs := rows },[])
  | commits : Moves store (.once (.commit effect dropped intents))
      (.ended,intents.foldl (fun store request => enqueueRepair uuid request store)
        { store with tables := effect store.tables, embeddings := store.embeddings.filter fun row => !dropped row },[])
  | writes : Moves store (.once (.upsert row)) (.ended,{ store with embeddings := (upsert store.tables row store.embeddings).2 },[])
  | ticks : Moves store (.once (.tick now)) (.ended,{ store with now },[])
  | reads : Moves store (.reading found after) (after,store,[])

theorem stepMoves (call : Repairing V) (store : Persisted V) : Moves env uuid store call (stepRepair env uuid call store) := by
  cases call with
  | claiming task batches =>
    unfold stepRepair
    dsimp only
    split
    · exact .prunes
    · split
      · exact .prunes
      · exact .claims
  | examining task batches left pairs =>
    cases left with
    | nil =>
      unfold stepRepair
      dsimp only
      split
      · exact .again
      · split
        · exact .ends
        · rename_i made
          exact .indexes made
    | cons item left => exact .examines
  | comparing task batches item record left pairs =>
    unfold stepRepair
    dsimp only
    split
    · rename_i row found
      split
      · exact .wants
      · rename_i current
        exact .spares found (Bool.eq_false_iff.mpr current)
    · exact .wants
  | dropping task batches item left pairs => exact .drops
  | indexing task batches index left indexed =>
    cases left with
    | nil => exact .indexed
    | cons pair left =>
      unfold stepRepair
      dsimp only
      split
      · exact .ends
      · exact .upserts
  | finishing task batches left =>
    cases left with
    | nil => exact .finished
    | cons item left => exact .finishes
  | pruning => exact .pruned
  | scheduling left =>
    cases left with
    | nil => exact .ends
    | cons request left => exact .enqueues
  | releasing taskId => exact .lists
  | givingBack itemIds =>
    cases itemIds with
    | nil => exact .ends
    | cons itemId left =>
      unfold stepRepair
      dsimp only
      split
      · exact .passes
      · rename_i rows made
        exact .releases made
  | once op =>
    cases op with
    | commit effect dropped intents => exact .commits
    | upsert row => exact .writes
    | tick now => exact .ticks
    | repair | schedule | release => exact .ends
  | reading found after =>
    unfold stepRepair
    dsimp only
    split
    · exact .reads
    · exact .ends
  | ended => exact .ends

/- The queue. -/

structure Same (row later : RepairItem) : Prop where
  id : later.id = row.id
  memoryId : later.memoryId = row.memoryId
  modelName : later.modelName = row.modelName
  memoryUpdatedAt : later.memoryUpdatedAt = row.memoryUpdatedAt

theorem sameRefl (row : RepairItem) : Same row row := ⟨rfl,rfl,rfl,rfl⟩

theorem sameTrans {row later last : RepairItem} (first : Same row later) (rest : Same later last) : Same row last :=
  ⟨rest.id.trans first.id,rest.memoryId.trans first.memoryId,rest.modelName.trans first.modelName,
    rest.memoryUpdatedAt.trans first.memoryUpdatedAt⟩

/- A lease is held just while an item runs. -/
inductive Standing : RepairItem → Prop
  | pending {row : RepairItem} (status : row.status = "pending") (owner : row.leaseOwner = none) (lease : row.leaseExpiresAt = none) :
      Standing row
  | running {row : RepairItem} (status : row.status = "running") (owner : row.leaseOwner.isSome) (lease : row.leaseExpiresAt.isSome) :
      Standing row
  | completed {row : RepairItem} (status : row.status = "completed") (owner : row.leaseOwner = none)
      (lease : row.leaseExpiresAt = none) (at_ : row.completedAt.isSome) : Standing row

structure Sound (store : Persisted V) : Prop where
  ids : Table.UniqueBy (·.id) store.repairs
  versions : Table.UniqueBy (fun row => (row.memoryId,row.modelName,row.memoryUpdatedAt)) store.repairs
  standing : ∀ row ∈ store.repairs, Standing row
  issued : ∀ row ∈ store.repairs, ∃ k < store.minted, row.id = uuid k

/- What one change of the queue may do, with the items that it completes. -/
structure Evolves (before after : Persisted V) (done : List String) : Prop where
  sound : Sound uuid after
  kept : ∀ row ∈ before.repairs, row.status ≠ "completed" →
    (∃ later ∈ after.repairs, Same row later ∧ later.status ≠ "completed") ∨ row.id ∈ done
  owned : ∀ row ∈ after.repairs, (∃ old ∈ before.repairs, Same old row) ∨
    ∃ k, before.minted ≤ k ∧ k < after.minted ∧ row.id = uuid k
  minted : before.minted ≤ after.minted

section
variable {uuid} {before middle after : Persisted V} {done : List String}

theorem evolvesRefl (sound : Sound uuid before) (rows : after.repairs = before.repairs) (minted : after.minted = before.minted) :
    Evolves uuid before after [] where
  sound := ⟨rows ▸ sound.ids,rows ▸ sound.versions,rows ▸ sound.standing,by rw [rows,minted]; exact sound.issued⟩
  kept row member live := .inl ⟨row,rows ▸ member,sameRefl row,live⟩
  owned row member := .inl ⟨row,rows ▸ member,sameRefl row⟩
  minted := le_of_eq minted.symm

theorem evolvesTrans (first : Evolves uuid before middle []) (rest : Evolves uuid middle after done) :
    Evolves uuid before after done where
  sound := rest.sound
  kept row member live := by
    rcases first.kept row member live with ⟨later,there,same,alive⟩ | none
    · rcases rest.kept later there alive with ⟨last,final,same',still⟩ | gone
      · exact .inl ⟨last,final,sameTrans same same',still⟩
      · exact .inr (same.id ▸ gone)
    · cases none
  owned row member := by
    rcases rest.owned row member with ⟨old,there,same⟩ | ⟨k,lower,upper,named⟩
    · rcases first.owned old there with ⟨older,listed,same'⟩ | ⟨k,lower,upper,named⟩
      · exact .inl ⟨older,listed,sameTrans same' same⟩
      · exact .inr ⟨k,lower,upper.trans_le rest.minted,same.id.trans named⟩
    · exact .inr ⟨k,first.minted.trans lower,upper,named⟩
  minted := first.minted.trans rest.minted

theorem evolvesUpdate (sound : Sound uuid before) {sel : RepairItem → Bool} {set : RepairItem → RepairItem}
    (rows : after.repairs = Table.update sel set before.repairs) (minted : after.minted = before.minted)
    (same : ∀ row, Same row (set row)) (stands : ∀ row, sel row → Standing row → Standing (set row))
    (ends : ∀ row, sel row → (set row).status = "completed" → row.id ∈ done) : Evolves uuid before after done where
  sound := by
    refine ⟨?_,?_,fun row member => ?_,fun row member => ?_⟩
    · rw [rows]
      exact Table.updateUnique (fun row _ _ => (same row).id) sound.ids
    · rw [rows]
      refine Table.updateUnique (fun row _ _ => ?_) sound.versions
      rw [(same row).memoryId,(same row).modelName,(same row).memoryUpdatedAt]
    · rw [rows] at member
      obtain ⟨old,there,rfl⟩ := Table.memUpdate.mp member
      split
      · exact stands old ‹_› (sound.standing old there)
      · exact sound.standing old there
    · rw [rows] at member
      obtain ⟨old,there,rfl⟩ := Table.memUpdate.mp member
      rw [minted]
      split
      · rw [(same old).id]
        exact sound.issued old there
      · exact sound.issued old there
  kept row member live := by
    by_cases hit : sel row
    · by_cases finished : (set row).status = "completed"
      · exact .inr (ends row hit finished)
      · exact .inl ⟨set row,rows ▸ Table.memUpdate.mpr ⟨row,member,by rw [if_pos hit]⟩,same row,finished⟩
    · exact .inl ⟨row,rows ▸ Table.memUpdate.mpr ⟨row,member,by rw [if_neg hit]⟩,sameRefl row,live⟩
  owned row member := by
    rw [rows] at member
    obtain ⟨old,there,rfl⟩ := Table.memUpdate.mp member
    refine .inl ⟨old,there,?_⟩
    split
    · exact same old
    · exact sameRefl old
  minted := le_of_eq minted.symm

theorem evolvesEnqueue (sound : Sound uuid before) (request : RepairRequest) :
    Evolves uuid before (enqueueRepair uuid request before) [] := by
  unfold enqueueRepair
  dsimp only
  split
  · exact ⟨⟨sound.ids,sound.versions,sound.standing,fun row member =>
      (sound.issued row member).imp fun k named => ⟨named.1.trans (Nat.lt_succ_self _),named.2⟩⟩,
      fun row member live => .inl ⟨row,member,sameRefl row,live⟩,fun row member => .inl ⟨row,member,sameRefl row⟩,
      Nat.le_succ _⟩
  · rename_i fits
    have apart : ∀ row ∈ before.repairs, repairs.clashes (minting uuid request before) row = false := by
      simpa only [List.any_eq_true,not_exists,not_and,Bool.not_eq_true] using fits
    refine ⟨⟨Table.insertUnique (fun row member same => ?_) sound.ids,
      Table.insertUnique (fun row member same => ?_) sound.versions,fun row member => ?_,fun row member => ?_⟩,
      fun row member live => .inl ⟨row,List.mem_append_left _ member,sameRefl row,live⟩,fun row member => ?_,Nat.le_succ _⟩
    · have clash := apart row member
      simp [repairs,same] at clash
    · have clash := apart row member
      simp only [Prod.mk.injEq] at same
      simp [repairs,same] at clash
    · rcases List.mem_append.mp member with old | here
      · exact sound.standing row old
      · cases List.mem_singleton.mp here
        exact .pending rfl rfl rfl
    · rcases List.mem_append.mp member with old | here
      · exact (sound.issued row old).imp fun k named => ⟨named.1.trans (Nat.lt_succ_self _),named.2⟩
      · cases List.mem_singleton.mp here
        exact ⟨before.minted,Nat.lt_succ_self _,rfl⟩
    · rcases List.mem_append.mp member with old | here
      · exact .inl ⟨row,old,sameRefl row⟩
      · cases List.mem_singleton.mp here
        exact .inr ⟨before.minted,Nat.le_refl _,Nat.lt_succ_self _,rfl⟩

theorem evolvesPruned (sound : Sound uuid before) (now : Int) :
    Evolves uuid before { before with repairs := prunedRows now before.repairs } [] where
  sound := ⟨List.Nodup.sublist (List.filter_sublist.map _) sound.ids,
    List.Nodup.sublist (List.filter_sublist.map _) sound.versions,
    fun row member => sound.standing row (List.mem_filter.mp member).1,
    fun row member => sound.issued row (List.mem_filter.mp member).1⟩
  kept row member live := by
    refine .inl ⟨row,List.mem_filter.mpr ⟨member,?_⟩,sameRefl row,live⟩
    rw [Bool.not_eq_true',List.contains_eq_mem,decide_eq_false_iff_not]
    intro pruned
    obtain ⟨other,listed,same⟩ := List.mem_map.mp pruned
    have found := List.mem_of_mem_take listed
    rw [List.mem_insertionSort] at found
    obtain ⟨there,finished⟩ := List.mem_filter.mp found
    rw [Table.equalOfKey sound.ids there member same] at finished
    simp only [Bool.and_eq_true,beq_iff_eq] at finished
    exact live finished.1
  owned row member := .inl ⟨row,(List.mem_filter.mp member).1,sameRefl row⟩
  minted := Nat.le_refl _

theorem evolvesIntents (intents : List RepairRequest) : ∀ before : Persisted V, Sound uuid before →
    Evolves uuid before (intents.foldl (fun store request => enqueueRepair uuid request store) before) [] := by
  induction intents with
  | nil => exact fun before sound => evolvesRefl sound rfl rfl
  | cons request rest ih =>
    intro before sound
    have first := evolvesEnqueue sound request
    exact evolvesTrans first (ih _ first.sound)

theorem evolvesClaimed (sound : Sound uuid before) (lease : Lease) (limit : Nat) (workspaceId : Option String) :
    Evolves uuid before { before with repairs := claimedRows lease limit workspaceId before.repairs } [] :=
  evolvesUpdate sound rfl rfl (fun _ => ⟨rfl,rfl,rfl,rfl⟩) (fun _ _ _ => .running rfl rfl rfl) fun _ _ finished => by
    simp [leased] at finished

theorem runningId {itemId : String} {row : RepairItem} (hit : isRunning itemId row) : row.id = itemId := by
  simp only [isRunning,Bool.and_eq_true,beq_iff_eq] at hit
  exact hit.1

/- Where an item is changed, it runs, and there is one of its id. -/
theorem changedRow {itemId : String} {set : RepairItem → RepairItem} {rows changed}
    (made : changeRunning itemId set rows = some changed) :
    changed = Table.update (isRunning itemId) set rows ∧ ∃ row ∈ rows, isRunning itemId row := by
  unfold changeRunning at made
  split at made
  · rename_i one
    obtain ⟨row,member,hit⟩ := List.countP_pos_iff.mp (by rw [one]; exact Nat.one_pos)
    exact ⟨(Option.some.inj made).symm,row,member,hit⟩
  · cases made

theorem evolvesCompleted (sound : Sound uuid before) {itemId : String} {now rows}
    (made : changeRunning itemId (completedRow now) before.repairs = some rows) :
    Evolves uuid before { before with repairs := rows } [itemId] :=
  evolvesUpdate sound (changedRow made).1 rfl (fun _ => ⟨rfl,rfl,rfl,rfl⟩) (fun _ _ _ => .completed rfl rfl rfl rfl)
    fun _ hit _ => List.mem_singleton.mpr (runningId hit)

theorem evolvesReleased (sound : Sound uuid before) {itemId : String} {now rows}
    (made : changeRunning itemId (releasedRow now) before.repairs = some rows) :
    Evolves uuid before { before with repairs := rows } [] :=
  evolvesUpdate sound (changedRow made).1 rfl (fun _ => ⟨rfl,rfl,rfl,rfl⟩) (fun _ _ _ => .pending rfl rfl rfl)
    fun _ _ finished => by simp [releasedRow] at finished

theorem completingEvolves (sound : Sound uuid before) (task : RepairTask) (item : RepairItem) (next : Repairing V) :
    Evolves uuid before (completing task item next before).2.1 ((completing task item next before).2.2.map (·.item.id)) := by
  unfold completing
  split
  · exact evolvesRefl sound rfl rfl
  · rename_i rows made
    exact evolvesCompleted sound made

theorem stepEvolves {env : Env V} (sound : Sound uuid before) (call : Repairing V) :
    Evolves uuid before (stepRepair env uuid call before).2.1 ((stepRepair env uuid call before).2.2.map (·.item.id)) := by
  have moves := stepMoves env uuid call before
  generalize stepRepair env uuid call before = step at moves ⊢
  cases moves with
  | claims => exact evolvesClaimed sound _ _ _
  | drops => exact completingEvolves sound _ _ _
  | finishes => exact completingEvolves sound _ _ _
  | pruned => exact evolvesPruned sound _
  | enqueues => exact evolvesEnqueue sound _
  | releases made => exact evolvesReleased sound made
  | @commits effect dropped intents =>
    have aside := @evolvesRefl V uuid before ⟨effect before.tables,before.embeddings.filter fun row => !dropped row,
      before.repairs,before.now,before.minted⟩ sound rfl rfl
    exact evolvesTrans aside (evolvesIntents intents _ aside.sound)
  | _ => exact evolvesRefl sound rfl rfl

end

/- Why an item may be completed. -/

def Departed (store : Persisted V) (item : RepairItem) : Prop :=
  ∃ found, repositoryMemory store.tables item.memoryId = .ok found ∧
    ∀ record, found = some record → record.status = "archived" ∨ record.updatedAt ≠ item.memoryUpdatedAt

structure ReadFor (store : Persisted V) (item : RepairItem) (record : MemoryRecord) : Prop where
  found : repositoryMemory store.tables item.memoryId = .ok (some record)
  live : record.status ≠ "archived"
  version : record.updatedAt = item.memoryUpdatedAt

/- The embedding is recent by the clock, is that of the version, or cannot be written any more. -/
inductive Settled (env : Env V) (modelName : String) (record : MemoryRecord) (store : Persisted V) : Prop
  | recent (row) (found : getRow "memory" record.id modelName store.embeddings = some row)
      (current : embeddingIsStale env row.updatedAt record.updatedAt = false)
  | written (version row) (parsed : env.isoformat record.updatedAt = some version) (member : row ∈ store.embeddings)
      (key : isRowOf "memory" record.id modelName row) (carried : row.memoryUpdatedAt = some version)
      (text : row.embedding = env.embed modelName (memoryEmbeddingText record))
  | outdated (version) (parsed : env.isoformat record.updatedAt = some version) (gone : ¬ Current store.tables record.id version)
  | overtaken (version row stored) (parsed : env.isoformat record.updatedAt = some version) (member : row ∈ store.embeddings)
      (key : isRowOf "memory" record.id modelName row) (carried : row.memoryUpdatedAt = some stored) (later : version < stored)

inductive Cause (env : Env V) (past : Nat → Persisted V) (n : Nat) (modelName : String) (item : RepairItem) : Prop
  | blank (empty : Text.strip item.memoryId = "")
  | otherModel (other : item.modelName ≠ modelName)
  | departed (m) (before : m ≤ n) (gone : Departed (past m) item)
  | settled (m k) (order : m ≤ k) (before : k ≤ n) (record) (read : ReadFor (past m) item record)
      (settled : Settled env modelName record (past k))

section
variable {env : Env V} {uuid : Nat → String} {past : Nat → Persisted V} {n : Nat}

def ReadBefore (past : Nat → Persisted V) (n : Nat) (item : RepairItem) (record : MemoryRecord) : Prop :=
  ∃ m ≤ n, ReadFor (past m) item record

theorem causeLater {modelName item} (cause : Cause env past n modelName item) : Cause env past (n + 1) modelName item := by
  cases cause with
  | blank empty => exact .blank empty
  | otherModel other => exact .otherModel other
  | departed m before gone => exact .departed m (Nat.le_succ_of_le before) gone
  | settled m k order before record read settled => exact .settled m k order (Nat.le_succ_of_le before) record read settled

theorem readLater {item record} (read : ReadBefore past n item record) : ReadBefore past (n + 1) item record :=
  read.imp fun _ found => ⟨Nat.le_succ_of_le found.1,found.2⟩

/- What a call holds of items is warranted by what it has seen. -/
def Warranted (env : Env V) (past : Nat → Persisted V) (n : Nat) : Repairing V → Prop
  | .examining _ _ _ pairs => ∀ pair ∈ pairs, ReadBefore past n pair.2 pair.1
  | .comparing _ _ item record _ pairs => ReadBefore past n item record ∧ ∀ pair ∈ pairs, ReadBefore past n pair.2 pair.1
  | .dropping task _ item _ pairs => Cause env past n task.modelName item ∧ ∀ pair ∈ pairs, ReadBefore past n pair.2 pair.1
  | .indexing task _ _ left indexed =>
    (∀ pair ∈ left, ∃ record, ReadBefore past n pair.2 record ∧ toKernelRecord env record = some pair.1) ∧
      ∀ item ∈ indexed, Cause env past n task.modelName item
  | .finishing task _ left => ∀ item ∈ left, Cause env past n task.modelName item
  | .reading _ after => Warranted env past n after
  | _ => True

theorem warrantedLater {call : Repairing V} (warranted : Warranted env past n call) : Warranted env past (n + 1) call := by
  induction call with
  | examining task batches left pairs => exact fun pair member => readLater (warranted pair member)
  | comparing task batches item record left pairs =>
    exact ⟨readLater warranted.1,fun pair member => readLater (warranted.2 pair member)⟩
  | dropping task batches item left pairs =>
    exact ⟨causeLater warranted.1,fun pair member => readLater (warranted.2 pair member)⟩
  | indexing task batches index left indexed =>
    exact ⟨fun pair member => (warranted.1 pair member).imp fun record found => ⟨readLater found.1,found.2⟩,
      fun item member => causeLater (warranted.2 item member)⟩
  | finishing task batches left => exact fun item member => causeLater (warranted item member)
  | reading found after ih => exact ih warranted
  | claiming | pruning | scheduling | releasing | givingBack | once | ended => trivial

theorem examineWarranted {task : RepairTask} {batches : Nat} {item : RepairItem} {left pairs}
    (warranted : ∀ pair ∈ pairs, ReadBefore past n pair.2 pair.1) :
    Warranted env past n (examine task batches item left pairs (past n)) := by
  unfold examine
  split
  · rename_i dropped
    refine ⟨?_,warranted⟩
    simp only [Bool.or_eq_true,decide_eq_true_eq] at dropped
    rcases dropped with empty | other
    · exact .blank empty
    · exact .otherModel other
  · split
    · trivial
    · rename_i found
      exact ⟨.departed n (Nat.le_refl n) ⟨none,found,fun _ none => by cases none⟩,warranted⟩
    · rename_i record found
      split
      · rename_i dropped
        refine ⟨.departed n (Nat.le_refl n) ⟨some record,found,fun other same => ?_⟩,warranted⟩
        cases same
        simp only [Bool.or_eq_true,decide_eq_true_eq] at dropped
        exact dropped.imp id Ne.symm
      · rename_i kept
        simp only [Bool.or_eq_true,decide_eq_true_eq,not_or,ne_eq,not_not] at kept
        exact ⟨⟨n,Nat.le_refl n,found,kept.1,kept.2.symm⟩,warranted⟩

/- What an upsert of a record that was read leaves. -/
theorem upsertSettles {record : MemoryRecord} {kernel} (made : toKernelRecord env record = some kernel) (modelName : String)
    (now : Int) (store : Persisted V) : Settled env modelName record store ∨ Settled env modelName record
      { store with embeddings := (upsert store.tables (embedded env modelName now kernel) store.embeddings).2 } := by
  obtain ⟨source,text,parsed⟩ := kernelOf made
  by_cases current : Current store.tables record.id kernel.updatedAt
  · by_cases older : ∀ row ∈ store.embeddings, sameKey (embedded env modelName now kernel) row → ∀ stored,
        row.memoryUpdatedAt = some stored → stored ≤ kernel.updatedAt
    · have written : ∃ row ∈ (insertFenced (embedded env modelName now kernel) store.embeddings).1,
          Writes (embedded env modelName now kernel) row := (fencedWrites rfl older).2
      obtain ⟨row,member,writes⟩ := written
      have key := isRowOfIff.mpr writes.key
      rw [show (embedded env modelName now kernel).sourceId = record.id from source] at key
      have there : row ∈ (upsert store.tables (embedded env modelName now kernel) store.embeddings).2 := by
        have here : Current store.tables kernel.sourceId kernel.updatedAt := by rwa [source]
        rw [upsertCurrent rfl here]
        exact member
      refine .inr (.written kernel.updatedAt row parsed there key writes.memoryUpdatedAt ?_)
      rw [writes.embedding,← text]
      rfl
    · simp only [not_forall,exists_prop] at older
      obtain ⟨row,member,hit,stored,carried,later⟩ := older
      have key : isRowOf "memory" record.id modelName row := source ▸ hit
      exact .inl (.overtaken kernel.updatedAt row stored parsed member key carried (String.not_le.mp later))
  · exact .inl (.outdated kernel.updatedAt parsed current)

theorem kernels {pairs : List (MemoryRecord × RepairItem)} {left}
    (made : (pairs.mapM fun pair => (toKernelRecord env pair.1).map (·,pair.2)) = some left) :
    ∀ pair ∈ left, ∃ record, (record,pair.2) ∈ pairs ∧ toKernelRecord env record = some pair.1 := by
  induction pairs generalizing left with
  | nil =>
    cases made
    exact fun _ member => by cases member
  | cons first rest ih =>
    rw [List.mapM_cons] at made
    obtain ⟨kernel,here,made⟩ := Option.bind_eq_some_iff.mp made
    obtain ⟨others,there,made⟩ := Option.bind_eq_some_iff.mp made
    obtain ⟨parsed,read,rfl⟩ := Option.map_eq_some_iff.mp here
    cases made
    intro pair member
    rcases List.mem_cons.mp member with rfl | member
    · exact ⟨first.1,List.mem_cons_self,read⟩
    · obtain ⟨record,listed,same⟩ := ih there pair member
      exact ⟨record,List.mem_cons_of_mem _ listed,same⟩

theorem completingWarranted {task : RepairTask} {item : RepairItem} {after : Repairing V} {store : Persisted V}
    (warranted : Warranted env past n after) : Warranted env past n (completing task item after store).1 := by
  unfold completing
  split
  · trivial
  · exact warranted

theorem completingEmits {task : RepairTask} {item : RepairItem} {after : Repairing V} {store : Persisted V} {completed}
    (member : completed ∈ (completing task item after store).2.2) : completed = ⟨task.modelName,item⟩ := by
  unfold completing at member
  split at member
  · cases member
  · exact List.mem_singleton.mp member

/- What a step completes has its cause by then. -/
theorem stepCause {call : Repairing V} (warranted : Warranted env past n call) {store : Persisted V} :
    ∀ completed ∈ (stepRepair env uuid call store).2.2, Cause env past n completed.modelName completed.item := by
  intro completed member
  have moves := stepMoves env uuid call store
  generalize stepRepair env uuid call store = step at moves member
  cases moves with
  | drops =>
    obtain rfl := completingEmits member
    exact warranted.1
  | finishes =>
    obtain rfl := completingEmits member
    exact warranted _ List.mem_cons_self
  | _ => cases member

theorem stepWarranted {call : Repairing V} (warranted : Warranted env past n call)
    (next : past (n + 1) = (stepRepair env uuid call (past n)).2.1) :
    Warranted env past (n + 1) (stepRepair env uuid call (past n)).1 := by
  have moves := stepMoves env uuid call (past n)
  generalize stepRepair env uuid call (past n) = step at moves next ⊢
  cases moves with
  | claims => exact fun _ member => by cases member
  | indexes made =>
    refine ⟨fun pair member => ?_,fun _ member => by cases member⟩
    obtain ⟨record,listed,parsed⟩ := kernels made pair member
    exact ⟨record,readLater (warranted _ listed),parsed⟩
  | examines => exact warrantedLater (examineWarranted warranted)
  | wants =>
    intro pair member
    rcases List.mem_append.mp member with old | here
    · exact readLater (warranted.2 pair old)
    · cases List.mem_singleton.mp here
      exact readLater warranted.1
  | spares found current =>
    obtain ⟨m,before,read⟩ := warranted.1
    exact ⟨causeLater (.settled m n before (Nat.le_refl n) _ read (.recent _ found current)),
      fun pair member => readLater (warranted.2 pair member)⟩
  | drops => exact completingWarranted fun pair member => readLater (warranted.2 pair member)
  | @upserts task batches index record item left indexed =>
    refine ⟨fun other member => (warranted.1 other (List.mem_cons_of_mem _ member)).imp fun record found =>
      ⟨readLater found.1,found.2⟩,fun other member => ?_⟩
    rcases List.mem_append.mp member with old | here
    · exact causeLater (warranted.2 other old)
    · cases List.mem_singleton.mp here
      obtain ⟨read,⟨m,before,found⟩,made⟩ := warranted.1 (record,item) List.mem_cons_self
      rcases upsertSettles made task.modelName (past n).now (past n) with settled | settled
      · exact causeLater (.settled m n before (Nat.le_refl n) read found settled)
      · exact .settled m (n + 1) (Nat.le_succ_of_le before) (Nat.le_refl _) read found (next ▸ settled)
  | indexed => exact fun item member => causeLater (warranted.2 item member)
  | finishes => exact completingWarranted fun other member => causeLater (warranted other (List.mem_cons_of_mem _ member))
  | reads => exact warrantedLater warranted
  | _ => trivial

end

def heldItems : Repairing V → List RepairItem
  | .examining _ _ left pairs => left ++ pairs.map (·.2)
  | .comparing _ _ item _ left pairs => item :: left ++ pairs.map (·.2)
  | .dropping _ _ item left pairs => item :: left ++ pairs.map (·.2)
  | .indexing _ _ _ left indexed => left.map (·.2) ++ indexed
  | .finishing _ _ left => left
  | .reading _ after => heldItems after
  | _ => []

/- The row of its id, where there is one, is of the version that was claimed. -/
structure Fits (uuid : Nat → String) (store : Persisted V) (item : RepairItem) : Prop where
  issued : ∃ k < store.minted, item.id = uuid k
  row : ∀ row ∈ store.repairs, row.id = item.id → Same item row

section
variable {env : Env V} {uuid : Nat → String} {before after : Persisted V}

theorem fitsLater (apart : Function.Injective uuid) {done : List String} (evolves : Evolves uuid before after done)
    {item : RepairItem} (fits : Fits uuid before item) : Fits uuid after item where
  issued := fits.issued.imp fun _ named => ⟨named.1.trans_le evolves.minted,named.2⟩
  row row member same := by
    rcases evolves.owned row member with ⟨old,there,kept⟩ | ⟨k,lower,_,named⟩
    · exact sameTrans (fits.row old there (kept.id.symm.trans same)) kept
    · obtain ⟨j,issued,here⟩ := fits.issued
      have := apart (named.symm.trans (same.trans here))
      omega

theorem fitsRow (sound : Sound uuid after) {row : RepairItem} (member : row ∈ after.repairs) : Fits uuid after row where
  issued := sound.issued row member
  row other there same := Table.equalOfKey sound.ids there member same ▸ sameRefl other

theorem kernelItems {pairs : List (MemoryRecord × RepairItem)} {left}
    (made : (pairs.mapM fun pair => (toKernelRecord env pair.1).map (·,pair.2)) = some left) :
    left.map (·.2) = pairs.map (·.2) := by
  induction pairs generalizing left with
  | nil =>
    cases made
    rfl
  | cons first rest ih =>
    rw [List.mapM_cons] at made
    obtain ⟨kernel,here,made⟩ := Option.bind_eq_some_iff.mp made
    obtain ⟨others,there,made⟩ := Option.bind_eq_some_iff.mp made
    obtain ⟨parsed,_,rfl⟩ := Option.map_eq_some_iff.mp here
    cases made
    exact congrArg (first.2 :: ·) (ih there)

theorem completingHeld {task : RepairTask} {item : RepairItem} {next : Repairing V} {held}
    (member : held ∈ heldItems (completing task item next before).1) : held ∈ heldItems next := by
  unfold completing at member
  split at member
  · cases member
  · exact member

theorem examineHeld {task : RepairTask} {batches : Nat} {item held : RepairItem} {left pairs} {store : Persisted V}
    (member : held ∈ heldItems (examine task batches item left pairs store)) : held ∈ item :: left ++ pairs.map (·.2) := by
  unfold examine at member
  split at member
  · exact member
  · split at member
    · cases member
    · exact member
    · split at member <;> exact member

/- A call holds what it held, or what it claimed just now. -/
theorem stepHeld {call : Repairing V} {held} (member : held ∈ heldItems (stepRepair env uuid call before).1) :
    held ∈ heldItems call ∨ held ∈ (stepRepair env uuid call before).2.1.repairs := by
  have moves := stepMoves env uuid call before
  generalize stepRepair env uuid call before = step at moves member ⊢
  cases moves with
  | claims =>
    simp only [heldItems,List.map_nil,List.append_nil,claimedItems,List.mem_insertionSort] at member
    exact .inr (List.mem_filter.mp member).1
  | indexes made =>
    simp only [heldItems,List.append_nil,kernelItems made] at member
    exact .inl member
  | examines => exact .inl (examineHeld member)
  | wants =>
    refine .inl ?_
    simp only [heldItems,List.map_append,List.map_cons,List.map_nil,List.mem_append,List.mem_cons,List.not_mem_nil,or_false] at *
    tauto
  | spares => exact .inl member
  | drops => exact .inl (List.mem_cons_of_mem _ (completingHeld member))
  | upserts =>
    refine .inl ?_
    simp only [heldItems,List.mem_append,List.map_cons,List.mem_cons,List.not_mem_nil,or_false] at *
    tauto
  | indexed => exact .inl member
  | finishes => exact .inl (List.mem_cons_of_mem _ (completingHeld member))
  | reads => exact .inl member
  | _ => cases member

/- What is completed was held. -/
theorem stepCompleted {call : Repairing V} {completed} (member : completed ∈ (stepRepair env uuid call before).2.2) :
    completed.item ∈ heldItems call := by
  have moves := stepMoves env uuid call before
  generalize stepRepair env uuid call before = step at moves member
  cases moves with
  | drops =>
    obtain rfl := completingEmits member
    exact List.mem_cons_self
  | finishes =>
    obtain rfl := completingEmits member
    exact List.mem_cons_self
  | _ => cases member

end

variable (start : Persisted V) (events : List (Event (RepairOp V)))

def repairsAt (n : Nat) : Persisted V := ((repairing env uuid).run (idle start) (events.take n)).store

def completedBy (n : Nat) : List Completed := ((repairing env uuid).run (idle start) (events.take n)).trace

structure Followed (n : Nat) : Prop where
  sound : Sound uuid (repairsAt env uuid start events n)
  fits : ∀ call ∈ ((repairing env uuid).run (idle start) (events.take n)).calls, ∀ item ∈ heldItems call,
    Fits uuid (repairsAt env uuid start events n) item
  warranted : ∀ call ∈ ((repairing env uuid).run (idle start) (events.take n)).calls,
    Warranted env (repairsAt env uuid start events) n call
  caused : ∀ completed ∈ completedBy env uuid start events n,
    Cause env (repairsAt env uuid start events) n completed.modelName completed.item

/- The events before and the one that follows. -/
structure Following (n : Nat) (emitted : List Completed) : Prop where
  trace : completedBy env uuid start events (n + 1) = emitted ++ completedBy env uuid start events n
  evolves : Evolves uuid (repairsAt env uuid start events n) (repairsAt env uuid start events (n + 1)) (emitted.map (·.item.id))
  caused : ∀ completed ∈ emitted, Cause env (repairsAt env uuid start events) n completed.modelName completed.item ∧
    Fits uuid (repairsAt env uuid start events n) completed.item

variable {env uuid start events} {n : Nat}

theorem followedSame (followed : Followed env uuid start events n) {calls : List (Repairing V)}
    (taken : (repairing env uuid).run (idle start) (events.take (n + 1)) =
      { (repairing env uuid).run (idle start) (events.take n) with calls })
    (known : ∀ call ∈ calls, call ∈ ((repairing env uuid).run (idle start) (events.take n)).calls ∨ ∃ op, call = beginRepair op) :
    Followed env uuid start events (n + 1) ∧ Following env uuid start events n [] := by
  have stored : repairsAt env uuid start events (n + 1) = repairsAt env uuid start events n := by
    unfold repairsAt
    rw [taken]
  have told : completedBy env uuid start events (n + 1) = completedBy env uuid start events n := by
    unfold completedBy
    rw [taken]
  refine ⟨⟨stored ▸ followed.sound,fun call member => ?_,fun call member => ?_,fun completed member => ?_⟩,told,
    evolvesRefl followed.sound (congrArg _ stored) (congrArg _ stored),fun _ member => by cases member⟩
  · rw [taken] at member
    rcases known call member with old | ⟨op,rfl⟩
    · rw [stored]
      exact followed.fits call old
    · cases op <;> exact fun _ member => by cases member
  · rw [taken] at member
    rcases known call member with old | ⟨op,rfl⟩
    · exact warrantedLater (followed.warranted call old)
    · cases op <;> trivial
  · rw [told] at member
    exact causeLater (followed.caused completed member)

theorem followedNext (apart : Function.Injective uuid) (followed : Followed env uuid start events n) :
    ∃ emitted, Followed env uuid start events (n + 1) ∧ Following env uuid start events n emitted := by
  cases found : events[n]? with
  | none =>
    have same := @runEnded _ _ _ _ (repairing env uuid) (idle start) events n found
    exact ⟨[],followedSame followed same fun call member => .inl member⟩
  | some event =>
    have taken := @runTake _ _ _ _ (repairing env uuid) (idle start) events n event found
    cases event with
    | start op =>
      refine ⟨[],followedSame followed taken fun call member => ?_⟩
      rcases List.mem_append.mp member with old | here
      · exact .inl old
      · exact .inr ⟨op,List.mem_singleton.mp here⟩
    | advance index =>
      cases here : ((repairing env uuid).run (idle start) (events.take n)).calls[index]? with
      | none =>
        rw [nextIdle here] at taken
        exact ⟨[],followedSame followed taken fun call member => .inl member⟩
      | some call =>
        have listed := List.mem_of_getElem? here
        rw [nextAdvance here] at taken
        have stored : repairsAt env uuid start events (n + 1) =
            (stepRepair env uuid call (repairsAt env uuid start events n)).2.1 := congrArg World.store taken
        have told : completedBy env uuid start events (n + 1) =
            (stepRepair env uuid call (repairsAt env uuid start events n)).2.2 ++ completedBy env uuid start events n :=
          congrArg World.trace taken
        have evolves := @stepEvolves _ _ _ env followed.sound call
        rw [← stored] at evolves
        have caused := @stepCause _ env uuid _ _ call (followed.warranted call listed) (repairsAt env uuid start events n)
        refine ⟨_,⟨evolves.sound,fun other member => ?_,fun other member => ?_,fun completed member => ?_⟩,told,evolves,
          fun completed member => ⟨caused completed member,followed.fits call listed _ (stepCompleted member)⟩⟩
        · rw [taken] at member
          intro item held
          rcases List.mem_or_eq_of_mem_set member with old | rfl
          · exact fitsLater apart evolves (followed.fits other old item held)
          · rcases stepHeld held with before | claimed
            · exact fitsLater apart evolves (followed.fits call listed item before)
            · exact fitsRow evolves.sound (stored ▸ claimed)
        · rw [taken] at member
          rcases List.mem_or_eq_of_mem_set member with old | rfl
          · exact warrantedLater (followed.warranted other old)
          · exact stepWarranted (followed.warranted call listed) stored
        · rw [told] at member
          rcases List.mem_append.mp member with now | old
          · exact causeLater (caused completed now)
          · exact causeLater (followed.caused completed old)

theorem followedAll (apart : Function.Injective uuid) (sound : Sound uuid start) :
    ∀ n, Followed env uuid start events n := by
  intro n
  induction n with
  | zero => exact ⟨sound,fun _ member => (by cases member),fun _ member => (by cases member),fun _ member => (by cases member)⟩
  | succ n ih =>
    obtain ⟨_,followed,_⟩ := followedNext apart ih
    exact followed

theorem completedLater (apart : Function.Injective uuid) (sound : Sound uuid start) {completed}
    (member : completed ∈ completedBy env uuid start events n) : completed ∈ completedBy env uuid start events (n + 1) := by
  have followed : Followed env uuid start events n := followedAll apart sound n
  obtain ⟨_,_,following⟩ := followedNext apart followed
  rw [following.trace]
  exact List.mem_append_right _ member

def strokes (n : Nat) : String := String.ofList (List.replicate n '|')

theorem strokesApart : Function.Injective strokes := by
  intro n m same
  have lists := String.ofList_injective same
  simpa using congrArg List.length lists

def unembedded : Persisted String := ⟨drafted.tables,[],[],7,0⟩

def repairDraft : List (Event (RepairOp String)) := [.start (.schedule [⟨"m","model",draft.updatedAt,none,none⟩]),
  .start (.repair ⟨"task",none,32,1,"model",1,fun _ _ => false⟩),.advance 0] ++ List.replicate 11 (.advance 1)

end McpMemory.Embedding
