import Mathlib.Data.List.Pairwise
import McpMemory.Work.Hygiene

/-! What no operation of the queues changes of a work item: its id, its idempotency key and its
payload. A request whose key is there is answered with the item that has it. -/
namespace McpMemory.Work
open Table Transaction Connection

def identity (item : WorkItem) : String × Option String × String := (item.id,item.idempotencyKey,item.payloadJson)

def identities (data : Queues) : List (String × Option String × String) := data.workItems.map identity

/- The constraints of the table. -/
def Unique (data : Queues) : Prop := data.workItems.Pairwise fun a b => workItems.clashes a b = false

structure Holds (item : WorkItem) (data : Queues) : Prop where
  unique : Unique data
  stored : identity item ∈ identities data

section
variable {item row other : WorkItem} {data after : Queues}

theorem clashesSymm (a b : WorkItem) : workItems.clashes a b = workItems.clashes b a := by
  unfold workItems
  simp only
  rw [Bool.eq_iff_iff]
  simp only [Bool.or_eq_true,Bool.and_eq_true,beq_iff_eq]
  constructor
  · rintro (id | ⟨some,key⟩)
    · exact .inl id.symm
    · exact .inr ⟨key ▸ some,key.symm⟩
  · rintro (id | ⟨some,key⟩)
    · exact .inl id.symm
    · exact .inr ⟨key ▸ some,key.symm⟩

/- Two identities of one id, or of one key. -/
def meet (a b : String × Option String × String) : Bool := a.1 == b.1 || a.2.1.isSome && a.2.1 == b.2.1

theorem uniqueIdentities : Unique data ↔ (identities data).Pairwise fun a b => meet a b = false := by
  rw [Unique,identities,List.pairwise_map]
  rfl

theorem holdsSame (same : identities after = identities data) (holds : Holds item data) : Holds item after where
  unique := uniqueIdentities.mpr (same ▸ uniqueIdentities.mp holds.unique)
  stored := same ▸ holds.stored

theorem updateIdentities {sel : WorkItem → Bool} {set : WorkItem → WorkItem}
    (same : ∀ item, identity (set item) = identity item) (rows : List WorkItem) :
    (update sel set rows).map identity = rows.map identity := by
  rw [update,List.map_map]
  refine List.map_congr_left fun row _ => ?_
  by_cases chosen : sel row <;> simp [chosen,same]

theorem insertUnique (unique : Unique data) (fits : data.workItems.any (workItems.clashes row) = false) :
    Unique (workItems.put (workItems.rows data ++ [row]) data) := by
  refine List.pairwise_append.mpr ⟨unique,List.pairwise_singleton _ _,fun old member new last => ?_⟩
  rw [List.mem_singleton.mp last,clashesSymm]
  exact List.any_eq_false.mp fits old member |> Bool.eq_false_iff.mpr

theorem insertHolds (holds : Holds item data) (fits : data.workItems.any (workItems.clashes row) = false) :
    Holds item (workItems.put (workItems.rows data ++ [row]) data) where
  unique := insertUnique holds.unique fits
  stored := by
    show identity item ∈ (data.workItems ++ [row]).map identity
    rw [List.map_append]
    exact List.mem_append_left _ holds.stored

/- Rows of one key, or of one id, are one. -/
theorem uniqueRow (unique : Unique data) (first : row ∈ data.workItems) (second : other ∈ data.workItems)
    (clash : workItems.clashes row other = true) : row = other := by
  have : Std.Symm fun a b : WorkItem => workItems.clashes a b = false := ⟨fun a b clear => by rwa [clashesSymm]⟩
  by_contra different
  have apart := List.Pairwise.forall unique first second different
  rw [apart] at clash
  cases clash

end

/- What all operations keep. -/

section
variable {ρ : Type} {queue : Queue ρ} {inv : Queues → Prop}

theorem getItemKeeps {itemId : String} : Ensures (SeesOnly inv) (getItem queue itemId) fun _ => True := by
  refine ensuresBind (querySees _) fun row _ => ?_
  cases row with
  | none => exact ensuresRaise _
  | some row => exact ensuresPure trivial

theorem changeKeeps {itemId : String} {selects : ρ → Bool} {set : ρ → ρ} {missing : StoreError}
    (kept : ∀ data, inv data → inv (queue.put (update selects set (queue.rows data)) data)) :
    Ensures (SeesOnly inv) (change queue itemId selects set missing) fun _ => True :=
  ensuresBind (changingSees fun data => kept data) fun _ _ => getItemKeeps

theorem enqueueKeeps {item : ρ} {found : ρ → Bool} (kept : ∀ data, inv data →
    (queue.rows data).any (queue.clashes item) = false → inv (queue.put (queue.rows data ++ [item]) data)) :
    Ensures (SeesOnly inv) (enqueue queue item found) fun _ => True := by
  have inserts : Ensures (SeesOnly inv) (inserted queue item) fun _ => True := by
    refine ensuresBind (executeSees fun data _ after holds taken => ?_) fun _ _ =>
      ensuresBind commitSees fun _ _ => ensuresPure trivial
    split at taken <;> cases taken
    rename_i fits
    exact kept data holds (Bool.eq_false_iff.mpr fits)
  have finds (error : StoreError) : Ensures (SeesOnly inv) (instead queue found error) fun _ => True := by
    cases error with
    | integrity message =>
      refine ensuresBind (querySees _) fun row _ => ?_
      cases row with
      | none => exact ensuresRaise _
      | some row => exact ensuresPure trivial
    | operational message => exact ensuresRaise _
    | valueError message => exact ensuresRaise _
  refine ensuresBind (ensuresHandling inserts finds) fun existing _ => ?_
  cases existing with
  | some existing => exact ensuresPure trivial
  | none => exact ensuresBind getItemKeeps fun _ _ => ensuresPure trivial

theorem claimKeeps {ready : ρ → Bool} {le : ρ → ρ → Bool} {set : ρ → ρ} {limit : Nat}
    (kept : ∀ data selects, inv data → inv (queue.put (update selects set (queue.rows data)) data)) :
    Ensures (SeesOnly inv) (claim queue ready le set limit) fun _ => True := by
  have rows : Ensures (SeesOnly inv) (claimRows queue ready le set limit) fun _ => True := by
    refine ensuresBind (querySees _) fun found _ => ?_
    split
    · exact ensuresBind commitSees fun _ _ => ensuresPure trivial
    · refine ensuresBind (executeSees fun data _ after holds taken => ?_) fun _ _ =>
        ensuresBind (querySees _) fun _ _ => ensuresBind commitSees fun _ _ => ensuresPure trivial
      cases taken
      exact kept data _ holds
  have asked : Ensures (SeesOnly inv) (inspect (·.opened.isSome) : Call Bool) fun _ => True := ensuresInspect fun _ _ => trivial
  have ended : Ensures (SeesOnly inv) commitOpen fun _ => True := by
    refine ensuresBind asked fun busy _ => ?_
    split
    · exact commitSees
    · exact ensuresPure trivial
  exact ensuresBind ended fun _ _ => ensuresBind beginImmediateSees fun _ _ => rollingBackSees rows

end

theorem performHolds (item : WorkItem) (operation : Operation) :
    Ensures (SeesOnly (Holds item)) (perform operation) fun _ => True := by
  have changes {selects : WorkItem → Bool} {set : WorkItem → WorkItem} (same : ∀ row, identity (set row) = identity row) (data)
      (holds : Holds item data) : Holds item (workItems.put (update selects set (workItems.rows data)) data) :=
    holdsSame (updateIdentities same data.workItems) holds
  have repairs (rows : List RepairItem) (data) (holds : Holds item data) : Holds item (Repair.repairs.put rows data) := by
    have same : identities (Repair.repairs.put rows data) = identities data := rfl
    exact holdsSame same holds
  cases operation with
  | enqueueUnique request => exact ensuresBind ensuresObserve fun _ _ => enqueueKeeps fun data => insertHolds
  | claimBatch familyKey lane lease limit workspaceId =>
    show Ensures _ (claimBatch familyKey lane lease limit workspaceId) _
    unfold claimBatch
    split
    · exact ensuresRaise _
    · exact claimKeeps fun data selects => @changes selects (leased lease) (fun _ => rfl) data
  | claimCompatibleBatch familyKeys lane lease limit workspaceId =>
    show Ensures _ (claimCompatibleBatch familyKeys lane lease limit workspaceId) _
    unfold claimCompatibleBatch
    dsimp only
    split
    · exact ensuresRaise _
    · split
      · exact ensuresRaise _
      · exact claimKeeps fun data selects => @changes selects (leased lease) (fun _ => rfl) data
  | heartbeatItem itemId lease => exact changeKeeps (changes fun _ => rfl)
  | completeItem itemId now => exact changeKeeps (changes fun _ => rfl)
  | deferItem itemId error retryDelaySeconds now => exact changeKeeps (changes fun _ => rfl)
  | releaseItem itemId now => exact changeKeeps (changes fun _ => rfl)
  | enqueueRepair request => exact ensuresBind ensuresObserve fun _ _ => enqueueKeeps fun data holds _ => repairs _ data holds
  | claimRepairs lease limit workspaceId =>
    show Ensures _ (Repair.claimBatch lease limit workspaceId) _
    unfold Repair.claimBatch
    split
    · exact ensuresRaise _
    · exact claimKeeps fun data selects => repairs _ data
  | completeRepair itemId now => exact changeKeeps fun data => repairs _ data
  | releaseRepair itemId now error => exact changeKeeps fun data => repairs _ data
  | pruneRepairs olderThanSeconds now limit =>
    show Ensures _ (Repair.pruneCompleted olderThanSeconds now limit) _
    unfold Repair.pruneCompleted
    split
    · exact ensuresPure trivial
    · refine ensuresBind (querySees _) fun found _ => ?_
      split
      · exact ensuresPure trivial
      · refine ensuresBind (executeSees fun data _ after holds taken => ?_) fun _ _ =>
          ensuresBind commitSees fun _ _ => ensuresPure trivial
        cases taken
        exact repairs _ data holds

/- Over every run of operations, whatever fails in it. -/
theorem usesHolds {item : WorkItem} {connection : Connection Queues} (operations : List Use)
    (holds : SeesOnly (Holds item) connection) : SeesOnly (Holds item) (uses connection operations) := by
  induction operations generalizing connection with
  | nil => exact holds
  | cons use rest ih => exact ih ((performHolds item use.operation use.oracle ⟨connection,0⟩ holds).1)

/- A request, where nothing fails around it. -/

def hasKey (key : String) (item : WorkItem) : Bool := item.idempotencyKey == some key

/- The row of a key is the one that is looked up by it. -/
theorem holdsFound {item : WorkItem} {data : Queues} {key : String} (holds : Holds item data) (keyed : item.idempotencyKey = some key) :
    ∃ row, data.workItems.find? (hasKey key) = some row ∧ identity row = identity item := by
  obtain ⟨row,there,same⟩ := List.mem_map.mp holds.stored
  have named : row.idempotencyKey = some key := (congrArg (·.2.1) same).trans keyed
  cases found : data.workItems.find? (hasKey key) with
  | none =>
    have apart := List.find?_eq_none.mp found row there
    simp [hasKey,named] at apart
  | some other =>
    have chosen : other.idempotencyKey = some key := eq_of_beq (List.find?_some found :)
    have one := uniqueRow holds.unique (List.mem_of_find?_eq_some found) there (by simp [workItems,named,chosen])
    exact ⟨other,rfl,one ▸ same⟩

/- A row of its id is the row. -/
theorem holdsRow {item row : WorkItem} {data : Queues} (holds : Holds item data) (there : row ∈ data.workItems)
    (named : row.id = item.id) : identity row = identity item := by
  obtain ⟨other,member,same⟩ := List.mem_map.mp holds.stored
  have id : other.id = item.id := congrArg (·.1) same
  have one := uniqueRow holds.unique there member (by simp [workItems,named,id])
  exact one ▸ same

section
variable {oracle : Oracle StoreError} {session after : Session (Connection Queues)} {item existing record : WorkItem}
variable {found : WorkItem → Bool} (quiet : Quiet oracle)
include quiet

theorem insertRefused (clash : session.data.seen.workItems.any (workItems.clashes item) = true) :
    ∃ middle, inserted workItems item oracle session = (.error (.integrity workItems.constraint),middle) ∧
      middle.data.seen = session.data.seen := by
  obtain ⟨middle,refused,same⟩ : ∃ middle, insert workItems item oracle session = (.error (.integrity workItems.constraint),middle) ∧
      middle.data.seen = session.data.seen := executeRefused quiet (if_pos clash)
  refine ⟨middle,?_,same⟩
  rw [inserted,bindRuns,refused]

theorem insertTaken (fits : session.data.seen.workItems.any (workItems.clashes item) = false) :
    ∃ moment, inserted workItems item oracle session =
      (.ok none,⟨⟨workItems.put (session.data.seen.workItems ++ [item]) session.data.seen,none⟩,moment⟩) := by
  obtain ⟨middle,taken,same⟩ : ∃ middle, insert workItems item oracle session = (.ok (),middle) ∧
      middle.data.seen = workItems.put (session.data.seen.workItems ++ [item]) session.data.seen :=
    executeTaken quiet (if_neg (Bool.eq_false_iff.mp fits))
  refine ⟨middle.moment + 1,?_⟩
  rw [inserted,bindRuns,taken]
  dsimp only
  rw [bindRuns,commitQuiet quiet,same]
  rfl

theorem enqueueFound (clash : session.data.seen.workItems.any (workItems.clashes item) = true)
    (there : session.data.seen.workItems.find? found = some existing) :
    ∃ after, enqueue workItems item found oracle session = (.ok (existing,false),after) ∧
      after.data.seen = session.data.seen := by
  obtain ⟨middle,refused,same⟩ := insertRefused quiet clash
  have answered : instead workItems found (.integrity workItems.constraint) oracle middle =
      (.ok (some existing),⟨middle.data,middle.moment + 1⟩) := by
    have read : (workItems.rows session.data.seen).find? found = some existing := there
    rw [instead,bindRuns,queryQuiet quiet,same,read]
    rfl
  refine ⟨⟨middle.data,middle.moment + 1⟩,?_,same⟩
  rw [enqueue,bindRuns,handling,refused]
  dsimp only
  rw [answered]
  rfl

theorem enqueueMissing (clash : session.data.seen.workItems.any (workItems.clashes item) = true)
    (absent : session.data.seen.workItems.find? found = none) :
    ∃ error, (enqueue workItems item found oracle session).1 = .error error := by
  obtain ⟨middle,refused,same⟩ := insertRefused quiet clash
  have answered : (instead workItems found (.integrity workItems.constraint) oracle middle) =
      (.error (.integrity workItems.constraint),⟨middle.data,middle.moment + 1⟩) := by
    have read : (workItems.rows session.data.seen).find? found = none := absent
    rw [instead,bindRuns,queryQuiet quiet,same,read]
    rfl
  refine ⟨.integrity workItems.constraint,?_⟩
  rw [enqueue,bindRuns,handling,refused]
  dsimp only
  rw [answered]

theorem getItemFound {itemId : String} (there : (workItems.rows session.data.seen).find? (workItems.id · == itemId) = some item) :
    getItem workItems itemId oracle session = (.ok item,⟨session.data,session.moment + 1⟩) := by
  rw [getItem,bindRuns,queryQuiet quiet,there]
  rfl

theorem enqueueFresh (fits : session.data.seen.workItems.any (workItems.clashes item) = false) :
    ∃ moment, enqueue workItems item found oracle session =
      (.ok (item,true),⟨⟨workItems.put (session.data.seen.workItems ++ [item]) session.data.seen,none⟩,moment⟩) := by
  obtain ⟨moment,taken⟩ := insertTaken quiet fits
  have read : (session.data.seen.workItems ++ [item]).find? (·.id == item.id) = some item := by
    have apart : session.data.seen.workItems.find? (·.id == item.id) = none := by
      refine List.find?_eq_none.mpr fun row member same => ?_
      have clear := List.any_eq_false.mp fits row member
      unfold workItems at clear
      simp [eq_of_beq same] at clear
    rw [List.find?_append,apart]
    simp
  have stored : getItem workItems (workItems.id item) oracle
      ⟨⟨workItems.put (session.data.seen.workItems ++ [item]) session.data.seen,none⟩,moment⟩ =
      (.ok item,⟨⟨workItems.put (session.data.seen.workItems ++ [item]) session.data.seen,none⟩,moment + 1⟩) :=
    getItemFound quiet read
  refine ⟨moment + 1,?_⟩
  rw [enqueue,bindRuns,handling,taken]
  dsimp only
  rw [reported,bindRuns,stored]
  rfl

end

/- `enqueue_unique` with a key. -/

section
variable {oracle : Oracle StoreError} {session : Session (Connection Queues)} {request : WorkRequest} {key : String}
variable {existing record : WorkItem} (quiet : Quiet oracle) (given : request.idempotencyKey = some key)
include quiet given

omit quiet in
theorem enqueueUniqueRuns : enqueueUnique request oracle session = enqueue workItems (newItem (oracle session.moment) request)
    (hasKey key) oracle ⟨session.data,session.moment + 1⟩ := by
  have same : (fun item : WorkItem => request.idempotencyKey.isSome && item.idempotencyKey == request.idempotencyKey) = hasKey key := by
    funext item
    rw [given]
    rfl
  show enqueue workItems _ _ oracle _ = _
  rw [same]

theorem enqueueUniqueFound (there : session.data.seen.workItems.find? (hasKey key) = some existing) :
    ∃ after, enqueueUnique request oracle session = (.ok (existing,false),after) ∧ after.data.seen = session.data.seen := by
  rw [enqueueUniqueRuns given]
  refine enqueueFound quiet ?_ there
  refine List.any_eq_true.mpr ⟨existing,List.mem_of_find?_eq_some there,?_⟩
  have held : existing.idempotencyKey = some key := by
    have chosen := List.find?_some there
    exact eq_of_beq chosen
  simp [workItems,newItem,given,held]

/- Either the key is there, or the item is new. -/
theorem enqueueUniqueOk {created : Bool} {after} (ran : enqueueUnique request oracle session = (.ok (record,created),after)) :
    created = false ∧ session.data.seen.workItems.find? (hasKey key) = some record ∨
    created = true ∧ session.data.seen.workItems.any (workItems.clashes record) = false ∧
      record = newItem (oracle session.moment) request ∧
      after.data = ⟨workItems.put (session.data.seen.workItems ++ [record]) session.data.seen,none⟩ := by
  cases found : session.data.seen.workItems.find? (hasKey key) with
  | some existing =>
    obtain ⟨_,again,_⟩ := enqueueUniqueFound quiet given found
    rw [again] at ran
    cases ran
    exact .inl ⟨rfl,rfl⟩
  | none =>
    rw [enqueueUniqueRuns given] at ran
    cases clash : session.data.seen.workItems.any (workItems.clashes (newItem (oracle session.moment) request)) with
    | true =>
      obtain ⟨error,failed⟩ := @enqueueMissing oracle ⟨session.data,session.moment + 1⟩ _ _ quiet clash found
      rw [ran] at failed
      cases failed
    | false =>
      obtain ⟨moment,again⟩ := @enqueueFresh oracle ⟨session.data,session.moment + 1⟩ _ (hasKey key) quiet clash
      rw [again] at ran
      cases ran
      exact .inr ⟨rfl,clash,rfl,rfl⟩

end

end McpMemory.Work
