import McpMemory.Work.Uniqueness

/-! The leases of the work items, over every run of the operations of the two queues and whatever fails in it.
The store does not ask who completes, defers or releases an item that runs. What it keeps is that a claim takes
no item whose lease is live, and that a completed item stays. -/
namespace McpMemory.Work
open Table Transaction Connection

/- A lease is held, and has an end, just while an item runs. -/
structure Standing (item : WorkItem) : Prop where
  owner : item.leaseOwner.isSome ↔ item.status = "running"
  ends : item.leaseExpiresAt.isSome ↔ item.status = "running"

/- The items that are held are there as they are. -/
structure Kept (held : WorkItem → Prop) (data : Queues) : Prop where
  unique : Unique data
  standing : ∀ item ∈ data.workItems, Standing item
  there : ∀ item, held item → item ∈ data.workItems

/- What an operation has no right to: a claim to what is not ready, and what asks for a running item to any other. -/
def Spares (item : WorkItem) : Operation → Prop
  | .claimBatch familyKey lane lease _ workspaceId => isReady [familyKey] lane workspaceId lease.now item = false
  | .claimCompatibleBatch familyKeys lane lease _ workspaceId =>
    isReady (familyKeys.filter (· != "")) lane workspaceId lease.now item = false
  | .heartbeatItem itemId lease => (isRunning itemId item && item.leaseOwner == some lease.owner) = false
  | .completeItem itemId _ | .deferItem itemId _ _ _ | .releaseItem itemId _ => isRunning itemId item = false
  | _ => True

theorem standingLeased (lease : Lease) (item : WorkItem) : Standing (leased lease item) := ⟨by simp [leased],by simp [leased]⟩

theorem standingIdle {item : WorkItem} (idle : item.status ≠ "running") (owner : item.leaseOwner = none)
    (ends : item.leaseExpiresAt = none) : Standing item :=
  ⟨by simpa [owner] using idle,by simpa [ends] using idle⟩

section
variable {held : WorkItem → Prop} {data : Queues}

theorem keptUpdate {selects : WorkItem → Bool} {set : WorkItem → WorkItem} (same : ∀ row, identity (set row) = identity row)
    (stands : ∀ row, selects row → Standing row → Standing (set row)) (spared : ∀ item, held item → selects item = false)
    (kept : Kept held data) : Kept held (workItems.put (update selects set (workItems.rows data)) data) where
  unique := by
    have identical : identities (workItems.put (update selects set (workItems.rows data)) data) = identities data :=
      updateIdentities same data.workItems
    rw [uniqueIdentities,identical]
    exact uniqueIdentities.mp kept.unique
  standing item member := by
    obtain ⟨row,there,rfl⟩ := memUpdate.mp member
    split
    · exact stands row ‹_› (kept.standing row there)
    · exact kept.standing row there
  there item stays := memUpdate.mpr ⟨item,kept.there item stays,by rw [spared item stays]; rfl⟩

theorem keptInsert {row : WorkItem} (stands : Standing row) (kept : Kept held data)
    (fits : (workItems.rows data).any (workItems.clashes row) = false) :
    Kept held (workItems.put (workItems.rows data ++ [row]) data) where
  unique := insertUnique kept.unique fits
  standing := List.forall_mem_append.mpr ⟨kept.standing,List.forall_mem_singleton.mpr stands⟩
  there item stays := List.mem_append_left _ (kept.there item stays)

theorem keptRow {item row : WorkItem} (kept : Kept held data) (stays : held item) (there : row ∈ data.workItems)
    (named : row.id = item.id) : row = item :=
  uniqueRow kept.unique there (kept.there item stays) (by simp [workItems,named])

def Apart (held : WorkItem → Prop) (found : List WorkItem) : Prop := ∀ item, held item → item.id ∉ found.map (·.id)

/- A claim takes what was ready when it looked, and writes in the same transaction. -/
theorem claimSpares {ready : WorkItem → Bool} {le : WorkItem → WorkItem → Bool} {lease : Lease} {limit : Nat}
    (spared : ∀ item, held item → ready item = false) :
    Ensures (SeesOnly (Kept held)) (claim workItems ready le (leased lease) limit) (Apart held) := by
  have unread (data) (kept : Kept held data) :
      Apart held ((((workItems.rows data).filter ready).insertionSort (le · ·)).take limit) := by
    intro item stays listed
    obtain ⟨row,taken,named⟩ := List.mem_map.mp listed
    have chosen := List.mem_of_mem_take taken
    rw [List.mem_insertionSort,List.mem_filter] at chosen
    obtain rfl := keptRow kept stays chosen.1 named
    rw [spared row stays] at chosen
    cases chosen.2
  have rows : Ensures (SeesOnly (Kept held)) (claimRows workItems ready le (leased lease) limit) (Apart held) := by
    refine ensuresBind (queryTells unread) fun found apart => ?_
    split
    · exact ensuresBind commitSees fun _ _ => ensuresPure fun item _ listed => by cases listed
    · refine ensuresBind (executeSees fun data _ after kept taken => ?_) fun _ _ => ensuresBind (queryTells fun data _ => ?_)
        fun claimed told => ensuresBind commitSees fun _ _ => ensuresPure told
      · cases taken
        refine keptUpdate (fun _ => rfl) (fun row _ _ => standingLeased lease row) (fun item stays => ?_) kept
        simpa [workItems] using apart item stays
      · intro item stays listed
        obtain ⟨row,claimed,named⟩ := List.mem_map.mp listed
        rw [List.mem_insertionSort,List.mem_filter,List.contains_iff_mem] at claimed
        exact apart item stays (named ▸ claimed.2)
  have asked : Ensures (SeesOnly (Kept held)) (inspect (·.opened.isSome) : Call Bool) fun _ => True :=
    ensuresInspect fun _ _ => trivial
  have ended : Ensures (SeesOnly (Kept held)) commitOpen fun _ => True := by
    refine ensuresBind asked fun busy _ => ?_
    split
    · exact commitSees
    · exact ensuresPure trivial
  exact ensuresBind ended fun _ _ => ensuresBind beginImmediateSees fun _ _ => rollingBackSees rows

/- What a reply hands out. -/
def Claims (itemId : String) : (operation : Operation) → Answer operation → Prop
  | .claimBatch ..,items | .claimCompatibleBatch ..,items => itemId ∈ items.map (·.id)
  | _,_ => False

theorem performKept (operation : Operation) (spared : ∀ item, held item → Spares item operation) :
    Ensures (SeesOnly (Kept held)) (perform operation) fun reply => ∀ item, held item → ¬ Claims item.id operation reply := by
  have aside {α : Type} {x : Call α} (kept : Ensures (SeesOnly (Kept held)) x fun _ => True) :
      Ensures (SeesOnly (Kept held)) x fun _ => ∀ item, held item → ¬ False := ensuresMono kept fun _ _ _ _ => id
  have idle {itemId : String} {selects : WorkItem → Bool} {set : WorkItem → WorkItem} {missing : StoreError}
      (same : ∀ row, identity (set row) = identity row) (stands : ∀ row, Standing (set row))
      (spared : ∀ item, held item → selects item = false) :
      Ensures (SeesOnly (Kept held)) (change workItems itemId selects set missing) fun _ => True :=
    changeKeeps fun _ => keptUpdate same (fun row _ _ => stands row) spared
  have repairs (rows : List RepairItem) (data) (kept : Kept held data) : Kept held (Repair.repairs.put rows data) :=
    ⟨kept.unique,kept.standing,kept.there⟩
  cases operation with
  | enqueueUnique request =>
    exact aside (ensuresBind ensuresObserve fun now _ => enqueueKeeps fun data =>
      keptInsert (standingIdle (by simp [newItem]) rfl rfl))
  | claimBatch familyKey lane lease limit workspaceId =>
    show Ensures _ (claimBatch familyKey lane lease limit workspaceId) (Apart held)
    unfold claimBatch
    split
    · exact ensuresRaise _
    · exact claimSpares spared
  | claimCompatibleBatch familyKeys lane lease limit workspaceId =>
    show Ensures _ (claimCompatibleBatch familyKeys lane lease limit workspaceId) (Apart held)
    unfold claimCompatibleBatch
    dsimp only
    split
    · exact ensuresRaise _
    · split
      · exact ensuresRaise _
      · exact claimSpares spared
  | heartbeatItem itemId lease =>
    refine aside (changeKeeps fun data => keptUpdate (fun _ => rfl) (fun row chosen standing => ⟨standing.owner,?_⟩) spared)
    simp only [isRunning,Bool.and_eq_true,beq_iff_eq] at chosen
    exact iff_of_true rfl chosen.1.2
  | completeItem itemId now => exact aside (idle (fun _ => rfl) (fun _ => standingIdle (by simp) rfl rfl) spared)
  | deferItem itemId error retryDelaySeconds now => exact aside (idle (fun _ => rfl) (fun _ => standingIdle (by simp) rfl rfl) spared)
  | releaseItem itemId now => exact aside (idle (fun _ => rfl) (fun _ => standingIdle (by simp) rfl rfl) spared)
  | enqueueRepair request =>
    exact aside (ensuresBind ensuresObserve fun _ _ => enqueueKeeps fun data kept _ => repairs _ data kept)
  | claimRepairs lease limit workspaceId =>
    show Ensures _ (Repair.claimBatch lease limit workspaceId) _
    unfold Repair.claimBatch
    split
    · exact ensuresRaise _
    · exact aside (claimKeeps fun data selects => repairs _ data)
  | completeRepair itemId now => exact aside (changeKeeps fun data => repairs _ data)
  | releaseRepair itemId now error => exact aside (changeKeeps fun data => repairs _ data)
  | pruneRepairs olderThanSeconds now limit =>
    refine aside ?_
    show Ensures _ (Repair.pruneCompleted olderThanSeconds now limit) _
    unfold Repair.pruneCompleted
    split
    · exact ensuresPure trivial
    · refine ensuresBind (querySees _) fun found _ => ?_
      split
      · exact ensuresPure trivial
      · refine ensuresBind (executeSees fun data _ after kept taken => ?_) fun _ _ =>
          ensuresBind commitSees fun _ _ => ensuresPure trivial
        cases taken
        exact repairs _ data kept

end

/- Who leaves an item alone that runs until `ends`: a claim before that, and what is not for its id or its owner. -/
def Leaves (item : WorkItem) (ends : Int) : Operation → Prop
  | .claimBatch _ _ lease _ _ | .claimCompatibleBatch _ _ lease _ _ => lease.now < ends
  | .heartbeatItem itemId lease => item.id = itemId → item.leaseOwner ≠ some lease.owner
  | .completeItem itemId _ | .deferItem itemId _ _ _ | .releaseItem itemId _ => item.id ≠ itemId
  | _ => True

/- It is completed, or it runs and is left alone as long as its lease is live. -/
inductive Secure (operations : List Use) (item : WorkItem) : Prop
  | completed (completed : item.status = "completed")
  | live (ends : Int) (running : item.status = "running") (expires : item.leaseExpiresAt = some ends)
      (leaves : ∀ use ∈ operations, Leaves item ends use.operation)

theorem notReady {item : WorkItem} {families : List String} {lane : String} {workspaceId : Option String} {now ends : Int}
    (running : item.status = "running") (live : item.leaseExpiresAt = some ends) (early : now < ends) :
    isReady families lane workspaceId now item = false := by
  have before : ¬ ends ≤ now := Int.not_le.mpr early
  simp [isReady,isExpired,running,live,before]

theorem secureSpared {item : WorkItem} {operations : List Use} {use : Use} (secure : Secure operations item)
    (member : use ∈ operations) : Spares item use.operation := by
  cases secure with
  | completed completed => cases use.operation <;> simp [Spares,isReady,isExpired,isRunning,completed]
  | live ends running expires leaves =>
    have left := leaves use member
    have other {itemId : String} (apart : item.id ≠ itemId) : isRunning itemId item = false := by simp [isRunning,apart]
    cases called : use.operation <;> rw [called] at left
    case claimBatch => exact notReady running expires left
    case claimCompatibleBatch => exact notReady running expires left
    case heartbeatItem itemId lease =>
      show (isRunning itemId item && item.leaseOwner == some lease.owner) = false
      by_cases named : item.id = itemId
      · simp [left named]
      · rw [other named]
        rfl
    case completeItem => exact other left
    case deferItem => exact other left
    case releaseItem => exact other left
    all_goals trivial

theorem usesKept {held : WorkItem → Prop} {connection : Connection Queues} (operations : List Use)
    (spared : ∀ use ∈ operations, ∀ item, held item → Spares item use.operation) (kept : SeesOnly (Kept held) connection) :
    SeesOnly (Kept held) (uses connection operations) := by
  induction operations generalizing connection with
  | nil => exact kept
  | cons use rest ih =>
    obtain ⟨first,later⟩ := List.forall_mem_cons.mp spared
    exact ih later (performKept use.operation first use.oracle ⟨connection,0⟩ kept).1

/- What asks for an item that runs under this id. -/
def AsksFor (itemId : String) : Operation → Prop
  | .heartbeatItem asked _ | .completeItem asked _ | .deferItem asked _ _ _ | .releaseItem asked _ => asked = itemId
  | _ => False

theorem changeRefused {held : WorkItem → Prop} {item reply : WorkItem} {selects : WorkItem → Bool} {set : WorkItem → WorkItem}
    {missing : StoreError} {oracle : Oracle StoreError} {connection : Connection Queues} (stays : held item)
    (completed : item.status = "completed") (chosen : ∀ row, selects row → isRunning item.id row)
    (kept : SeesOnly (Kept held) connection) : (change workItems item.id selects set missing oracle ⟨connection,0⟩).1 ≠ .ok reply := by
  intro ran
  obtain ⟨_,_,changed,_⟩ := bindOk.mp (Prod.ext ran rfl)
  obtain ⟨rowcount,_,wrote,ended⟩ := bindOk.mp changed
  have taken := executeSeen wrote
  have counted : connection.seen.workItems.countP selects = rowcount := (Prod.mk.inj (Except.ok.inj taken)).1
  have none : connection.seen.workItems.countP selects = 0 := by
    refine List.countP_eq_zero.mpr fun row there selected => ?_
    have running := chosen row selected
    simp only [isRunning,Bool.and_eq_true,beq_iff_eq] at running
    rw [keptRow (seesSeen kept) stays there running.1,completed] at running
    simp at running
  rw [← counted,none] at ended
  obtain ⟨_,_,_,raised⟩ := bindOk.mp ended
  exact raiseOk raised

theorem completedRefused {held : WorkItem → Prop} {item : WorkItem} {connection : Connection Queues} {use : Use} (stays : held item)
    (completed : item.status = "completed") (kept : SeesOnly (Kept held) connection) {reply : Answer use.operation}
    (ran : (use.reply connection).1 = .ok reply) : ¬ AsksFor item.id use.operation := by
  obtain ⟨operation,oracle⟩ := use
  intro asks
  cases operation with
  | heartbeatItem itemId lease =>
    cases asks
    exact changeRefused stays completed (fun row both => (Bool.and_eq_true_iff.mp both).1) kept ran
  | completeItem itemId now =>
    cases asks
    exact changeRefused stays completed (fun _ running => running) kept ran
  | deferItem itemId error retryDelaySeconds now =>
    cases asks
    exact changeRefused stays completed (fun _ running => running) kept ran
  | releaseItem itemId now =>
    cases asks
    exact changeRefused stays completed (fun _ running => running) kept ran
  | _ => cases asks

/- Over every run, whatever fails in it: a lease is held just while an item runs; what is secure stays as it is and
is handed out to nobody; and who asks for an item that is completed is refused. -/
theorem leasesHeld (held : WorkItem → Prop) (operations : List Use) {connection : Connection Queues}
    (kept : SeesOnly (Kept held) connection) (secure : ∀ item, held item → Secure operations item) :
    SeesOnly (Kept held) (uses connection operations) ∧
    ∀ first use rest, operations = first ++ use :: rest → ∀ reply, (use.reply (uses connection first)).1 = .ok reply →
      ∀ item, held item → ¬ Claims item.id use.operation reply ∧
        (item.status = "completed" → ¬ AsksFor item.id use.operation) := by
  have spared : ∀ use ∈ operations, ∀ item, held item → Spares item use.operation :=
    fun use member item stays => secureSpared (secure item stays) member
  refine ⟨usesKept operations spared kept,fun first use rest whole reply ran item stays => ?_⟩
  subst whole
  have before : SeesOnly (Kept held) (uses connection first) :=
    usesKept first (fun use member => spared use (List.mem_append_left _ member)) kept
  have here := spared use (List.mem_append_right _ List.mem_cons_self)
  exact ⟨(performKept use.operation here use.oracle ⟨uses connection first,0⟩ before).2 reply ran item stays,
    fun completed => completedRefused stays completed before ran⟩

/- A worker has a lease to 100, and another asks at 50 for what there is; an item is completed twice. -/

def freshRow (itemId : String) : WorkItem := newItem ⟨none,itemId,"",0⟩ ⟨"reflection","agentic","\x7b\x7d",none,0,none,none⟩

def busyRow : WorkItem := leased ⟨"one",0,100⟩ (freshRow "busy")

def doneRow : WorkItem := { freshRow "done" with status := "completed" }

def rival : Use := ⟨.claimBatch "reflection" "agentic" ⟨"two",50,100⟩ 8 none,fun _ => ⟨none,"new","",50⟩⟩

def again : Use := ⟨.completeItem "done" 60,fun _ => ⟨none,"new","",60⟩⟩

def workers : Connection Queues := ⟨⟨[busyRow,doneRow],[]⟩,none⟩

theorem leasesHeldSample : busyRow ∈ (uses workers [rival,again]).committed.workItems ∧
    ∀ reply, (again.reply (uses workers [rival])).1 ≠ .ok reply := by
  have kept : SeesOnly (Kept (· ∈ [busyRow,doneRow])) workers := by
    refine ⟨⟨?_,?_,fun item stays => stays⟩,nofun⟩
    · exact .cons (by decide) (List.pairwise_singleton _ _)
    · refine List.forall_mem_cons.mpr ⟨standingLeased _ _,List.forall_mem_singleton.mpr ?_⟩
      exact standingIdle (by decide) rfl rfl
  have secure : ∀ item, item ∈ [busyRow,doneRow] → Secure [rival,again] item := by
    refine List.forall_mem_cons.mpr ⟨.live 100 rfl rfl ?_,List.forall_mem_singleton.mpr (.completed rfl)⟩
    refine List.forall_mem_cons.mpr ⟨?_,List.forall_mem_singleton.mpr ?_⟩
    · show (50 : Int) < 100
      decide
    · show busyRow.id ≠ "done"
      decide
  obtain ⟨after,during⟩ := leasesHeld _ [rival,again] kept secure
  refine ⟨after.1.there busyRow List.mem_cons_self,fun reply ran => ?_⟩
  exact (during [rival] again [] rfl reply ran doneRow (List.mem_cons_of_mem _ List.mem_cons_self)).2 rfl rfl

end McpMemory.Work
