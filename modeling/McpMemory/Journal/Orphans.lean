import McpMemory.Journal.Claims
import McpMemory.Tasks.Calls

/-! `release_orphaned_claims` beside a task queue, the same two statements in SQLite and in
PostgreSQL: the claims of tasks that do not run are selected, and what is claimed of the selected
ids is released by a later statement, whoever claims it by then. -/
namespace McpMemory.Journal
open Interleave Table

/- Any task queue will do: its machine, and the tasks that its table shows as running. -/
variable {ι κ τ ω : Type} (queue : Machine ι κ τ ω) (running : τ → String → Bool)

structure Deployment (τ : Type) where
  tasks : τ
  journal : Store

/- `claim_pending` in PostgreSQL: `FOR UPDATE SKIP LOCKED` passes over the rows that another
transaction has locked, and the rows it takes stay locked up to the update. -/
structure SkippingClaim where
  locked : Entry → Bool
  taskId : String
  limit : Int
  workspace : Workspace
  now : Int

def SkippingClaim.rows (claim : SkippingClaim) (store : Store) : List Entry :=
  (oldestFirst (store.entries.filter fun entry => entry.status == .pending &&
    claim.workspace.selects entry.workspaceId && !claim.locked entry)).take claim.limit.toNat

def SkippingClaim.run (claim : SkippingClaim) (store : Store) : Except JournalError (List Entry × Store) :=
  let rows := claim.rows store
  let ids := rows.map (·.id)
  if Text.strip claim.taskId = "" then .error (.valueError "task_id is required")
  else if claim.limit < 0 then .error (.runtimeError "LIMIT must not be negative")
  else if rows.isEmpty then .ok ([],store)
  else if store.entries.countP (isPendingIn ids) = ids.length then
    .ok (rows,{ store with entries := update (isPendingIn ids) (claimSet claim.taskId claim.now) store.entries })
  else .error (.runtimeError "failed to claim journal entries atomically")

inductive Request (ι : Type) where
  | task (op : ι)
  | journal (op : Op)
  | claimSkipping (claim : SkippingClaim)

inductive Client (κ : Type) where
  | task (call : κ)
  | journal (call : Call)
  | claimSkipping (claim : SkippingClaim)

/- The subquery on `tasks` is part of the statement. -/
def Call.asking (running : String → Bool) : Call → Call
  | .releaseOrphanedClaims _ => .releaseOrphanedClaims running
  | call => call

def SkippingClaim.step (claim : SkippingClaim) (store : Store) : After :=
  match claim.run store with
  | .error error => (.answered (.error error),store,[])
  | .ok (rows,after) => answer (.entries (rows.map fun row => { row with status := .claimed })) after

def Client.step (client : Client κ) (s : Deployment τ) : Client κ × Deployment τ × List (ω ⊕ Emitted) :=
  match client with
  | .task call =>
    let after := queue.step call s.tasks
    (.task after.1,{ s with tasks := after.2.1 },after.2.2.map .inl)
  | .journal call =>
    let after := Journal.step (call.asking (running s.tasks)) s.journal
    (.journal after.1,{ s with journal := after.2.1 },after.2.2.map .inr)
  | .claimSkipping claim =>
    let after := claim.step s.journal
    (.journal after.1,{ s with journal := after.2.1 },after.2.2.map .inr)

def Request.client : Request ι → Client κ
  | .task op => .task (queue.enter op)
  | .journal op => .journal (enter op)
  | .claimSkipping claim => .claimSkipping claim

def deployment : Machine (Request ι) (Client κ) (Deployment τ) (ω ⊕ Emitted) :=
  ⟨Request.client queue,Client.step queue running⟩

/- The ids that were selected as orphans and wait for their release. -/
def Client.chosen : Client κ → List Int
  | .journal (.releasingOrphans ids) => ids
  | _ => []

def awaiting (clients : List (Client κ)) : List Int := clients.flatMap Client.chosen

/- The claim of a running task. -/
def isLive (running : String → Bool) (entry : Entry) : Bool :=
  entry.status == .claimed && !isOrphan running entry

/- The task that a client is about to claim for, and the rows that it takes. -/
def Client.takes (client : Client κ) (store : Store) : Option (String × List Entry) :=
  match client with
  | .journal (.claimPending taskId limit workspace _) => some (taskId,pendingRows limit workspace store)
  | .claimSkipping claim => some (claim.taskId,claim.rows store)
  | _ => none

/- Between the two statements of a release no running task claims a selected entry, and no task
starts to run that holds one. -/
def Client.Undisturbed (w : World (Client κ) (Deployment τ) (ω ⊕ Emitted)) : Client κ → Prop
  | .task call => ∀ entry ∈ w.store.journal.entries, entry.id ∈ awaiting w.calls →
    isLive (running (queue.step call w.store.tasks).2.1) entry → isLive (running w.store.tasks) entry
  | client => ∀ taking ∈ client.takes w.store.journal, running w.store.tasks (Text.strip taking.1) →
    ∀ row ∈ taking.2, row.id ∉ awaiting w.calls

def Undisturbed (w : World (Client κ) (Deployment τ) (ω ⊕ Emitted)) : Event (Request ι) → Prop
  | .start _ => True
  | .advance index => ∀ client ∈ w.calls[index]?, client.Undisturbed queue running w

/- A release leaves every entry as it is that is not the claim of a task which does not run now. -/
def OrphansOnly (w : World (Client κ) (Deployment τ) (ω ⊕ Emitted)) : Event (Request ι) → Prop
  | .start _ => True
  | .advance index => ∀ client ∈ w.calls[index]?, ∀ ids, client = .journal (.releasingOrphans ids) →
    ∀ entry ∈ w.store.journal.entries, isOrphan (running w.store.tasks) entry = false →
      entry ∈ ((deployment queue running).next w (.advance index)).store.journal.entries

instance decideClient (w : World (Client κ) (Deployment τ) (ω ⊕ Emitted)) :
    (client : Client κ) → Decidable (client.Undisturbed queue running w)
  | .task call => inferInstanceAs (Decidable (∀ entry ∈ w.store.journal.entries, entry.id ∈ awaiting w.calls →
    isLive (running (queue.step call w.store.tasks).2.1) entry → isLive (running w.store.tasks) entry))
  | .journal call => inferInstanceAs (Decidable (∀ taking ∈ (Client.journal call : Client κ).takes w.store.journal,
    running w.store.tasks (Text.strip taking.1) → ∀ row ∈ taking.2, row.id ∉ awaiting w.calls))
  | .claimSkipping claim => inferInstanceAs (Decidable (∀ taking ∈ (Client.claimSkipping claim : Client κ).takes w.store.journal,
    running w.store.tasks (Text.strip taking.1) → ∀ row ∈ taking.2, row.id ∉ awaiting w.calls))

instance decideUndisturbed (w : World (Client κ) (Deployment τ) (ω ⊕ Emitted)) :
    (event : Event (Request ι)) → Decidable (Undisturbed queue running w event)
  | .start _ => .isTrue trivial
  | .advance index => inferInstanceAs (Decidable (∀ client ∈ w.calls[index]?, client.Undisturbed queue running w))

theorem claimSkippingSource {claim : SkippingClaim} {store rows after}
    (ok : claim.run store = .ok (rows,after)) :
    after = store ∨ rows = claim.rows store ∧ after = { store with
      entries := update (isPendingIn (rows.map (·.id))) (claimSet claim.taskId claim.now) store.entries } := by
  unfold SkippingClaim.run at ok
  dsimp only at ok
  split at ok
  · cases ok
  · split at ok
    · cases ok
    · split at ok
      · cases ok
        exact .inl rfl
      · split at ok <;> cases ok
        exact .inr ⟨rfl,rfl⟩

theorem memChosenSet {clients : List (Client κ)} {index : Nat} {client : Client κ} {entryId : Int}
    (member : entryId ∈ awaiting (clients.set index client)) : entryId ∈ awaiting clients ∨ entryId ∈ client.chosen := by
  obtain ⟨other,there,among⟩ := List.mem_flatMap.mp member
  rcases List.mem_or_eq_of_mem_set there with old | rfl
  · exact .inl (List.mem_flatMap.mpr ⟨other,old,among⟩)
  · exact .inr among

theorem orphanNotLive {alive : String → Bool} {entry : Entry} (orphan : isOrphan alive entry) :
    isLive alive entry = false := by
  simp [isLive,orphan]

theorem unclaimedNotLive {alive : String → Bool} {entry : Entry} (free : entry.status ≠ .claimed) :
    isLive alive entry = false := by
  simp [isLive,free]

theorem claimedLive {alive : String → Bool} {taskId now} {entry : Entry}
    (live : isLive alive (claimSet taskId now entry)) : alive (Text.strip taskId) := by
  simpa [isLive,claimSet,isOrphan] using live

/- A claim is live after one step of the journal where it was there before, or where it was just made
for a running task. -/
theorem rewrittenLive {alive : String → Bool} {selected : Entry → Bool} {set : Entry → Entry} {entries : List Entry} {later : Entry}
    (member : later ∈ update selected set entries) (live : isLive alive later) :
    later ∈ entries ∨ ∃ entry ∈ entries, selected entry ∧ later = set entry := by
  obtain ⟨entry,there,rfl⟩ := memUpdate.mp member
  by_cases hit : selected entry
  · exact .inr ⟨entry,there,hit,if_pos hit⟩
  · rw [if_neg hit]
    exact .inl there

/- What becomes live in a step of the journal was taken in it for a running task. -/
def Gains (alive : String → Bool) (client : Client κ) (before after : Store) : Prop :=
  ∀ later ∈ after.entries, isLive alive later → later ∈ before.entries ∨
    ∃ taking ∈ client.takes before, alive (Text.strip taking.1) ∧ ∃ row ∈ taking.2, row.id = later.id

section
variable {alive : String → Bool} {store : Store}

theorem gainsNone {client : Client κ} : Gains alive client store store := fun _ member _ => .inl member

theorem gainsUnclaimed {client : Client κ} {selected : Entry → Bool} {set : Entry → Entry}
    (free : ∀ entry, (set entry).status ≠ .claimed) :
    Gains alive client store { store with entries := update selected set store.entries } := by
  intro later member live
  rcases rewrittenLive member live with there | ⟨entry,_,_,rfl⟩
  · exact .inl there
  · rw [unclaimedNotLive (free entry)] at live
    cases live

theorem gainsClaimed {client : Client κ} {taskId : String} {rows : List Entry} {now : Int}
    (taking : (taskId,rows) ∈ client.takes store) : Gains alive client store { store with
      entries := update (isPendingIn (rows.map (·.id))) (claimSet taskId now) store.entries } := by
  intro later member live
  rcases rewrittenLive member live with there | ⟨entry,_,hit,rfl⟩
  · exact .inl there
  · simp only [isPendingIn,Bool.and_eq_true,List.contains_iff_mem,List.mem_map] at hit
    obtain ⟨⟨row,among,same⟩,_⟩ := hit
    exact .inr ⟨_,taking,claimedLive live,row,among,same⟩

theorem claimPendingRows {taskId limit workspace now rows after}
    (ok : claimPending taskId limit workspace now store = .ok (rows,after)) :
    after = store ∨ rows = pendingRows limit workspace store ∧ after = { store with
      entries := update (isPendingIn (rows.map (·.id))) (claimSet taskId now) store.entries } := by
  unfold claimPending at ok
  dsimp only at ok
  split at ok
  · cases ok
    exact .inl rfl
  · split at ok <;> cases ok
    exact .inr ⟨rfl,rfl⟩

theorem journalGains (call : Call) (asked : String → Bool) :
    Gains alive (.journal call : Client κ) store (Journal.step (call.asking asked) store).2.1 := by
  cases call with
  | record content workspaceId timestamp =>
    simp only [Call.asking,Journal.step]
    split
    · exact gainsNone
    · split <;> exact gainsNone
  | inserting content workspaceId timestamp =>
    intro later member live
    rcases List.mem_append.mp member with old | new
    · exact .inl old
    · rw [List.mem_singleton.mp new,unclaimedNotLive (by simp [newEntry])] at live
      cases live
  | claimPending taskId limit workspace now =>
    simp only [Call.asking,Journal.step]
    split
    · exact gainsNone
    · split
      · exact gainsNone
      · rename_i rows after ok
        rcases claimPendingRows ok with rfl | ⟨same,rfl⟩
        · exact gainsNone
        · exact gainsClaimed (same ▸ rfl)
  | unclaimAll u taskId => simp only [Call.asking,Journal.step]; split <;> exact gainsNone
  | unclaim u taskId entryIds => simp only [Call.asking,Journal.step]; split <;> exact gainsNone
  | unclaiming u taskId ids => exact gainsUnclaimed fun entry => by cases u <;> simp [Unclaim.set]
  | releaseOrphanedClaims _ => simp only [Call.asking,Journal.step]; split <;> exact gainsNone
  | releasingOrphans ids => exact gainsUnclaimed fun entry => by simp [Unclaim.set]
  | purgeExpiredRecoverable now => simp only [Call.asking,Journal.step]; split <;> exact gainsNone
  | purging ids => exact fun later member _ => .inl (List.mem_filter.mp member).1
  | mark m entryIds =>
    simp only [Call.asking,Journal.step]
    split
    · exact gainsNone
    · exact gainsUnclaimed fun entry => by cases m <;> simp [Mark.set]
  | answered => exact gainsNone

theorem skippingGains (claim : SkippingClaim) :
    Gains alive (.claimSkipping claim : Client κ) store (claim.step store).2.1 := by
  unfold SkippingClaim.step
  split
  · exact gainsNone
  · rename_i rows after ok
    rcases claimSkippingSource ok with rfl | ⟨same,rfl⟩
    · exact gainsNone
    · exact gainsClaimed (same ▸ rfl)

/- A release that begins has selected orphans, and has changed nothing yet. -/
theorem journalChosen {call : Call} {asked : String → Bool} {entryId : Int}
    (member : entryId ∈ (Client.journal (Journal.step (call.asking asked) store).1 : Client κ).chosen) :
    (Journal.step (call.asking asked) store).2.1 = store ∧ ∃ entry ∈ store.entries, isOrphan asked entry ∧ entry.id = entryId := by
  have idle {after : Call} (none : (Client.journal after : Client κ).chosen = [])
      (same : (Journal.step (call.asking asked) store).1 = after) : False := by
    rw [same,none] at member
    cases member
  cases call with
  | releaseOrphanedClaims _ =>
    simp only [Call.asking,Journal.step] at member ⊢
    split at member
    · cases member
    · rename_i some
      rw [if_neg some]
      obtain ⟨entry,among,same⟩ := List.mem_map.mp member
      rw [oldestFirst,List.mem_insertionSort,List.mem_filter] at among
      exact ⟨rfl,entry,among.1,among.2,same⟩
  | record content workspaceId timestamp =>
    simp only [Call.asking,Journal.step] at member
    split at member
    · cases member
    · split at member <;> cases member
  | claimPending taskId limit workspace now =>
    simp only [Call.asking,Journal.step] at member
    split at member
    · cases member
    · split at member <;> cases member
  | unclaimAll => simp only [Call.asking,Journal.step] at member; split at member <;> cases member
  | unclaim => simp only [Call.asking,Journal.step] at member; split at member <;> cases member
  | purgeExpiredRecoverable => simp only [Call.asking,Journal.step] at member; split at member <;> cases member
  | mark => simp only [Call.asking,Journal.step] at member; split at member <;> cases member
  | inserting | unclaiming | releasingOrphans | purging | answered => cases member

end

/- Ids are unique, and nothing that is selected for release is the claim of a running task. -/
structure Waits (w : World (Client κ) (Deployment τ) (ω ⊕ Emitted)) : Prop where
  unique : UniqueBy (·.id) w.store.journal.entries
  bounded : ∀ entry ∈ w.store.journal.entries, entry.id ≤ w.store.journal.sequence
  orphaned : ∀ entry ∈ w.store.journal.entries, entry.id ∈ awaiting w.calls → isLive (running w.store.tasks) entry = false

section
variable {queue running} {w : World (Client κ) (Deployment τ) (ω ⊕ Emitted)}

theorem waitsRelease (waits : Waits running w) (event : Event (Request ι)) : OrphansOnly queue running w event := by
  cases event with
  | start => trivial
  | advance index =>
    rintro _ found ids rfl entry member held
    rw [nextAdvance found]
    refine memUpdate.mpr ⟨entry,member,?_⟩
    have free : isClaimedAt ids entry = false := by
      by_contra hit
      simp only [Bool.not_eq_false,isClaimedAt,Bool.and_eq_true,List.contains_iff_mem] at hit
      have among : entry.id ∈ awaiting w.calls := List.mem_flatMap.mpr ⟨_,List.mem_of_getElem? found,hit.1⟩
      have quiet := waits.orphaned entry member among
      simp [isLive,hit.2,held] at quiet
    rw [free]
    rfl

/- The journal's half of a step. -/
theorem journalWaits {index : Nat} {client after : Client κ} {store : Store} {emitted : List (ω ⊕ Emitted)}
    (waits : Waits running w) (unique : UniqueBy (·.id) store.entries)
    (bounded : ∀ entry ∈ store.entries, entry.id ≤ store.sequence)
    (gains : Gains (running w.store.tasks) client w.store.journal store)
    (undisturbed : ∀ taking ∈ client.takes w.store.journal, running w.store.tasks (Text.strip taking.1) →
      ∀ row ∈ taking.2, row.id ∉ awaiting w.calls)
    (begins : ∀ entryId ∈ after.chosen, store = w.store.journal ∧
      ∃ entry ∈ w.store.journal.entries, isOrphan (running w.store.tasks) entry ∧ entry.id = entryId) :
    Waits running ⟨{ w.store with journal := store },w.calls.set index after,emitted⟩ where
  unique := unique
  bounded := bounded
  orphaned := by
    intro later member among
    rcases memChosenSet among with old | new
    · rw [Bool.eq_false_iff]
      intro live
      rcases gains later member live with there | ⟨taking,taken,alive,row,here,same⟩
      · exact absurd live (Bool.eq_false_iff.mp (waits.orphaned later there old))
      · exact undisturbed taking taken alive row here (same ▸ old)
    · obtain ⟨rfl,entry,there,orphan,same⟩ := begins _ new
      rw [equalOfKey waits.unique there member same] at orphan
      exact orphanNotLive orphan

theorem skippingChange (claim : SkippingClaim) (store : Store) :
    Change (.claimPending claim.taskId claim.limit claim.workspace claim.now) store (claim.step store).2.1 [] := by
  unfold SkippingClaim.step
  split
  · exact .quiet
  · rename_i rows after ok
    rcases claimSkippingSource ok with rfl | ⟨_,rfl⟩
    · exact .quiet
    · refine .rewrite (fun entry _ hit => claimRewrites hit) ?_ (fun _ none => by cases none)
      intro entry _ _ recoverable
      cases recoverable

theorem skippingChosen {claim : SkippingClaim} {store : Store} :
    (Client.journal (claim.step store).1 : Client κ).chosen = [] := by
  unfold SkippingClaim.step
  split <;> rfl

theorem requestChosen (request : Request ι) : (request.client queue).chosen = [] := by
  cases request with
  | task op => rfl
  | journal op => cases op <;> rfl
  | claimSkipping claim => rfl

theorem nextWaits {event : Event (Request ι)} (undisturbed : Undisturbed queue running w event) (waits : Waits running w) :
    Waits running ((deployment queue running).next w event) := by
  cases event with
  | start request =>
    refine ⟨waits.unique,waits.bounded,fun entry member among => waits.orphaned entry member ?_⟩
    simpa [nextStart,awaiting,deployment,requestChosen] using among
  | advance index =>
    cases found : w.calls[index]? with
    | none =>
      rw [nextIdle found]
      exact waits
    | some client =>
      rw [nextAdvance found]
      replace undisturbed := undisturbed client found
      cases client with
      | task call =>
        refine ⟨waits.unique,waits.bounded,fun entry member among => ?_⟩
        rcases memChosenSet among with old | new
        · rw [Bool.eq_false_iff]
          intro live
          exact absurd (undisturbed entry member old live) (Bool.eq_false_iff.mp (waits.orphaned entry member old))
        · cases new
      | journal call =>
        have change := stepChange (call.asking (running w.store.tasks)) w.store.journal
        exact journalWaits waits (changeUnique change waits.unique waits.bounded) (changeBounded change waits.bounded)
          (journalGains call _) undisturbed fun _ member => journalChosen member
      | claimSkipping claim =>
        have change := skippingChange claim w.store.journal
        refine journalWaits waits (changeUnique change waits.unique waits.bounded) (changeBounded change waits.bounded)
          (skippingGains claim) undisturbed fun entryId member => ?_
        have none : entryId ∈ (Client.journal (claim.step w.store.journal).1 : Client κ).chosen := member
        rw [skippingChosen] at none
        cases none

end

/- In every run in which no release is disturbed, each release leaves every live claim alone. -/
theorem orphansReleased (tasks : τ) (events : List (Event (Request ι)))
    (undisturbed : Meets (deployment queue running) (Undisturbed queue running) (idle ⟨tasks,empty⟩) events) :
    Meets (deployment queue running) (OrphansOnly queue running) (idle ⟨tasks,empty⟩) events := by
  have start : Waits running (idle ⟨tasks,empty⟩ : World (Client κ) (Deployment τ) (ω ⊕ Emitted)) :=
    ⟨List.nodup_nil,fun _ member => absurd member List.not_mem_nil,fun _ member => absurd member List.not_mem_nil⟩
  exact meetsKept (fun _ _ => nextWaits) (fun _ event _ waits => waitsRelease waits event) undisturbed start

def runningTask (tables : Tasks.Tables) (taskId : String) : Bool :=
  tables.tasks.any fun task => task.id == taskId && task.status == .running

/- A task runs, and a thought is claimed for a task that is gone. Two workers look for orphans; one
releases the thought, the running task claims it, and then the other releases it. -/
def taskRuns : List (Event (Request Tasks.Op)) :=
  [.start (.task (.enqueue ⟨"ingest",[],none,0,3,none,some "b","",1⟩)),.advance 0,
    .start (.task (.claimNext 2 .any)),.advance 1,
    .start (.journal (.record "x" none 3)),.advance 2,.advance 2,
    .start (.journal (.claimPending "a" 10 .all 4)),.advance 3]

def releases : List (Event (Request Tasks.Op)) :=
  [.start (.journal (.releaseOrphanedClaims fun _ => false)),.advance 4,
    .start (.journal (.releaseOrphanedClaims fun _ => false)),.advance 5,.advance 5]

def taken : List (Event (Request Tasks.Op)) := [.start (.journal (.claimPending "b" 10 .all 5)),.advance 6]

theorem orphansReleasedSample : Meets (deployment Tasks.queue runningTask) (OrphansOnly Tasks.queue runningTask)
    (idle ⟨⟨[],[]⟩,empty⟩) (taskRuns ++ releases ++ [.advance 4]) :=
  orphansReleased Tasks.queue runningTask ⟨[],[]⟩ _ (by decide +kernel)

theorem liveClaimReleased : ¬ Meets (deployment Tasks.queue runningTask) (OrphansOnly Tasks.queue runningTask)
    (idle ⟨⟨[],[]⟩,empty⟩) (taskRuns ++ releases ++ taken ++ [.advance 4]) := by
  intro meets
  have release := (meetsAppend.mp meets).2.1 (.journal (.releasingOrphans [1])) rfl [1] rfl
  exact absurd (release ⟨1,"x",none,3,.claimed,some "b",some 5,none⟩ (by decide +kernel) (by decide +kernel)) (by decide +kernel)

end McpMemory.Journal
