import Mathlib.Data.List.Dedup
import McpMemory.Tasks.Fencing

/-! What becomes of the data of a task. A running task's data is changed in one transaction;
`update_pending_task` reads the pending row in one statement and writes it in another, and what
it was not given it writes back as it was read. -/
namespace McpMemory.Tasks
open Interleave Table

def DataMutation.fieldNames : DataMutation → List String
  | .extendIntList field _ => [field]
  | .extendObjectList field _ => [field]
  | .clearKeys fields => fields

/- The integers that a list extension keeps. -/
def positive : Json → Bool
  | .int value => value > 0
  | _ => false

/- The mutator takes this item out of the list under this name. -/
def DataMutation.drops (m : DataMutation) (fieldName : String) (item : Json) : Bool :=
  match m with
  | .extendIntList field _ => field == fieldName && !positive item
  | .extendObjectList _ _ => false
  | .clearKeys fields => fields.contains fieldName

theorem eraseOther {object : Json.Object} {key other : String} (apart : other ≠ key) :
    Json.get (Json.erase object key) other = Json.get object other := by
  unfold Json.get Json.erase
  induction object with
  | nil => rfl
  | cons field rest ih =>
    rw [List.filter_cons]
    by_cases own : field.1 = key
    · rw [if_neg (by simp [own]),ih,List.lookup_cons,beq_false_of_ne (own ▸ apart)]
    · rw [if_pos (by simp [own]),List.lookup_cons,List.lookup_cons,ih]

theorem eraseOthers {object : Json.Object} {keys : List String} {other : String} (apart : other ∉ keys) :
    Json.get (keys.foldl Json.erase object) other = Json.get object other := by
  induction keys generalizing object with
  | nil => rfl
  | cons key rest ih =>
    rw [List.mem_cons,not_or] at apart
    rw [List.foldl_cons,ih apart.2,eraseOther apart.1]

theorem applyKeeps {m : DataMutation} {data after : Json.Object} (applied : m.apply data = some after)
    {field : String} (apart : field ∉ m.fieldNames) : Json.get after field = Json.get data field := by
  cases m with
  | extendIntList name values =>
    rw [DataMutation.fieldNames,List.mem_singleton] at apart
    dsimp only [DataMutation.apply] at applied
    split at applied <;> cases applied
    rw [Json.getSet,if_neg apart]
  | extendObjectList name values =>
    rw [DataMutation.fieldNames,List.mem_singleton] at apart
    cases applied
    rw [Json.getSet,if_neg apart]
  | clearKeys names =>
    dsimp only [DataMutation.apply] at applied
    split at applied <;> cases applied
    exact eraseOthers apart

theorem positiveKept {item : Json} {items : List Json} (member : item ∈ items) (counts : positive item) :
    ∃ value ∈ positiveInts items, item = .int value := by
  cases item with
  | int value =>
    have above : value > 0 := by simpa [positive] using counts
    exact ⟨value,List.mem_filterMap.mpr ⟨_,member,if_pos above⟩,rfl⟩
  | _ => cases counts

theorem applyExtends {m : DataMutation} {data after : Json.Object} (applied : m.apply data = some after)
    {field : String} {item : Json} (kept : m.drops field item = false)
    (member : item ∈ Json.items (Json.get data field)) : item ∈ Json.items (Json.get after field) := by
  by_cases named : field ∈ m.fieldNames
  · cases m with
    | extendIntList name values =>
      rw [DataMutation.fieldNames,List.mem_singleton] at named
      subst named
      dsimp only [DataMutation.apply] at applied
      split at applied <;> cases applied
      rw [Json.getSet,if_pos rfl]
      obtain ⟨value,among,rfl⟩ := positiveKept member (by simpa [DataMutation.drops] using kept)
      exact List.mem_map.mpr ⟨value,(List.mem_insertionSort _).mpr (List.mem_dedup.mpr (List.mem_append_left _ among)),rfl⟩
    | extendObjectList name values =>
      rw [DataMutation.fieldNames,List.mem_singleton] at named
      subst named
      cases applied
      rw [Json.getSet,if_pos rfl]
      exact List.mem_append_left _ member
    | clearKeys names => simp [DataMutation.drops,show field ∈ names from named] at kept
  · rwa [applyKeeps applied named]

/- What one step of a call does to the data of one row. -/
inductive Rewrite (call : Call) (row later : TaskRecord) : Prop where
  | kept (same : later.data = row.data)
  | mutated {m taskId now} (active : call.active = .mutateRunningTaskData m taskId now) (named : row.id = taskId)
      (applied : m.apply row.data = some later.data)
  | updated {req read} (active : call.active = .updatingPending req read) (pending : pendingTask req.taskId row)
      (same : later.data = req.data.getD read.data)

section
variable {call : Call} {before : Tables} {row : TaskRecord}

theorem Rewrite.under {inner outer : Call} {later : TaskRecord} (rewrite : Rewrite inner row later)
    (same : inner.active = outer.active) : Rewrite outer row later := by
  cases rewrite with
  | kept data => exact .kept data
  | mutated active named applied => exact .mutated (same ▸ active) named applied
  | updated active pending data => exact .updated (same ▸ active) pending data

/- Where a step leaves the row, and whatever it did with others. -/
def Leads (call : Call) (row : TaskRecord) (after : Tables) : Prop :=
  ∃ later ∈ after.tasks, later.id = row.id ∧ Rewrite call row later

theorem leadsQuiet (member : row ∈ before.tasks) : Leads call row before := ⟨row,member,rfl,.kept rfl⟩

theorem leadsUpdate {runs : List TaskRunRecord} {sel : TaskRecord → Bool} {set : TaskRecord → TaskRecord} (member : row ∈ before.tasks)
    (named : (set row).id = row.id) (rewrite : sel row → Rewrite call row (set row)) :
    Leads call row ⟨update sel set before.tasks,runs⟩ := by
  refine ⟨_,memUpdate.mpr ⟨row,member,rfl⟩,?_⟩
  split
  · rename_i hit
    exact ⟨named,rewrite hit⟩
  · exact ⟨rfl,.kept rfl⟩

theorem leadsKept {runs : List TaskRunRecord} {sel : TaskRecord → Bool} {set : TaskRecord → TaskRecord} (member : row ∈ before.tasks)
    (named : (set row).id = row.id) (data : (set row).data = row.data) :
    Leads call row ⟨update sel set before.tasks,runs⟩ := leadsUpdate member named fun _ => .kept data

theorem leadsEnqueue {req : EnqueueRequest} {after : Tables} (member : row ∈ before.tasks)
    (ok : enqueue req before = .ok after) : Leads call row after := by
  rw [(enqueueSource ok).2.2]
  exact ⟨row,List.mem_append_left _ member,rfl,.kept rfl⟩

theorem openSource {taskId : String} {task : TaskRecord} :
    openTask taskId task = true ↔ task.id = taskId ∧ task.status.opened = true := by
  simp [openTask]

theorem departureData (d : Departure) (now : Seconds) (row task : TaskRecord) : (d.set now row task).data = task.data := by
  cases d <;> rfl

theorem stepData (unique : UniqueBy (·.id) before.tasks) (member : row ∈ before.tasks) :
    Leads call row (step call before).2.1 := by
  induction call with
  | enqueue req =>
    simp only [step]
    split
    · exact leadsQuiet member
    · rename_i after ok
      exact leadsEnqueue member ok
  | insertUnique req =>
    simp only [step]
    split
    · exact leadsQuiet member
    · exact leadsQuiet member
    · rename_i after ok
      exact leadsEnqueue member ok
  | enqueueUnique req => simp only [step]; split <;> exact leadsQuiet member
  | findAgain req => simp only [step]; split <;> exact leadsQuiet member
  | claimNext now workspace =>
    have source {result after} (ok : claimNext now workspace before = (result,after)) :
        Leads (.claimNext now workspace) row after := by
      rcases claimNextSource ok with ⟨_,rfl⟩ | ⟨_,_,_,_,_,rfl,_⟩
      · exact leadsQuiet member
      · exact leadsKept member rfl rfl
    simp only [step]
    split <;> exact source ‹_›
  | leaving d taskId epoch now read =>
    simp only [step]
    split
    · exact leadsQuiet member
    · rename_i current run after ok
      obtain ⟨task,found,rfl,rfl,rfl⟩ := leaveRunningSource ok
      exact leadsKept member (departureId d now read row) (departureData d now read row)
  | touch t taskId epoch now =>
    simp only [step,touchRunning]
    cases before.tasks.find? (runningTask taskId epoch) with
    | none => exact leadsQuiet member
    | some _ => exact leadsKept member (by cases t <;> rfl) (by cases t <;> rfl)
  | requestCancel req =>
    simp only [step]
    split
    · exact leadsQuiet member
    · split
      · exact leadsQuiet member
      · split <;> exact leadsQuiet member
  | cancelPending req read =>
    simp only [step,Tasks.cancelPending]
    cases before.tasks.find? (pendingTask req.taskId) with
    | none => exact leadsQuiet member
    | some current => exact leadsKept member rfl rfl
  | cancelRunning req =>
    simp only [step,Tasks.cancelRunning]
    cases before.tasks.find? (runningTask req.taskId none) with
    | none => exact leadsQuiet member
    | some current => exact leadsKept member rfl rfl
  | updatePendingTask req => simp only [step]; split <;> exact leadsQuiet member
  | updatingPending req read =>
    simp only [step,Tasks.updatePendingTask]
    cases before.tasks.find? (pendingTask req.taskId) with
    | none => exact leadsQuiet member
    | some _ => exact leadsUpdate member rfl fun hit => .updated rfl hit rfl
  | mutateRunningTaskData m taskId now =>
    simp only [step,Tasks.mutateRunningTaskData]
    cases found : before.tasks.find? (openTask taskId) with
    | none => exact leadsQuiet member
    | some read =>
      dsimp only
      cases applied : m.apply read.data with
      | none => exact leadsQuiet member
      | some data =>
        refine leadsUpdate member rfl fun hit => .mutated rfl (openSource.mp hit).1 ?_
        obtain ⟨there,selected⟩ := findSome found
        rw [equalOfKey unique member there ((openSource.mp hit).1.trans (openSource.mp selected).1.symm)]
        exact applied
  | recovering r env current todo recovered ih =>
    obtain ⟨later,there,named,rewrite⟩ := ih
    exact ⟨later,there,named,rewrite.under rfl⟩
  | leave | getTask | getCreated | recover | settle | settling | answered => exact leadsQuiet member

end

theorem Evolves.trans {row middle later : TaskRecord} (first : Evolves row middle) (second : Evolves middle later) :
    Evolves row later where
  id := second.id.trans first.id
  taskName := second.taskName.trans first.taskName
  workspaceId := second.workspaceId.trans first.workspaceId
  epoch := Int.le_trans first.epoch second.epoch
  running := by
    intro running
    rcases second.running running with ⟨was,same⟩ | more
    · rcases first.running was with ⟨before,old⟩ | more
      · exact .inl ⟨before,same.trans old⟩
      · exact .inr (same ▸ more)
    · exact .inr (Int.lt_of_le_of_lt first.epoch more)
  terminal := by
    intro ended
    have kept := first.terminal ended
    have still : middle.terminal := by
      unfold TaskRecord.terminal at ended ⊢
      rwa [kept]
    exact (second.terminal still).trans kept

theorem runEvolves {w : World Call Tables Emitted} {row : TaskRecord} (member : row ∈ w.store.tasks) (events : Schedule) :
    ∃ later ∈ (queue.run w events).store.tasks, Evolves row later := by
  induction events generalizing w row with
  | nil => exact ⟨row,member,.refl row⟩
  | cons event rest ih =>
    have first : ∃ middle ∈ (queue.next w event).store.tasks, Evolves row middle := by
      cases event with
      | start op => exact ⟨row,member,.refl row⟩
      | advance index =>
        cases found : w.calls[index]? with
        | none =>
          rw [nextIdle found]
          exact ⟨row,member,.refl row⟩
        | some call =>
          rw [nextAdvance found]
          exact changeEvolves (stepChange call w.store) member
    obtain ⟨middle,there,evolves⟩ := first
    obtain ⟨later,last,goes⟩ := ih there
    exact ⟨later,last,evolves.trans goes⟩

theorem recoverNextReads {r env recovered} {todo : List TaskRecord} {req : PendingUpdate} {row : TaskRecord} :
    (recoverNext r env recovered todo).active ≠ .updatingPending req row := by
  induction todo with
  | nil => nofun
  | cons task rest ih =>
    unfold recoverNext
    split
    · exact ih
    · nofun

theorem settleReads {task : TaskRecord} {outcome : Outcome} {now : Seconds} {tables : Tables} {req : PendingUpdate}
    {row : TaskRecord} : (settleRead task outcome now tables).active ≠ .updatingPending req row := by
  have read {d taskId epoch} : (readRunning d taskId epoch now tables).active ≠ .updatingPending req row := by
    unfold readRunning
    split <;> nofun
  cases outcome with
  | noHandler => exact read
  | idlePause => exact read
  | interrupted stopping =>
    unfold settleRead
    dsimp only
    split
    · nofun
    · split <;> nofun
  | raised => nofun
  | returned => nofun
  | unexpected error delay =>
    unfold settleRead
    dsimp only
    split
    · nofun
    · split <;> nofun

/- An update waits for its write only once it has read a pending row. -/
theorem stepReads {call : Call} {tables : Tables} {req : PendingUpdate} {row : TaskRecord}
    (waits : (step call tables).1.active = .updatingPending req row) :
    call.active = .updatePendingTask req ∧ tables.tasks.find? (pendingTask req.taskId) = some row ∧
      (step call tables).2.1 = tables := by
  have looked {taskId : String} {answer : TaskRecord → Answer} (same : (getTask taskId answer tables).active = .updatingPending req row) :
      False := by
    unfold getTask at same
    split at same <;> cases same
  induction call with
  | enqueue => simp only [step] at waits; split at waits <;> cases waits
  | enqueueUnique => simp only [step] at waits; split at waits <;> cases waits
  | insertUnique => simp only [step] at waits; split at waits <;> cases waits
  | findAgain => simp only [step] at waits; split at waits <;> cases waits
  | claimNext => simp only [step] at waits; split at waits <;> cases waits
  | leave d taskId epoch now =>
    simp only [step,readRunning] at waits
    split at waits <;> cases waits
  | leaving => simp only [step] at waits; split at waits <;> cases waits
  | touch => simp only [step] at waits; split at waits <;> cases waits
  | requestCancel =>
    simp only [step] at waits
    split at waits
    · cases waits
    · split at waits
      · cases waits
      · split at waits <;> cases waits
  | cancelPending => simp only [step] at waits; split at waits <;> cases waits
  | cancelRunning => simp only [step] at waits; split at waits <;> cases waits
  | updatePendingTask asked =>
    simp only [step] at waits ⊢
    split at waits
    · cases waits
    · rename_i found
      cases waits
      rw [found]
      exact ⟨rfl,rfl,rfl⟩
  | updatingPending => simp only [step] at waits; split at waits <;> cases waits
  | mutateRunningTaskData => simp only [step] at waits; split at waits <;> cases waits
  | getTask => exact absurd waits looked
  | getCreated => exact absurd waits looked
  | recover r workspaceId env => exact absurd waits recoverNextReads
  | recovering r env current todo recovered ih =>
    simp only [step,recoverOn] at waits
    split at waits
    · exact absurd waits recoverNextReads
    · cases waits
    · exact ih waits
  | settle task outcome now => exact absurd waits settleReads
  | settling => cases waits
  | answered => cases waits

/- What an update has read, from its read to its write. -/
structure Reads (tables : Tables) (req : PendingUpdate) (row : TaskRecord) : Prop where
  named : row.id = req.taskId
  pending : row.status = .pending
  lives : ∃ current ∈ tables.tasks, Evolves row current

def Waiting (w : World Call Tables Emitted) (req : PendingUpdate) (row : TaskRecord) : Prop :=
  ∃ call ∈ w.calls, call.active = .updatingPending req row

theorem waitingNext {w : World Call Tables Emitted} {index : Nat} {call : Call} {store : Tables} {trace : List Emitted}
    {req : PendingUpdate} {row : TaskRecord}
    (waits : Waiting ⟨store,w.calls.set index (step call w.store).1,trace⟩ req row) :
    Waiting w req row ∨ w.store.tasks.find? (pendingTask req.taskId) = some row ∧ (step call w.store).2.1 = w.store := by
  obtain ⟨other,member,active⟩ := waits
  rcases List.mem_or_eq_of_mem_set member with old | rfl
  · exact .inl ⟨other,old,active⟩
  · exact .inr (stepReads active).2

theorem waitingStart {w : World Call Tables Emitted} {op : Op} {req : PendingUpdate} {row : TaskRecord}
    (waits : Waiting { w with calls := w.calls ++ [queue.enter op] } req row) : Waiting w req row := by
  obtain ⟨call,member,active⟩ := waits
  rcases List.mem_append.mp member with old | new
  · exact ⟨call,old,active⟩
  · rw [List.mem_singleton.mp new] at active
    cases op <;> cases active

theorem reachedReads (events : Schedule) {req : PendingUpdate} {row : TaskRecord} (waits : Waiting (reached events) req row) :
    Reads (reached events).store req row := by
  have kept : Preserved queue fun w => ∀ req row, Waiting w req row → Reads w.store req row := by
    refine ⟨fun w op reads req row waits => reads req row (waitingStart waits),fun w index call found reads req row waits => ?_⟩
    rcases waitingNext waits with before | ⟨read,same⟩
    · have held := reads req row before
      obtain ⟨current,there,evolves⟩ := held.lives
      obtain ⟨later,present,goes⟩ := changeEvolves (stepChange call w.store) there
      exact ⟨held.named,held.pending,later,present,evolves.trans goes⟩
    · obtain ⟨there,selected⟩ := findSome read
      obtain ⟨named,pending⟩ := pendingSource.mp selected
      refine ⟨named,pending,row,?_,.refl row⟩
      show row ∈ (step call w.store).2.1.tasks
      rw [same]
      exact there
  exact runPreserved kept events (by rintro _ _ ⟨_,none,_⟩; cases none) req row waits

/- A task that this call is about to write, if it is pending, is so under the epoch that was read. -/
def Call.upToDate (tables : Tables) (call : Call) : Bool :=
  match call.active with
  | .updatingPending req row => tables.tasks.all fun task =>
      !pendingTask req.taskId task || task.executionEpoch == row.executionEpoch
  | _ => true

/- Between the read and the write of an update its task is not claimed, unless it stays away from
pending. -/
def Unclaimed (w : World Call Tables Emitted) : Event Op → Prop
  | .start _ => True
  | .advance index => ∀ call ∈ w.calls[index]?, call.upToDate w.store

/- The next step is not by a call of this kind. -/
def Avoids (bad : Call → Bool) (w : World Call Tables Emitted) : Event Op → Prop
  | .start _ => True
  | .advance index => ∀ call ∈ w.calls[index]?, bad call = false

instance decideUnclaimed (w : World Call Tables Emitted) : (event : Event Op) → Decidable (Unclaimed w event)
  | .start _ => .isTrue trivial
  | .advance index => inferInstanceAs (Decidable (∀ call ∈ w.calls[index]?, call.upToDate w.store))

instance decideAvoids (bad : Call → Bool) (w : World Call Tables Emitted) : (event : Event Op) → Decidable (Avoids bad w event)
  | .start _ => .isTrue trivial
  | .advance index => inferInstanceAs (Decidable (∀ call ∈ w.calls[index]?, bad call = false))

/- The calls that say themselves what this field of the task is to hold. -/
def Call.replaces (taskId fieldName : String) (call : Call) : Bool :=
  match call.active with
  | .mutateRunningTaskData m other _ => other == taskId && m.fieldNames.contains fieldName
  | .updatingPending req _ => req.taskId == taskId && req.data.isSome
  | _ => false

/- The calls that take this item out of the list in this field, or replace the data as a whole. -/
def Call.drops (taskId fieldName : String) (item : Json) (call : Call) : Bool :=
  match call.active with
  | .mutateRunningTaskData m other _ => other == taskId && m.drops fieldName item
  | .updatingPending req _ => req.taskId == taskId && req.data.isSome
  | _ => false

theorem upToDateEpoch {tables : Tables} {call : Call} {req : PendingUpdate} {row task : TaskRecord}
    (fresh : call.upToDate tables) (active : call.active = .updatingPending req row) (member : task ∈ tables.tasks)
    (pending : pendingTask req.taskId task) : task.executionEpoch = row.executionEpoch := by
  simp only [Call.upToDate,active,List.all_eq_true] at fresh
  simpa [pending] using fresh task member

/- What the calls keep of the data of one task. -/
def Respects (holds : Json.Object → Prop) (taskId : String) (call : Call) : Prop :=
  (∀ m now, call.active = .mutateRunningTaskData m taskId now → ∀ data after, holds data → m.apply data = some after →
    holds after) ∧
  ∀ req row, call.active = .updatingPending req row → req.taskId = taskId → req.data = none

/- From an epoch of the task on: its data, and what the waiting updates have read of it since. -/
structure Keeps (holds : Json.Object → Prop) (taskId : String) (epoch : Int) (w : World Call Tables Emitted) : Prop where
  unique : UniqueBy (·.id) w.store.tasks
  current : ∃ task ∈ w.store.tasks, task.id = taskId ∧ epoch ≤ task.executionEpoch ∧ holds task.data
  reads : ∀ req row, Waiting w req row → req.taskId = taskId → row.executionEpoch < epoch ∨ holds row.data

section
variable {holds : Json.Object → Prop} {taskId : String} {epoch : Int} {w : World Call Tables Emitted}

theorem nextKeeps {event : Event Op} (unclaimed : Unclaimed w event)
    (respects : ∀ index, event = .advance index → ∀ call ∈ w.calls[index]?, Respects holds taskId call)
    (keeps : Keeps holds taskId epoch w) : Keeps holds taskId epoch (queue.next w event) := by
  cases event with
  | start op => exact ⟨keeps.unique,keeps.current,fun req row waits => keeps.reads req row (waitingStart waits)⟩
  | advance index =>
    cases found : w.calls[index]? with
    | none =>
      rw [nextIdle found]
      exact keeps
    | some call =>
      rw [nextAdvance found]
      have respect := respects index rfl call found
      have change := stepChange call w.store
      have unique := changeUnique change keeps.unique
      obtain ⟨task,member,named,above,held⟩ := keeps.current
      refine ⟨unique,?_,fun req row waits same => ?_⟩
      · obtain ⟨later,there,same,rewrite⟩ := stepData keeps.unique member
        obtain ⟨other,here,evolves⟩ := changeEvolves change member
        rw [equalOfKey unique here there (evolves.id.trans same.symm)] at evolves
        refine ⟨later,there,same.trans named,Int.le_trans above evolves.epoch,?_⟩
        cases rewrite with
        | kept data => exact data ▸ held
        | mutated active own applied => exact respect.1 _ _ (active.trans (by rw [← own,named])) _ _ held applied
        | @updated req read active pending data =>
          have own : req.taskId = taskId := (pendingSource.mp pending).1.symm.trans named
          rw [data,respect.2 req read active own]
          -- The row was read under the epoch that the task has now, so it was read since.
          have epochs := upToDateEpoch (unclaimed call found) active member pending
          exact (keeps.reads req read ⟨call,List.mem_of_getElem? found,active⟩ own).resolve_left (by omega)
      · rcases waitingNext waits with before | ⟨read,_⟩
        · exact keeps.reads req row before same
        · obtain ⟨there,selected⟩ := findSome read
          have own := (pendingSource.mp selected).1.trans (same.trans named.symm)
          rw [equalOfKey keeps.unique there member own]
          exact .inr held

theorem runKeepsData {bad : Call → Bool} (respects : ∀ call, bad call = false → Respects holds taskId call) {events : Schedule}
    (unclaimed : Meets queue Unclaimed w events) (avoids : Meets queue (Avoids bad) w events)
    (keeps : Keeps holds taskId epoch w) : Keeps holds taskId epoch (queue.run w events) := by
  induction events generalizing w with
  | nil => exact keeps
  | cons event rest ih =>
    refine ih unclaimed.2 avoids.2 (nextKeeps unclaimed.1 ?_ keeps)
    rintro index rfl call found
    exact respects call (avoids.1 call found)

end

/- The data of a task that runs stays, field by field, up to an explicit change of the field, and the items
of its lists up to an operation that takes them out. -/
def NoLostUpdate (events : Schedule) : Prop :=
  ∀ first rest row, events = first ++ rest → row ∈ (reached first).store.tasks → row.status = .running →
    ∃ later ∈ (reached events).store.tasks, later.id = row.id ∧
      (∀ field, Meets queue (Avoids (Call.replaces row.id field)) (reached first) rest →
        Json.get later.data field = Json.get row.data field) ∧
      ∀ field, ∀ item ∈ Json.items (Json.get row.data field),
        Meets queue (Avoids (Call.drops row.id field item)) (reached first) rest →
          item ∈ Json.items (Json.get later.data field)

/- An update of a task that was not pending at some moment since the read changes nothing. -/
def NoStaleWrite (events : Schedule) : Prop :=
  ∀ first between rest index req row, events = first ++ between ++ .advance index :: rest →
    (reached first).calls[index]? = some (.updatingPending req row) →
    (reached (first ++ between)).calls[index]? = some (.updatingPending req row) →
    (∃ n, ∀ task ∈ (reached (first ++ between.take n)).store.tasks, task.id = req.taskId → task.status ≠ .pending) →
    (reached (first ++ between ++ [.advance index])).store = (reached (first ++ between)).store

/- A task that runs was read by no waiting update under its epoch. -/
theorem runningKeeps {holds : Json.Object → Prop} {events : Schedule} {row : TaskRecord}
    (member : row ∈ (reached events).store.tasks) (running : row.status = .running) (held : holds row.data) :
    Keeps holds row.id row.executionEpoch (reached events) := by
  have unique := (reachedLane events).unique
  refine ⟨unique,⟨row,member,rfl,Int.le_refl _,held⟩,fun req read waits same => .inl ?_⟩
  have reads := reachedReads events waits
  obtain ⟨current,there,evolves⟩ := reads.lives
  rw [equalOfKey unique there member (evolves.id.trans (reads.named.trans same))] at evolves
  rcases evolves.running running with ⟨was,_⟩ | above
  · rw [reads.pending] at was
    cases was
  · exact above

theorem replacesRespects {taskId field : String} {value : Option Json} (call : Call) (other : call.replaces taskId field = false) :
    Respects (fun data => Json.get data field = value) taskId call := by
  refine ⟨fun m now active data after held applied => ?_,fun req row active same => ?_⟩
  · have apart : field ∉ m.fieldNames := by simpa [Call.replaces,active] using other
    exact (applyKeeps applied apart).trans held
  · simpa [Call.replaces,active,same] using other

theorem dropsRespects {taskId field : String} {item : Json} (call : Call) (other : call.drops taskId field item = false) :
    Respects (fun data => item ∈ Json.items (Json.get data field)) taskId call := by
  refine ⟨fun m now active data after held applied => ?_,fun req row active same => ?_⟩
  · have kept : m.drops field item = false := by simpa [Call.drops,active] using other
    exact applyExtends applied kept held
  · simpa [Call.drops,active,same] using other

theorem lostUpdate {events : Schedule} (unclaimed : Meets queue Unclaimed (idle empty) events) : NoLostUpdate events := by
  rintro first rest row rfl member running
  have later : Meets queue Unclaimed (reached first) rest := (meetsAppend.mp unclaimed).2
  have split : reached (first ++ rest) = queue.run (reached first) rest := runAppend
  have unique := (reachedLane (first ++ rest)).unique
  obtain ⟨last,there,evolves⟩ := runEvolves member rest
  rw [← split] at there
  refine ⟨last,there,evolves.id,fun field avoids => ?_,fun field item among avoids => ?_⟩
  · have keeps := runKeepsData replacesRespects later avoids (runningKeeps member running rfl)
    rw [← split] at keeps
    obtain ⟨task,here,named,_,held⟩ := keeps.current
    rwa [equalOfKey unique there here (evolves.id.trans named.symm)]
  · have keeps := runKeepsData dropsRespects later avoids (runningKeeps member running among)
    rw [← split] at keeps
    obtain ⟨task,here,named,_,held⟩ := keeps.current
    rwa [equalOfKey unique there here (evolves.id.trans named.symm)]

/- A task that was pending when it was read and was not pending later on is pending no more under
that epoch. -/
theorem leftPending {row start middle last : TaskRecord} (pending : row.status = .pending) (began : Evolves row start)
    (went : Evolves start middle) (ended : Evolves middle last) (left : middle.status ≠ .pending)
    (epoch : last.executionEpoch = row.executionEpoch) : last.status ≠ .pending := by
  intro again
  have whole := began.trans went
  cases status : middle.status with
  | pending => exact left status
  | running =>
    rcases whole.running status with ⟨was,_⟩ | above
    · rw [pending] at was
      cases was
    · have grew := ended.epoch
      omega
  | completed | failed | cancelled =>
    have kept := ended.terminal (by rw [TaskRecord.terminal,status]; rfl)
    rw [again,status] at kept
    cases kept

theorem staleWrite {events : Schedule} (unclaimed : Meets queue Unclaimed (idle empty) events) : NoStaleWrite events := by
  rintro first between rest index req row rfl read waits ⟨n,gone⟩
  have fresh := (meetsAppend.mp unclaimed).2.1 _ waits
  have unique := (reachedLane (first ++ between)).unique
  have reads := reachedReads first ⟨_,List.mem_of_getElem? read,rfl⟩
  have split : reached (first ++ between.take n) = queue.run (reached first) (between.take n) := runAppend
  have whole : reached (first ++ between) = queue.run (reached (first ++ between.take n)) (between.drop n) := by
    rw [split,← runAppend,List.take_append_drop]
    exact runAppend
  obtain ⟨start,here,began⟩ := reads.lives
  obtain ⟨middle,there,went⟩ := runEvolves here (between.take n)
  rw [← split] at there
  obtain ⟨last,present,ended⟩ := runEvolves there (between.drop n)
  rw [← whole] at present
  have left := gone middle there (went.id.trans (began.id.trans reads.named))
  have none : (reached (first ++ between)).store.tasks.find? (pendingTask req.taskId) = none := by
    rw [List.find?_eq_none]
    intro task member hit
    obtain ⟨named,pending⟩ := pendingSource.mp hit
    obtain rfl := equalOfKey unique member present (named.trans ((ended.id.trans (went.id.trans
      (began.id.trans reads.named))).symm))
    exact leftPending reads.pending began went ended left (upToDateEpoch fresh rfl member hit) pending
  have stepped : reached (first ++ between ++ [.advance index]) = queue.next (reached (first ++ between)) (.advance index) :=
    runAppend
  rw [stepped,nextAdvance waits]
  simp only [queue,step,Tasks.updatePendingTask,none,reject]

/- In every run in which no task is claimed between the read and the write of an update. -/
theorem dataKept (events : Schedule) (unclaimed : Meets queue Unclaimed (idle empty) events) :
    NoLostUpdate events ∧ NoStaleWrite events := ⟨lostUpdate unclaimed,staleWrite unclaimed⟩

/- A task is read for an update of its priority. Then it runs, notes an item that it has processed and goes
back to pending. -/
def processedOne : Schedule := [.start (.enqueue (sampleRequest "system1-ingest" "t" 3 0)),.advance 0,
  .start (.updatePendingTask ⟨"t",none,none,some 5,9⟩),.advance 1,.start (.claimNext 1 .any),.advance 2,
  .start (.mutateRunningTaskData (.extendIntList "done" [7]) "t" 2),.advance 3]

def retried : Schedule := [.start (.leave (.retryRunningTask "busy") "t" (some 1) 3),.advance 4,.advance 4]

theorem dataKeptSample : NoLostUpdate (processedOne ++ retried) ∧ NoStaleWrite (processedOne ++ retried) :=
  dataKept _ (by decide)

/- The update then writes the data back as it had read it. -/
theorem processedLost : ¬ NoLostUpdate (processedOne ++ (retried ++ [.advance 1])) ∧
    ¬ NoStaleWrite (processedOne ++ (retried ++ [.advance 1])) := by
  have noted : ∃ row ∈ (reached processedOne).store.tasks, row.status = .running ∧ row.id = "t" ∧
      (Json.items (Json.get row.data "done")).length = 1 := by decide
  have gone : ∀ row ∈ (reached (processedOne ++ (retried ++ [.advance 1]))).store.tasks,
      (Json.items (Json.get row.data "done")).length = 0 := by decide
  refine ⟨fun kept => ?_,fun kept => ?_⟩
  · obtain ⟨row,member,running,named,count⟩ := noted
    obtain ⟨later,there,_,fields,_⟩ := kept processedOne _ row rfl member running
    have same := fields "done" (by rw [named]; decide)
    rw [← same,gone later there] at count
    cases count
  · have same := kept (processedOne.take 4) (processedOne.drop 4 ++ retried) [] 1 ⟨"t",none,none,some 5,9⟩
      (sampleRequest "system1-ingest" "t" 3 0).row rfl rfl rfl ⟨2,by decide⟩
    exact absurd (congrArg (fun tables : Tables => tables.tasks.map (·.priority)) same) (by decide)

end McpMemory.Tasks
