import McpMemory.Tasks.Fencing

/-! Uniqueness of the open tasks that `enqueue_unique` creates. The call looks for an
open task in one step and inserts in a later one; no index backs it. The look-up
compares the name as given, while the insert stores it stripped. -/
namespace McpMemory.Tasks
open Interleave Table

def createdUnique (trace : List Emitted) (taskId : String) : Prop :=
  Emitted.created taskId true ∈ trace

def Emitted.createsUnique (taskId : String) : Emitted → Bool
  | .created id unique => id == taskId && unique
  | .claimed _ _ _ | .recorded _ _ | .cancelRequested _ => false

theorem createsSource {trace : List Emitted} {taskId} :
    trace.any (Emitted.createsUnique taskId) = true ↔ createdUnique trace taskId := by
  constructor
  · intro some
    obtain ⟨event,logged,creates⟩ := List.any_eq_true.mp some
    cases event <;> simp [Emitted.createsUnique] at creates
    obtain ⟨rfl,rfl⟩ := creates
    exact logged
  · intro logged
    exact List.any_eq_true.mpr ⟨_,logged,by simp [Emitted.createsUnique]⟩

/- The open tasks under one stored name and workspace that `enqueue_unique` created. -/
def openUnique (w : World Call Tables Emitted) (taskName : String) (workspaceId : Option String) :
    List TaskRecord :=
  w.store.tasks.filter fun task => task.taskName == taskName && task.workspaceId == workspaceId &&
    task.status.opened && w.trace.any (Emitted.createsUnique task.id)

/- Where an `enqueue_unique` call stands before it has inserted. -/
inductive Phase where
  | look (req : EnqueueRequest)
  | insert (req : EnqueueRequest)

def Call.phase : Call → Option Phase
  | .enqueueUnique req => some (.look req)
  | .insertUnique req => some (.insert req)
  | .recovering _ _ current _ _ => current.phase
  | _ => none

def Call.inserting (call : Call) : Option EnqueueRequest :=
  match call.phase with
  | some (.insert req) => some req
  | _ => none

def SameKey (req : EnqueueRequest) (taskName : String) (workspaceId : Option String) : Prop :=
  Text.strip req.taskName = taskName ∧ req.workspaceId = workspaceId

instance (req taskName workspaceId) : Decidable (SameKey req taskName workspaceId) := by
  unfold SameKey; infer_instance

/- Names are given as they are stored, and no call looks for an open task while
another stands between its look-up and its insert for the same stored key. -/
def Orderly (w : World Call Tables Emitted) : Event Op → Prop
  | .start (.enqueueUnique req) => Text.strip req.taskName = req.taskName
  | .start _ => True
  | .advance index => match w.calls[index]?.bind Call.phase with
    | some (.look req) => ∀ between ∈ w.calls.filterMap Call.inserting,
        ¬ SameKey between (Text.strip req.taskName) req.workspaceId
    | _ => True

/- No call stands between its look-up and its insert for the key of this look-up. -/
def LookClear (w : World Call Tables Emitted) : Option Phase → Prop
  | some (.look req) => ∀ between ∈ w.calls.filterMap Call.inserting,
      ¬ SameKey between (Text.strip req.taskName) req.workspaceId
  | _ => True

instance (w) : (phase : Option Phase) → Decidable (LookClear w phase)
  | some (.look req) => inferInstanceAs (Decidable (∀ between ∈ w.calls.filterMap Call.inserting,
      ¬ SameKey between (Text.strip req.taskName) req.workspaceId))
  | some (.insert _) => .isTrue trivial
  | none => .isTrue trivial

instance (w) : (event : Event Op) → Decidable (Orderly w event)
  | .start (.enqueueUnique req) => inferInstanceAs (Decidable (Text.strip req.taskName = req.taskName))
  | .start (.enqueue _) | .start (.claimNext _ _) | .start (.leave _ _ _ _) | .start (.touch _ _ _ _)
  | .start (.requestCancel _) | .start (.updatePendingTask _) | .start (.mutateRunningTaskData _ _ _)
  | .start (.recover _ _ _) | .start (.settle _ _ _) => .isTrue trivial
  | .advance index => inferInstanceAs (Decidable (LookClear w (w.calls[index]?.bind Call.phase)))

theorem orderlyLook {w index call req} (orderly : Orderly w (.advance index))
    (found : w.calls[index]? = some call) (looks : call.phase = some (.look req)) :
    ∀ other ∈ w.calls, ∀ between, other.phase = some (.insert between) →
      ¬ SameKey between (Text.strip req.taskName) req.workspaceId := by
  intro other member between inserts
  have here : w.calls[index]?.bind Call.phase = some (.look req) := by simp [found,looks]
  simp only [Orderly,here] at orderly
  exact orderly between (List.mem_filterMap.mpr ⟨other,member,by simp [Call.inserting,inserts]⟩)

theorem insertPhase {call : Call} {req} (active : call.active = .insertUnique req) :
    call.phase = some (.insert req) := by
  induction call with
  | recovering r env current todo recovered ih => exact ih active
  | insertUnique => cases active; rfl
  | _ => cases active

@[simp] theorem readRunningPhase {d taskId epoch now tables} :
    (readRunning d taskId epoch now tables).phase = none := by
  unfold readRunning; split <;> rfl

@[simp] theorem getTaskPhase {taskId answer tables} : (getTask taskId answer tables).phase = none := by
  unfold getTask; split <;> rfl

@[simp] theorem settleReadPhase {task outcome now tables} :
    (settleRead task outcome now tables).phase = none := by
  cases outcome with
  | noHandler | idlePause => exact readRunningPhase
  | interrupted | unexpected =>
    simp only [settleRead]
    split
    · rfl
    · split <;> rfl
  | raised | returned => rfl

@[simp] theorem recoverNextPhase {r env recovered todo} :
    (recoverNext r env recovered todo).phase = none := by
  induction todo with
  | nil => rfl
  | cons task rest ih =>
    simp only [recoverNext]
    split
    · exact ih
    · rfl

theorem recoverOnPhase {r env current todo recovered} :
    (recoverOn r env current todo recovered).phase = none ∨
      (recoverOn r env current todo recovered).phase = current.phase := by
  unfold recoverOn
  split
  · exact .inl recoverNextPhase
  · exact .inl rfl
  · exact .inr rfl

/- The only way into the insert is a look-up that found nothing; nothing leads back
to a look-up. -/
theorem stepPhase (call : Call) (tables : Tables) : (step call tables).1.phase = none ∨
    ∃ req, call.phase = some (.look req) ∧ (step call tables).1.phase = some (.insert req) ∧
      findOpenTask req.taskName req.workspaceId tables = none ∧ (step call tables).2 = (tables,[]) := by
  induction call with
  | enqueueUnique req =>
    simp only [step]
    split
    · exact .inl rfl
    · rename_i missing; exact .inr ⟨req,rfl,rfl,missing,rfl⟩
  | recovering r env current todo recovered ih =>
    simp only [step]
    rcases @recoverOnPhase r env (step current tables).1 todo recovered with gone | same
    · exact .inl gone
    · rw [same]; exact ih
  | requestCancel req =>
    refine .inl ?_
    simp only [step]
    split
    · rfl
    · split
      · rfl
      · split <;> rfl
  | leave | getTask | getCreated | recover | settle => exact .inl (by simp [step])
  | settling | answered => exact .inl rfl
  | enqueue | insertUnique | findAgain | claimNext | leaving | touch | cancelPending | cancelRunning
    | updatePendingTask | updatingPending | mutateRunningTaskData =>
    refine .inl ?_
    simp only [step]
    split <;> rfl

theorem findOpenNone {taskName workspaceId tables}
    (missing : findOpenTask taskName workspaceId tables = none) : ∀ task ∈ tables.tasks,
    task.status.opened → task.taskName = taskName → task.workspaceId ≠ workspaceId := by
  intro task member opened name workspace
  rw [findOpenTask,List.head?_eq_none_iff] at missing
  have inside : task ∈ (tables.tasks.filter fun task => task.taskName == taskName &&
      task.workspaceId == workspaceId && task.status.opened).insertionSort
      fun a b => a.createdAt ≤ b.createdAt := by
    refine (List.mem_insertionSort _).mpr (List.mem_filter.mpr ⟨member,?_⟩)
    simp [opened,name,workspace]
  rw [missing] at inside
  cases inside

/- An open task that `enqueue_unique` created. -/
structure Marked (w : World Call Tables Emitted) (task : TaskRecord) : Prop where
  member : task ∈ w.store.tasks
  opened : task.status.opened
  created : createdUnique w.trace task.id

structure Sole (w : World Call Tables Emitted) : Prop where
  unique : UniqueBy (·.id) w.store.tasks
  created : ∀ taskId unique, .created taskId unique ∈ w.trace → ∃ task ∈ w.store.tasks, task.id = taskId
  spelled : ∀ call ∈ w.calls, ∀ req, call.phase = some (.look req) ∨ call.phase = some (.insert req) →
    Text.strip req.taskName = req.taskName
  alone : ∀ (i j : Nat) (one two : Call) req other, w.calls[i]? = some one → w.calls[j]? = some two →
    one.phase = some (.insert req) → two.phase = some (.insert other) →
    SameKey req (Text.strip other.taskName) other.workspaceId → i = j
  clear : ∀ call ∈ w.calls, ∀ req, call.phase = some (.insert req) → ∀ task, Marked w task →
    ¬ SameKey req task.taskName task.workspaceId
  single : ∀ a b, Marked w a → Marked w b → a.taskName = b.taskName →
    a.workspaceId = b.workspaceId → a = b

/- A marked task after a step was marked before it, or is the row just inserted. -/
theorem markedOrigin {call : Call} {w index later}
    (created : ∀ taskId unique, .created taskId unique ∈ w.trace → ∃ task ∈ w.store.tasks, task.id = taskId)
    (marked : Marked ⟨(step call w.store).2.1,w.calls.set index (step call w.store).1,
      (step call w.store).2.2 ++ w.trace⟩ later) :
    (∃ row, Marked w row ∧ Evolves row later) ∨
      ∃ req, call.phase = some (.insert req) ∧ later = req.row := by
  have change := stepChange call w.store
  obtain ⟨member,opened,logged⟩ := marked
  rcases changeOrigin change member with ⟨row,old,evolves⟩ | ⟨req,unique,emits,rfl,fresh,active⟩
  · refine .inl ⟨row,⟨old,?_,?_⟩,evolves⟩
    · by_contra closed
      have same := evolves.terminal (by simpa [TaskRecord.terminal] using closed)
      rw [same] at opened
      exact closed opened
    · rcases List.mem_append.mp logged with here | before
      · exact absurd evolves.id.symm ((changeCreated change here).1 row old)
      · exact evolves.id ▸ before
  · rcases List.mem_append.mp logged with here | before
    · have only : (step call w.store).2.2 = _ := emits
      rw [only] at here
      simp only [List.mem_singleton,Emitted.created.injEq] at here
      rw [← here.2] at active
      exact .inr ⟨req,insertPhase active,rfl⟩
    · obtain ⟨task,present,same⟩ := created _ _ before
      exact absurd same (fresh task present)

theorem setCases {calls : List Call} {index j next one} (found : (calls.set index next)[j]? = some one) :
    j = index ∧ one = next ∨ j ≠ index ∧ calls[j]? = some one := by
  by_cases same : index = j
  · subst same
    rw [List.getElem?_set_self'] at found
    obtain ⟨_,_,rfl⟩ := Option.map_eq_some_iff.mp found
    exact .inl ⟨rfl,rfl⟩
  · rw [List.getElem?_set_ne same] at found
    exact .inr ⟨Ne.symm same,found⟩

theorem advanceSole {w index call} (found : w.calls[index]? = some call)
    (orderly : Orderly w (.advance index)) (sole : Sole w) :
    Sole ⟨(step call w.store).2.1,w.calls.set index (step call w.store).1,
      (step call w.store).2.2 ++ w.trace⟩ where
  unique := changeUnique (stepChange call w.store) sole.unique
  created := by
    intro taskId unique logged
    rcases List.mem_append.mp logged with here | before
    · exact (changeCreated (stepChange call w.store) here).2
    · obtain ⟨task,present,same⟩ := sole.created taskId unique before
      obtain ⟨later,there,evolves⟩ := changeEvolves (stepChange call w.store) present
      exact ⟨later,there,evolves.id.trans same⟩
  spelled := by
    intro one member req stands
    rcases List.mem_or_eq_of_mem_set member with old | rfl
    · exact sole.spelled one old req stands
    · rcases stepPhase call w.store with gone | ⟨other,looks,inserts,_⟩
      · simp [gone] at stands
      · have same : other = req := by simpa [inserts] using stands
        exact same ▸ sole.spelled call (List.mem_of_getElem? found) other (.inl looks)
  alone := by
    -- a call that has just looked is alone, since no other stood before its insert
    intro i j one two req other atI atJ insertsI insertsJ same
    rcases setCases atI with ⟨rfl,rfl⟩ | ⟨apart,oldI⟩ <;> rcases setCases atJ with ⟨rfl,rfl⟩ | ⟨apart',oldJ⟩
    · rfl
    · rcases stepPhase call w.store with gone | ⟨looked,looks,inserts,_⟩
      · simp [gone] at insertsI
      · have eq : looked = req := by simpa [inserts] using insertsI
        subst eq
        exact absurd ⟨same.1.symm,same.2.symm⟩
          (orderlyLook orderly found looks two (List.mem_of_getElem? oldJ) other insertsJ)
    · rcases stepPhase call w.store with gone | ⟨looked,looks,inserts,_⟩
      · simp [gone] at insertsJ
      · have eq : looked = other := by simpa [inserts] using insertsJ
        subst eq
        exact absurd same (orderlyLook orderly found looks one (List.mem_of_getElem? oldI) req insertsI)
    · exact sole.alone i j one two req other oldI oldJ insertsI insertsJ same
  clear := by
    intro one member req inserts task marked same
    obtain ⟨j,at'⟩ := List.mem_iff_getElem?.mp member
    rcases setCases at' with ⟨rfl,rfl⟩ | ⟨apart,old⟩
    · rcases stepPhase call w.store with gone | ⟨looked,looks,inserted,missing,quiet⟩
      · simp [gone] at inserts
      · have eq : looked = req := by simpa [inserted] using inserts
        subst eq
        have stored := sole.spelled call (List.mem_of_getElem? found) looked (.inl looks)
        have tables : (step call w.store).2.1 = w.store := by rw [quiet]
        have present : task ∈ w.store.tasks := tables ▸ marked.member
        exact findOpenNone missing task present marked.opened (same.1.symm.trans stored) same.2.symm
    · rcases markedOrigin sole.created marked with ⟨row,was,evolves⟩ | ⟨inserted,phase,rfl⟩
      · refine sole.clear one (List.mem_of_getElem? old) req inserts row was ?_
        exact ⟨same.1.trans evolves.taskName,same.2.trans evolves.workspaceId⟩
      · exact apart (sole.alone j index one call req inserted old found inserts phase same)
  single := by
    intro a b markedA markedB name workspace
    rcases markedOrigin sole.created markedA with ⟨rowA,wasA,toA⟩ | ⟨reqA,phaseA,rfl⟩ <;>
      rcases markedOrigin sole.created markedB with ⟨rowB,wasB,toB⟩ | ⟨reqB,phaseB,rfl⟩
    · have eq := sole.single rowA rowB wasA wasB
        (toA.taskName.symm.trans (name.trans toB.taskName))
        (toA.workspaceId.symm.trans (workspace.trans toB.workspaceId))
      subst eq
      exact equalOfKey (changeUnique (stepChange call w.store) sole.unique) markedA.member
        markedB.member (toA.id.trans toB.id.symm)
    · refine absurd ?_ (sole.clear call (List.mem_of_getElem? found) reqB phaseB rowA wasA)
      exact ⟨name.symm.trans toA.taskName,workspace.symm.trans toA.workspaceId⟩
    · refine absurd ?_ (sole.clear call (List.mem_of_getElem? found) reqA phaseA rowB wasB)
      exact ⟨name.trans toB.taskName,workspace.trans toB.workspaceId⟩
    · rw [phaseA] at phaseB
      cases phaseB
      rfl

theorem enterPhase (op : Op) : (enter op).phase = none ∨
    ∃ req, op = .enqueueUnique req ∧ (enter op).phase = some (.look { req with taskId := none }) := by
  cases op with
  | enqueueUnique req => exact .inr ⟨req,rfl,rfl⟩
  | _ => exact .inl rfl

theorem startSole {w op} (orderly : Orderly w (.start op)) (sole : Sole w) :
    Sole { w with calls := w.calls ++ [enter op] } where
  unique := sole.unique
  created := sole.created
  spelled := by
    intro call member req stands
    rcases List.mem_append.mp member with old | new
    · exact sole.spelled call old req stands
    · rw [List.mem_singleton.mp new] at stands
      rcases enterPhase op with none | ⟨asked,rfl,looks⟩
      · simp [none] at stands
      · have eq : { asked with taskId := none } = req := by simpa [looks] using stands
        exact eq ▸ orderly
  alone := by
    intro i j one two req other atI atJ insertsI insertsJ same
    have old {k : Nat} {call : Call} {asked} (found : (w.calls ++ [enter op])[k]? = some call)
        (inserts : call.phase = some (.insert asked)) : w.calls[k]? = some call := by
      rcases Nat.lt_or_ge k w.calls.length with inside | past
      · rwa [List.getElem?_append_left inside] at found
      · rw [List.getElem?_append_right past] at found
        have last := List.mem_singleton.mp (List.mem_of_getElem? found)
        rcases enterPhase op with none | ⟨_,_,looks⟩
        · simp [last,none] at inserts
        · simp [last,looks] at inserts
    exact sole.alone i j one two req other (old atI insertsI) (old atJ insertsJ) insertsI insertsJ same
  clear := by
    intro call member req inserts task marked
    rcases List.mem_append.mp member with old | new
    · exact sole.clear call old req inserts task ⟨marked.member,marked.opened,marked.created⟩
    · rcases enterPhase op with none | ⟨_,_,looks⟩
      · simp [List.mem_singleton.mp new,none] at inserts
      · simp [List.mem_singleton.mp new,looks] at inserts
  single := fun a b markedA markedB =>
    sole.single a b ⟨markedA.member,markedA.opened,markedA.created⟩
      ⟨markedB.member,markedB.opened,markedB.created⟩

theorem nextSole {w event} (orderly : Orderly w event) (sole : Sole w) : Sole (queue.next w event) := by
  cases event with
  | start op => exact startSole orderly sole
  | advance index =>
    cases found : w.calls[index]? with
    | none => rw [nextIdle found]; exact sole
    | some call => rw [nextAdvance found]; exact advanceSole found orderly sole

theorem soleLength {w taskName workspaceId} (sole : Sole w) :
    (openUnique w taskName workspaceId).length ≤ 1 := by
  have rows task (member : task ∈ openUnique w taskName workspaceId) :
      Marked w task ∧ task.taskName = taskName ∧ task.workspaceId = workspaceId := by
    obtain ⟨present,selected⟩ := List.mem_filter.mp member
    simp only [Bool.and_eq_true,beq_iff_eq,createsSource] at selected
    exact ⟨⟨present,selected.1.2,selected.2⟩,selected.1.1.1,selected.1.1.2⟩
  have distinct : (openUnique w taskName workspaceId).Nodup :=
    (List.Nodup.of_map _ sole.unique).filter _
  cases listed : openUnique w taskName workspaceId with
  | nil => simp
  | cons a rest =>
    cases rest with
    | nil => simp
    | cons b more =>
      obtain ⟨markedA,nameA,workspaceA⟩ := rows a (by simp [listed])
      obtain ⟨markedB,nameB,workspaceB⟩ := rows b (by simp [listed])
      rw [listed] at distinct
      have eq := sole.single a b markedA markedB (nameA.trans nameB.symm) (workspaceA.trans workspaceB.symm)
      simp [eq] at distinct

/- In every run whose steps are all orderly, at most one open task created through
`enqueue_unique` exists per stored name and workspace, in each state reached. -/
theorem enqueueUniqueSole (events : Schedule) (orderly : Meets queue Orderly (idle empty) events)
    (first rest : Schedule) (split : events = first ++ rest) (taskName : String)
    (workspaceId : Option String) : (openUnique (reached first) taskName workspaceId).length ≤ 1 := by
  subst split
  refine soleLength (runMeets (fun w event => nextSole) (meetsAppend.mp orderly).1 ?_)
  exact ⟨List.nodup_nil,by simp [idle],by simp [idle],by simp [idle],by simp [idle],
    fun a b marked => by simpa [idle,empty] using marked.member⟩

def uniqueRequest (taskName drawn : String) : EnqueueRequest :=
  ⟨taskName,[],none,100,3,none,none,drawn,0⟩

/- The second call finds the open task of the first. -/
theorem enqueueUniqueSoleSample :
    (openUnique (reached [.start (.enqueueUnique (uniqueRequest "sweeper" "a")),.advance 0,.advance 0,
      .start (.enqueueUnique (uniqueRequest "sweeper" "b")),.advance 1,.advance 1])
      "sweeper" none).length ≤ 1 :=
  enqueueUniqueSole _ (by decide) _ [] (List.append_nil _).symm "sweeper" none

/- The name is stored stripped and looked up as given. -/
def paddedTwice : Schedule :=
  [.start (.enqueueUnique (uniqueRequest " sweeper " "a")),.advance 0,.advance 0,
    .start (.enqueueUnique (uniqueRequest " sweeper " "b")),.advance 1,.advance 1]

/- Two clients look before either inserts. -/
def lookedTwice : Schedule :=
  [.start (.enqueueUnique (uniqueRequest "sweeper" "a")),.start (.enqueueUnique (uniqueRequest "sweeper" "b")),
    .advance 0,.advance 1,.advance 0,.advance 1]

theorem enqueueUniqueDoubled :
    (openUnique (reached paddedTwice) "sweeper" none).map (·.id) = ["a","b"] ∧
    (openUnique (reached lookedTwice) "sweeper" none).map (·.id) = ["a","b"] := by
  decide

end McpMemory.Tasks
