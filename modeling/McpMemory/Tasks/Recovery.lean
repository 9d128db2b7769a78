import McpMemory.Tasks.Fencing

/-! What a recovery does to the tasks that it listed. Both recoveries list the running
tasks once and act on them later. The worker's names the epoch that it listed in every
write; the queue's names none, so between its list and its write the task may be claimed
again. -/
namespace McpMemory.Tasks
open Interleave Table

/- The task that the next steps of a call take out of `running`. -/
def Call.departs : Call → Option String
  | .leave _ taskId _ _ => some taskId
  | .leaving _ taskId _ _ _ => some taskId
  | _ => none

/- The tasks that a recovery of the queue has listed and not yet acted on. -/
def Call.awaiting : Call → List String
  | .recovering .queue _ current todo _ => current.departs.toList ++ todo.map (·.id)
  | _ => []

/- The event claims no task that a recovery of the queue awaits. -/
def Unawaited (w : World Call Tables Emitted) : Emitted → Prop
  | .claimed before _ _ => ∀ other ∈ w.calls, before.id ∉ other.awaiting
  | _ => True

instance (w) : (event : Emitted) → Decidable (Unawaited w event)
  | .claimed before _ _ => inferInstanceAs (Decidable (∀ other ∈ w.calls, before.id ∉ other.awaiting))
  | .created _ _ | .recorded _ _ | .cancelRequested _ => .isTrue trivial

/- No task is claimed while a recovery of the queue awaits it. -/
def Undisturbed (w : World Call Tables Emitted) : Event Op → Prop
  | .start _ => True
  | .advance index => ∀ call ∈ w.calls[index]?, ∀ event ∈ (step call w.store).2.2, Unawaited w event

instance (w) : (event : Event Op) → Decidable (Undisturbed w event)
  | .start _ => .isTrue trivial
  | .advance index => inferInstanceAs (Decidable (∀ call ∈ w.calls[index]?, ∀ event ∈ (step call w.store).2.2,
      Unawaited w event))

/- A step of a recovery leaves the tables alone, or acts on a task that it listed as abandoned
and that runs under the epoch that it listed; every other task stays as it is. -/
def RetiresClassified (r : Recovery) (events : Schedule) : Prop :=
  ∀ first index between rest workspaceId env,
    events = first ++ .advance index :: between ++ .advance index :: rest →
    (reached first).calls[index]? = some (.recover r workspaceId env) →
    let w := reached (first ++ .advance index :: between)
    let after := queue.next w (.advance index)
    after.store = w.store ∨ ∃ task ∈ listRunning workspaceId (reached first).store,
      (r.departure env task).isSome ∧
      (∃ row ∈ w.store.tasks, row.id = task.id ∧ row.status = .running ∧
        row.executionEpoch = task.executionEpoch) ∧
      ∀ other ∈ w.store.tasks, other.id ≠ task.id → other ∈ after.store.tasks

/- A running row ran before under the same epoch, or this step claimed it. -/
theorem changeRuns {call before after emitted} (change : Change call before after emitted) {later}
    (member : later ∈ after.tasks) (running : later.status = .running) :
    (∃ row ∈ before.tasks, row.id = later.id ∧ row.status = .running ∧
      row.executionEpoch = later.executionEpoch) ∨
    ∃ row claimed now, .claimed row claimed now ∈ emitted ∧ row.id = later.id := by
  have kept {sel : TaskRecord → Bool} {set : TaskRecord → TaskRecord} (member : later ∈ update sel set before.tasks)
      (same : ∀ row, sel row → (set row).status = .running → (set row).id = row.id ∧ row.status = .running ∧
        (set row).executionEpoch = row.executionEpoch) :
      ∃ row ∈ before.tasks, row.id = later.id ∧ row.status = .running ∧ row.executionEpoch = later.executionEpoch := by
    obtain ⟨row,old,rfl⟩ := memUpdate.mp member
    split at running
    · rename_i hit
      obtain ⟨id,was,epoch⟩ := same row hit running
      exact ⟨row,old,by rw [if_pos hit,id],was,by rw [if_pos hit,epoch]⟩
    · rename_i miss
      exact ⟨row,old,by rw [if_neg miss],running,by rw [if_neg miss]⟩
  cases change with
  | quiet => exact .inl ⟨later,member,rfl,running,rfl⟩
  | create =>
    rcases List.mem_append.mp member with old | new
    · exact .inl ⟨later,old,rfl,running,rfl⟩
    · rw [List.mem_singleton.mp new] at running
      cases running
  | @claim now workspace row claimed =>
    obtain ⟨source,old,rfl⟩ := memUpdate.mp member
    split at running
    · rename_i hit
      refine .inr ⟨row,claimed,now,List.mem_singleton.mpr rfl,?_⟩
      rw [if_pos hit]
      exact (pendingSource.mp hit).1.symm
    · rename_i miss
      exact .inl ⟨source,old,by rw [if_neg miss],running,by rw [if_neg miss]⟩
  | leave =>
    exact .inl (kept member fun row _ running => absurd ((departureStatus _ _ _ row).symm.trans running)
      (departureLeaves _ _))
  | cancelPending => exact .inl (kept member fun row _ running => by cases running)
  | cancelRunning => exact .inl (kept member fun row _ running => ⟨rfl,running,rfl⟩)
  | amend same =>
    exact .inl (kept member fun row _ running => ⟨(same row).id,(same row).status ▸ running,(same row).executionEpoch⟩)

/- A recovery between its list and its end. -/
inductive Acting (r : Recovery) (env : Surroundings) (listed : List TaskRecord) : Call → Prop where
  | ended (answer) : Acting r env listed (.answered answer)
  | task {current todo recovered} (d task) (member : task ∈ listed) (left : ∀ other ∈ todo, other ∈ listed)
      (classified : r.departure env task = some d)
      (stage : current = .leave d task.id (r.epoch task) env.now ∨
        (∃ row, current = .leaving d task.id (r.epoch task) env.now row) ∨ current = .getTask task.id) :
      Acting r env listed (.recovering r env current todo recovered)

theorem recoverNextActing {r env listed recovered todo} (left : ∀ task ∈ todo, task ∈ listed) :
    Acting r env listed (recoverNext r env recovered todo) ∧
      ∀ taskId ∈ (recoverNext r env recovered todo).awaiting, r = .queue ∧ taskId ∈ todo.map (·.id) := by
  induction todo with
  | nil => exact ⟨.ended _,by simp [recoverNext,Call.awaiting]⟩
  | cons task rest ih =>
    have rest := ih fun other member => left other (List.mem_cons_of_mem _ member)
    unfold recoverNext
    cases classified : r.departure env task with
    | none => exact ⟨rest.1,fun taskId awaits => (rest.2 taskId awaits).imp_right (List.mem_cons_of_mem _)⟩
    | some d =>
      refine ⟨.task d task (left task List.mem_cons_self)
        (fun other member => left other (List.mem_cons_of_mem _ member)) classified (.inl rfl),?_⟩
      cases r with
      | worker => simp [Call.awaiting]
      | queue => simp [Call.awaiting,Call.departs]

theorem actingStep {r env listed call tables} (acting : Acting r env listed call) :
    Acting r env listed (step call tables).1 ∧ ∀ taskId ∈ (step call tables).1.awaiting, taskId ∈ call.awaiting := by
  cases acting with
  | ended answer => exact ⟨.ended _,fun _ member => member⟩
  | @task current todo recovered d task member left classified stage =>
    have next := @recoverNextActing r env listed
    rcases stage with rfl | ⟨row,rfl⟩ | rfl
    · simp only [step,readRunning]
      split
      · exact ⟨.ended _,by simp [recoverOn,Call.awaiting]⟩
      · refine ⟨.task d task member left classified (.inr (.inl ⟨_,rfl⟩)),fun taskId awaits => ?_⟩
        cases r with
        | worker => cases awaits
        | queue => exact awaits
    · simp only [step]
      split
      · exact ⟨.ended _,by simp [reject,recoverOn,Call.awaiting]⟩
      · refine ⟨.task d task member left classified (.inr (.inr rfl)),fun taskId awaits => ?_⟩
        cases r with
        | worker => cases awaits
        | queue =>
          simp only [recoverOn,Call.awaiting,Call.departs,Option.toList_none,List.nil_append] at awaits
          exact List.mem_append_right _ awaits
    · simp only [step,Tasks.getTask]
      split
      · exact ⟨.ended _,by simp [recoverOn,Call.awaiting]⟩
      · obtain ⟨acts,awaits⟩ := @next (recovered ++ [_]) todo left
        refine ⟨acts,fun taskId waits => ?_⟩
        obtain ⟨rfl,todo⟩ := awaits taskId waits
        exact List.mem_append_right _ todo

/- What the induction over a run carries: the recovery goes on or has ended, and a running task
that it awaits still runs under the epoch that it listed. -/
structure Recovers (r : Recovery) (env : Surroundings) (listed : List TaskRecord) (index : Nat)
    (w : World Call Tables Emitted) : Prop where
  unique : UniqueBy (·.id) w.store.tasks
  acting : ∃ call, w.calls[index]? = some call ∧ Acting r env listed call ∧
    ∀ task ∈ listed, task.id ∈ call.awaiting → ∀ row ∈ w.store.tasks, row.id = task.id →
      row.status = .running → row.executionEpoch = task.executionEpoch

theorem nextRecovers {r env listed index w event} (undisturbed : r = .queue → Undisturbed w event)
    (recovers : Recovers r env listed index w) : Recovers r env listed index (queue.next w event) := by
  obtain ⟨call,held,acting,epochs⟩ := recovers.acting
  cases event with
  | start op =>
    have inside : index < w.calls.length := (List.getElem?_eq_some_iff.mp held).1
    exact ⟨recovers.unique,call,by rw [nextStart]; simpa [List.getElem?_append_left inside] using held,acting,epochs⟩
  | advance other =>
    cases found : w.calls[other]? with
    | none => rw [nextIdle found]; exact recovers
    | some moved =>
      rw [nextAdvance found]
      have change := stepChange moved w.store
      have kept : ∀ task ∈ listed, task.id ∈ call.awaiting → ∀ row ∈ (step moved w.store).2.1.tasks,
          row.id = task.id → row.status = .running → row.executionEpoch = task.executionEpoch := by
        intro task member awaits row present named running
        rcases changeRuns change present running with ⟨old,there,same,was,epoch⟩ | ⟨source,claimed,now,logged,same⟩
        · exact epoch ▸ epochs task member awaits old there (same.trans named) was
        · have queued : r = .queue := by
            cases acting with
            | ended => cases awaits
            | task => cases r with
              | queue => rfl
              | worker => cases awaits
          have clear := undisturbed queued moved found _ logged call (List.mem_of_getElem? held)
          exact absurd (same.trans named ▸ awaits) clear
      refine ⟨changeUnique change recovers.unique,?_⟩
      by_cases own : index = other
      · subst own
        obtain rfl : call = moved := Option.some.inj (held.symm.trans found)
        obtain ⟨acts,fewer⟩ := @actingStep r env listed call w.store acting
        refine ⟨_,List.getElem?_set_self (List.getElem?_eq_some_iff.mp held).1,acts,fun task member awaits => kept task member (fewer _ awaits)⟩
      · exact ⟨call,by simpa [List.getElem?_set_ne (Ne.symm own)] using held,acting,kept⟩

/- What the write of a recovery finds. -/
theorem actingRetires {r env listed call tables} (acting : Acting r env listed call)
    (epochs : ∀ task ∈ listed, task.id ∈ call.awaiting → ∀ row ∈ tables.tasks, row.id = task.id →
      row.status = .running → row.executionEpoch = task.executionEpoch) :
    (step call tables).2.1 = tables ∨ ∃ task ∈ listed, (r.departure env task).isSome ∧
      (∃ row ∈ tables.tasks, row.id = task.id ∧ row.status = .running ∧
        row.executionEpoch = task.executionEpoch) ∧
      ∀ other ∈ tables.tasks, other.id ≠ task.id → other ∈ (step call tables).2.1.tasks := by
  cases acting with
  | ended answer => exact .inl rfl
  | @task current todo recovered d task member left classified stage =>
    rcases stage with rfl | ⟨row,rfl⟩ | rfl
    · exact .inl rfl
    · cases done : leaveRunning d task.id (r.epoch task) env.now row tables with
      | error error => exact .inl (by simp only [step,done,reject])
      | ok result =>
        obtain ⟨current,run,after⟩ := result
        obtain ⟨found,present,_,_,rfl⟩ := leaveRunningSource done
        obtain ⟨there,selected⟩ := findSome present
        obtain ⟨named,running,fenced⟩ := runningTaskSource.mp selected
        have epoch : found.executionEpoch = task.executionEpoch := by
          cases r with
          | worker => exact (fenced task.executionEpoch rfl)
          | queue => exact epochs task member (by simp [Call.awaiting,Call.departs]) found there named running
        refine .inr ⟨task,member,by simp [classified],⟨found,there,named,running,epoch⟩,fun other here apart => ?_⟩
        simp only [step,done]
        refine memUpdate.mpr ⟨other,here,?_⟩
        rw [if_neg fun hit => apart (runningTaskSource.mp hit).1]
    · exact .inl rfl

theorem runRecovers {r env listed index w events} (undisturbed : r = .queue → Meets queue Undisturbed w events)
    (recovers : Recovers r env listed index w) : Recovers r env listed index (queue.run w events) := by
  induction events generalizing w with
  | nil => exact recovers
  | cons event rest ih =>
    exact ih (fun queued => (undisturbed queued).2) (nextRecovers (fun queued => (undisturbed queued).1) recovers)

theorem recoveryRetires {r events} (undisturbed : r = .queue → Meets queue Undisturbed (idle empty) events) :
    RetiresClassified r events := by
  rintro first index between rest workspaceId env rfl called
  have later (queued : r = .queue) : Meets queue Undisturbed (queue.next (reached first) (.advance index)) between := by
    have meets := undisturbed queued
    rw [List.append_assoc,meetsAppend] at meets
    exact (meetsAppend.mp meets.2.2).1
  have listing : queue.next (reached first) (.advance index) = ⟨(reached first).store,(reached first).calls.set index
      (recoverNext r env [] (listRunning workspaceId (reached first).store)),(reached first).trace⟩ := nextAdvance called
  have begun : Recovers r env (listRunning workspaceId (reached first).store) index
      (queue.next (reached first) (.advance index)) := by
    rw [listing]
    refine ⟨(reachedLane first).unique,_,List.getElem?_set_self (List.getElem?_eq_some_iff.mp called).1,
      (recoverNextActing fun _ member => member).1,fun task member _ row present same _ => ?_⟩
    have there : task ∈ (reached first).store.tasks :=
      List.mem_of_mem_filter ((List.mem_insertionSort _).mp (List.mem_of_mem_take member))
    rw [equalOfKey (reachedLane first).unique present there same]
  have recovers : Recovers r env (listRunning workspaceId (reached first).store) index
      (reached (first ++ .advance index :: between)) := by
    have split : reached (first ++ .advance index :: between) =
        queue.run (queue.next (reached first) (.advance index)) between := by simp [reached,Machine.run]
    rw [split]
    exact runRecovers later begun
  obtain ⟨call,held,acting,epochs⟩ := recovers.acting
  dsimp only
  rw [nextAdvance held]
  exact actingRetires acting epochs

/- The worker's recovery retires only attempts that it classified, in every run. The queue's does
so in every run in which no task is claimed while it awaits it. -/
theorem recoveryRetiresClassified (events : Schedule) : RetiresClassified .worker events ∧
    (Meets queue Undisturbed (idle empty) events → RetiresClassified .queue events) :=
  ⟨recoveryRetires (by simp),fun undisturbed => recoveryRetires fun _ => undisturbed⟩

/- The clock stands at 400 and no process is alive. -/
def deadWorld : Surroundings where
  now := 400
  staleAfterSeconds := 300
  retryDelaySeconds := 5
  alive _ := false
  attempt _ := none
  startupStartedAt _ := none
  startupActive _ := false
  owned _ := false
  includeOwnedTask := false

/- A task runs for long under its first epoch, and the queue's recovery lists it. -/
def listsAbandoned : Schedule := [.start (.enqueue (sampleRequest "system1-ingest" "t" 3 0)),.advance 0,
  .start (.claimNext 1 .any),.advance 1,.start (.recover .queue none deadWorld)]

/- Meanwhile its worker gives it back, and another claims it. -/
def claimsAgain : Schedule := [.start (.leave (.retryRunningTask "busy") "t" (some 1) 400),.advance 3,.advance 3,
  .start (.claimNext 401 .any),.advance 4,.advance 2]

theorem recoveryRetiresSample : RetiresClassified .queue (listsAbandoned ++ [.advance 2,.advance 2,.advance 2]) :=
  (recoveryRetiresClassified _).2 (by decide)

/- The recovery puts the second, live attempt back to pending. -/
theorem recoveryRetiresLive :
    let before := reached (listsAbandoned ++ .advance 2 :: claimsAgain)
    before.store.tasks.map (fun task => (task.status,task.executionEpoch)) = [(.running,2)] ∧
    (queue.next before (.advance 2)).store.tasks.map (fun task => (task.status,task.executionEpoch)) = [(.pending,2)] ∧
    ¬ RetiresClassified .queue (listsAbandoned ++ .advance 2 :: claimsAgain ++ [.advance 2]) := by
  refine ⟨by decide,by decide,fun retires => ?_⟩
  have listed : ∀ task ∈ listRunning none (reached listsAbandoned).store, task.executionEpoch = 1 := by decide
  have live : ∀ row ∈ (reached (listsAbandoned ++ .advance 2 :: claimsAgain)).store.tasks, row.executionEpoch = 2 := by
    decide
  rcases retires listsAbandoned 2 claimsAgain [] none deadWorld rfl rfl with same | ⟨task,member,_,⟨row,there,_,_,epoch⟩,_⟩
  · have status := congrArg (fun tables : Tables => tables.tasks.map (·.status)) same
    revert status
    decide
  · rw [listed task member,live row there] at epoch
    cases epoch

end McpMemory.Tasks
