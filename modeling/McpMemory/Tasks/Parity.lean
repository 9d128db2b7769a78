import McpMemory.Tasks.Backends
import McpMemory.Tasks.Change

/-! When the two queues answer alike and hold the same tasks and runs. -/
namespace McpMemory.Tasks
open Interleave Table
open Attempts.Sqlite (binds)
open Attempts.Postgres (isText isInteger)
open Postgres (isJsonb)
open SqliteTaskQueue (Session)
open PostgresTaskQueue (isStorable isStorableRun)

/- What the key and the columns of `tasks` say of tables that both queues hold, and what every
operation keeps of the retries. -/
structure Stored (tables : Tables) : Prop where
  unique : UniqueBy (·.id) tables.tasks
  storable : ∀ task ∈ tables.tasks, isStorable task
  retries : ∀ task ∈ tables.tasks, task.status.opened → task.retriesCount < max task.maxRetries 1

/- An INSERT that SQLite takes. -/
def Creates (tables : Tables) (req : EnqueueRequest) : Prop :=
  Text.strip req.taskName ≠ "" → binds req.priority → binds req.maxRetries →
    (∀ task ∈ tables.tasks, task.id ≠ req.identifier) → isStorable req.row

def Leaves (tables : Tables) (d : Departure) (taskId : String) (executionEpoch : Option Int) (now : Seconds) : Prop :=
  ∀ row, getRunningTaskRow tables taskId executionEpoch = some row →
    isStorable (d.set now row row) ∧ isStorableRun (d.run now taskId row tables)

def Touches (tables : Tables) (t : Touch) (taskId : String) (executionEpoch : Option Int) (now : Seconds) : Prop :=
  ∀ row, getRunningTaskRow tables taskId executionEpoch = some row → t.bound.all binds → isStorable (t.set now row)

def Cancels (tables : Tables) (req : CancelRequest) : Prop :=
  ∀ row, findTask tables req.taskId = some row → row.status.opened → isText req.reason ∧ isText req.cancelledBy

/- The tasks of the list that the loop gives up. -/
def abandoned (env : Surroundings) (rows : List TaskRecord) : List TaskRecord :=
  (latest rows).filter fun task => (abandonedDeparture env task).isSome

/- What an operation needs of its arguments and of the state that it starts from. -/
def Fits (operation : Operation) (s : Session) : Prop :=
  match operation with
  | .enqueue req => Creates s.tables req
  | .enqueueUnique req =>
    Determined oldest (openRows req.taskName req.workspaceId s.tables) ∧
      (openRows req.taskName req.workspaceId s.tables = [] → Creates s.tables { req with taskId := none })
  | .claimNext now workspace =>
    s.inTransaction = false ∧ PostgresTaskQueue.isTextFilter workspace ∧
      Determined foremost (claimableRows now workspace s.tables) ∧
      ∀ row, foremost (claimableRows now workspace s.tables) = some row → isInteger (row.executionEpoch + 1)
  | .leave d taskId epoch now => Leaves s.tables d taskId epoch now
  | .touch t taskId epoch now => Touches s.tables t taskId epoch now
  | .requestCancel req => Cancels s.tables req
  | .recoverAbandonedRunningTasks workspaceId env =>
    workspaceId.all isText ∧ Determined (abandoned env) (runningRows workspaceId s.tables)

/- Both accept with one answer or both reject, and the tables are the same. -/
structure Same {α : Type} (reply : Reply Session α) (other : Reply Tables α) : Prop where
  answer : reply.1.toOption = other.1.toOption
  tables : reply.2.tables = other.2

theorem sameMap {α β : Type} {f : α → β} {reply : Reply Session α} {other : Reply Tables α} (same : Same reply other) :
    Same (Reply.map f reply) (Reply.map f other) := by
  obtain ⟨answer,tables⟩ := same
  refine ⟨?_,tables⟩
  obtain ⟨error | a,after⟩ := reply <;> obtain ⟨fault | b,left⟩ := other
  · rfl
  · cases answer
  · cases answer
  · cases answer
    rfl

theorem sameAccepted {reply : Reply Session Answer} {other : Reply Tables Answer} (same : Same reply other) :
    Prod.map id (·.tables) (accepted reply) = accepted other := Prod.ext same.answer same.tables

section
variable {tables : Tables} {row : TaskRecord}

theorem textSource {text : String} : isText text = true ↔ '\x00' ∉ text.toList := by
  simp [isText]

theorem integerBound {n : Int} (fits : isInteger n = true) : binds n = true := by
  simp only [isInteger,binds,Bool.and_eq_true,decide_eq_true_eq] at *
  omega

theorem textStrip {text : String} (plain : isText (Text.strip text) = true) : isText text = true :=
  textSource.mpr fun member => textSource.mp plain (Text.stripKeeps member (by decide))

theorem rowSource {taskId epoch} (found : getRunningTaskRow tables taskId epoch = some row) :
    row ∈ tables.tasks ∧ row.id = taskId ∧ row.status = .running ∧ ∀ e, epoch = some e → row.executionEpoch = e := by
  obtain ⟨member,selected⟩ := findSome found
  exact ⟨member,runningTaskSource.mp selected⟩

theorem storedText (stored : Stored tables) (member : row ∈ tables.tasks) : isText row.id = true := by
  have fits := stored.storable row member
  simp only [isStorable,Bool.and_eq_true] at fits
  exact fits.1.1.1.1.1.1.1.1.1.1.1.1

theorem storedEpoch (stored : Stored tables) (member : row ∈ tables.tasks) : isInteger row.executionEpoch = true := by
  have fits := stored.storable row member
  simp only [isStorable,Bool.and_eq_true] at fits
  exact fits.1.1.1.1.1.1.1.1.2

/- One row changes. -/
theorem storedUpdate {sel : TaskRecord → Bool} {set : TaskRecord → TaskRecord} {runs} (stored : Stored tables)
    (only : ∀ other ∈ tables.tasks, sel other → other = row) (named : ∀ task, (set task).id = task.id)
    (fits : isStorable (set row)) (retries : (set row).status.opened → (set row).retriesCount < max (set row).maxRetries 1) :
    Stored ⟨update sel set tables.tasks,runs⟩ where
  unique := updateUnique (fun task _ _ => named task) stored.unique
  storable later member := by
    obtain ⟨old,there,rfl⟩ := memUpdate.mp member
    split
    · rename_i selected
      rw [only old there selected]
      exact fits
    · exact stored.storable old there
  retries later member := by
    obtain ⟨old,there,rfl⟩ := memUpdate.mp member
    split
    · rename_i selected
      rw [only old there selected]
      exact retries
    · exact stored.retries old there

theorem runningOnly {taskId epoch} (stored : Stored tables) (found : getRunningTaskRow tables taskId epoch = some row) :
    ∀ other ∈ tables.tasks, runningTask taskId epoch other → other = row := by
  intro other there selected
  obtain ⟨member,named,_⟩ := rowSource found
  exact equalOfKey stored.unique there member ((runningTaskSource.mp selected).1.trans named.symm)

theorem departureRetries {d : Departure} {now} (bound : row.retriesCount < max row.maxRetries 1)
    (opened : (d.set now row row).status.opened = true) :
    (d.set now row row).retriesCount < max (d.set now row row).maxRetries 1 := by
  cases d with
  | complete | failPermanently | finalizeCancellation => cases opened
  | retryRunningTask => exact bound
  | fail error delay =>
    cases terminal : failTerminal row with
    | true => simp [Departure.set,failSet,terminal,Status.opened] at opened
    | false =>
      simp only [failTerminal,decide_eq_false_iff_not] at terminal
      simp only [Departure.set,failSet]
      omega

end

section
variable {s : Session} {tables : Tables}

theorem leaveFound {d : Departure} {taskId epoch now row} (found : getRunningTaskRow tables taskId epoch = some row) :
    leaveRunning d taskId epoch now row tables = .ok (row.executionEpoch,d.run now taskId row tables,
      ⟨update (runningTask taskId epoch) (d.set now row) tables.tasks,
        tables.taskRuns ++ [d.run now taskId row tables]⟩) := by
  unfold leaveRunning
  rw [show tables.tasks.find? (runningTask taskId epoch) = some row from found]

theorem boundFits {d : Departure} {now row} (fits : isStorable (d.set now row row) = true) :
    (d.bound row).all binds = true := by
  cases d with
  | complete | failPermanently | retryRunningTask | finalizeCancellation => rfl
  | fail error delay =>
    simp only [isStorable,Bool.and_eq_true] at fits
    exact integerBound fits.1.1.1.1.1.1.2

theorem leaveSame {d : Departure} {taskId epoch now} (stored : Stored s.tables)
    (leaves : Leaves s.tables d taskId epoch now) :
    Same (SqliteTaskQueue.leave d taskId epoch now s) (PostgresTaskQueue.leave d taskId epoch now s.tables) := by
  unfold SqliteTaskQueue.leave PostgresTaskQueue.leave
  cases found : getRunningTaskRow s.tables taskId epoch with
  | none =>
    dsimp only
    split <;> split <;> exact ⟨rfl,rfl⟩
  | some row =>
    obtain ⟨member,rfl,_,named⟩ := rowSource found
    obtain ⟨fits,fitsRun⟩ := leaves row found
    have bound : epoch.all binds = true := by
      cases epoch with
      | none => rfl
      | some e => exact named e rfl ▸ integerBound (storedEpoch stored member)
    simp only [bound,storedText stored member,boundFits fits,leaveFound found,fits,fitsRun,Bool.not_true,
      Bool.false_eq_true,Bool.and_self,if_false,if_true]
    exact ⟨rfl,rfl⟩

theorem leaveStored {d : Departure} {taskId epoch now} (stored : Stored tables) :
    Stored (PostgresTaskQueue.leave d taskId epoch now tables).2 := by
  unfold PostgresTaskQueue.leave
  split
  · exact stored
  · split
    · exact stored
    · rename_i row found
      rw [leaveFound found]
      dsimp only
      split
      · rename_i fits
        obtain ⟨member,_,running,_⟩ := rowSource found
        refine storedUpdate stored (runningOnly stored found) (fun task => departureId d now row task)
          (Bool.and_eq_true _ _ |>.mp fits).1 (departureRetries (stored.retries row member ?_))
        rw [running]
        rfl
      · exact stored

theorem touchSame {t : Touch} {taskId epoch now} (stored : Stored s.tables) (touches : Touches s.tables t taskId epoch now) :
    Same (SqliteTaskQueue.touch t taskId epoch now s) (PostgresTaskQueue.touch t taskId epoch now s.tables) := by
  unfold SqliteTaskQueue.touch PostgresTaskQueue.touch touchRunning
  cases found : getRunningTaskRow s.tables taskId epoch with
  | none =>
    rw [show s.tables.tasks.find? (runningTask taskId epoch) = none from found]
    dsimp only
    split <;> split <;> exact ⟨rfl,rfl⟩
  | some row =>
    obtain ⟨member,rfl,_,named⟩ := rowSource found
    rw [show s.tables.tasks.find? (runningTask row.id epoch) = some row from found]
    have bound : epoch.all binds = true := by
      cases epoch with
      | none => rfl
      | some e => exact named e rfl ▸ integerBound (storedEpoch stored member)
    simp only [bound,storedText stored member,Bool.true_and,Bool.not_true,Bool.false_eq_true,if_false]
    cases pid : t.bound.all binds with
    | true =>
      simp only [touches row found pid,Bool.not_true,Bool.false_eq_true,if_false]
      exact ⟨rfl,rfl⟩
    | false =>
      -- what does not fit 64 bits does not fit 32
      have refused : isStorable (t.set now row) = false := by
        cases t with
        | touchRunningTask => cases pid
        | setRunningProcess subprocessPid requestId =>
          cases subprocessPid with
          | none => cases pid
          | some n =>
            have large : isInteger n = false := by
              cases fits : isInteger n with
              | false => rfl
              | true => exact absurd (integerBound fits) (by simpa [Touch.bound] using pid)
            simp [isStorable,Touch.set,large]
      simp only [refused,Bool.not_false,if_true]
      exact ⟨rfl,rfl⟩

theorem touchStored {t : Touch} {taskId epoch now} (stored : Stored tables) :
    Stored (PostgresTaskQueue.touch t taskId epoch now tables).2 := by
  unfold PostgresTaskQueue.touch touchRunning
  split
  · exact stored
  · split
    · exact stored
    · rename_i row found
      split
      · exact stored
      · rename_i fits
        rw [show tables.tasks.find? (runningTask taskId epoch) = some row from found]
        obtain ⟨member,_,running,_⟩ := rowSource found
        have kept : row.retriesCount < max row.maxRetries 1 := stored.retries row member (by rw [running]; rfl)
        refine storedUpdate stored (runningOnly stored found) (fun task => by cases t <;> rfl) (by simpa using fits) ?_
        cases t <;> exact fun _ => kept

theorem storedAppend {row : TaskRecord} {runs} (stored : Stored tables) (fresh : ∀ task ∈ tables.tasks, task.id ≠ row.id)
    (fits : isStorable row) (retries : row.retriesCount < max row.maxRetries 1) : Stored ⟨tables.tasks ++ [row],runs⟩ where
  unique := insertUnique fresh stored.unique
  storable task member := by
    rcases List.mem_append.mp member with old | new
    · exact stored.storable task old
    · exact List.mem_singleton.mp new ▸ fits
  retries task member := by
    rcases List.mem_append.mp member with old | new
    · exact stored.retries task old
    · exact fun _ => List.mem_singleton.mp new ▸ retries

theorem rowBound {req : EnqueueRequest} (fits : isStorable req.row = true) :
    (binds req.priority && binds req.maxRetries) = true := by
  simp only [isStorable,Bool.and_eq_true] at fits ⊢
  exact ⟨integerBound fits.1.1.1.1.1.1.1.2,integerBound fits.1.1.1.1.1.2⟩

theorem enqueueSame {req : EnqueueRequest} (creates : Creates s.tables req) :
    Same (SqliteTaskQueue.enqueue req s) (PostgresTaskQueue.enqueue req s.tables) := by
  unfold SqliteTaskQueue.enqueue PostgresTaskQueue.enqueue
  by_cases unnamed : Text.strip req.taskName = ""
  · rw [if_pos unnamed,if_pos unnamed]
    exact ⟨rfl,rfl⟩
  rw [if_neg unnamed,if_neg unnamed]
  cases fits : isStorable req.row with
  | true =>
    simp only [rowBound fits,Bool.not_true,Bool.false_eq_true,if_false]
    cases Tasks.enqueue req s.tables <;> exact ⟨rfl,rfl⟩
  | false =>
    simp only [Bool.not_false,if_true]
    split
    · exact ⟨rfl,rfl⟩
    · rename_i bound
      simp only [Bool.not_eq_true',Bool.not_eq_false,Bool.and_eq_true] at bound
      cases ran : Tasks.enqueue req s.tables with
      | error error => exact ⟨rfl,rfl⟩
      | ok after =>
        obtain ⟨named,fresh,_⟩ := enqueueSource ran
        rw [creates named bound.1 bound.2 fresh] at fits
        cases fits

theorem enqueueStored {req : EnqueueRequest} (stored : Stored tables) :
    Stored (PostgresTaskQueue.enqueue req tables).2 := by
  unfold PostgresTaskQueue.enqueue
  split
  · exact stored
  · split
    · exact stored
    · rename_i fits
      cases ran : Tasks.enqueue req tables with
      | error error => exact stored
      | ok after =>
        obtain ⟨_,fresh,rfl⟩ := enqueueSource ran
        refine storedAppend stored fresh (by simpa using fits) ?_
        simp only [EnqueueRequest.row]
        omega

end

section
variable {s : Session} {tables : Tables} {arrange other : List TaskRecord → List TaskRecord}

/- Without the name, what both queues look for is plain text. -/
theorem openText {taskName workspaceId row} (stored : Stored tables) (member : row ∈ openRows taskName workspaceId tables) :
    (isText taskName && workspaceId.all isText) = true := by
  obtain ⟨there,selected⟩ := List.mem_filter.mp member
  simp only [Bool.and_eq_true,beq_iff_eq] at selected
  obtain ⟨⟨rfl,rfl⟩,_⟩ := selected
  have fits := stored.storable row there
  simp only [isStorable,Bool.and_eq_true] at fits ⊢
  exact ⟨fits.1.1.1.1.1.1.1.1.1.1.1.2,fits.1.1.1.1.1.1.1.1.1.1.2⟩

theorem oldestMember {rows : List TaskRecord} {row} (found : oldest rows = some row) : row ∈ rows :=
  (List.mem_insertionSort _).mp (List.mem_of_mem_head? found)

theorem oldestNone {rows : List TaskRecord} (none : oldest rows = none) : rows = [] := by
  have empty := List.head?_eq_none_iff.mp none
  exact List.length_eq_zero_iff.mp ((List.length_insertionSort _ rows).symm.trans (congrArg List.length empty))

/- A rejected INSERT leaves the tables that it found. -/
theorem enqueueRejected {req fault after} (ran : SqliteTaskQueue.enqueue req s = (.error fault,after)) :
    after.tables = s.tables := by
  unfold SqliteTaskQueue.enqueue at ran
  split at ran
  · cases ran
    rfl
  · split at ran
    · cases ran
      rfl
    · split at ran
      · cases ran
        rfl
      · rename_i done
        obtain ⟨named,fresh,rfl⟩ := enqueueSource done
        simp [SqliteTaskQueue.committed,taskOf,findTask,EnqueueRequest.row] at ran

/- Where no open task is there, the second look finds none either. -/
theorem uniqueInserts {req : EnqueueRequest} (missing : ∀ t : Session, t.tables = s.tables →
      SqliteTaskQueue.findOpenTask arrange req.taskName req.workspaceId t = none) :
    SqliteTaskQueue.enqueueUnique arrange req s = Reply.map (·,true) (SqliteTaskQueue.enqueue { req with taskId := none } s) := by
  unfold SqliteTaskQueue.enqueueUnique
  rw [missing s rfl]
  cases ran : SqliteTaskQueue.enqueue { req with taskId := none } s with
  | mk answer after => cases answer with
    | ok task => rfl
    | error fault => cases fault with
      | overflow | operational | data => rfl
      | queue error => cases error with
        | valueError message => rfl
        | integrityError =>
          dsimp only
          rw [missing after (enqueueRejected ran)]
          rfl

theorem uniqueSame {req : EnqueueRequest} (arranges : ∀ rows, (arrange rows).Perm rows) (others : ∀ rows, (other rows).Perm rows)
    (stored : Stored s.tables) (determined : Determined oldest (openRows req.taskName req.workspaceId s.tables))
    (creates : openRows req.taskName req.workspaceId s.tables = [] → Creates s.tables { req with taskId := none }) :
    Same (SqliteTaskQueue.enqueueUnique arrange req s) (PostgresTaskQueue.enqueueUnique other req s.tables) := by
  have found (t : Session) (tables : t.tables = s.tables) :
      SqliteTaskQueue.findOpenTask arrange req.taskName req.workspaceId t =
        oldest (openRows req.taskName req.workspaceId s.tables) := by
    unfold SqliteTaskQueue.findOpenTask
    rw [tables]
    exact determinedArranged arranges determined
  cases looked : oldest (openRows req.taskName req.workspaceId s.tables) with
  | some existing =>
    unfold SqliteTaskQueue.enqueueUnique PostgresTaskQueue.enqueueUnique PostgresTaskQueue.findOpenTask
    rw [found s rfl,determinedArranged others determined,looked,if_pos (openText stored (oldestMember looked))]
    exact ⟨rfl,rfl⟩
  | none =>
    rw [uniqueInserts fun t tables => (found t tables).trans looked]
    have same := @sameMap _ _ (fun task => (task,true)) _ _ (enqueueSame (creates (oldestNone looked)))
    unfold PostgresTaskQueue.enqueueUnique PostgresTaskQueue.findOpenTask
    rw [determinedArranged others determined,looked]
    cases plain : isText req.taskName && req.workspaceId.all isText with
    | true => exact same
    | false =>
      -- the INSERT refuses a text that the look-up refuses
      have unstorable : isStorable (EnqueueRequest.row { req with taskId := none }) = false := by
        rw [Bool.eq_false_iff] at plain ⊢
        intro fits
        simp only [isStorable,Bool.and_eq_true,EnqueueRequest.row] at fits
        exact plain (Bool.and_eq_true _ _ |>.mpr ⟨textStrip fits.1.1.1.1.1.1.1.1.1.1.1.2,fits.1.1.1.1.1.1.1.1.1.1.2⟩)
      unfold PostgresTaskQueue.enqueue at same
      rw [unstorable] at same
      split at same
      · exact ⟨same.answer,same.tables⟩
      · exact ⟨same.answer,same.tables⟩

theorem uniqueStored {req : EnqueueRequest} (stored : Stored tables) :
    Stored (PostgresTaskQueue.enqueueUnique other req tables).2 := by
  unfold PostgresTaskQueue.enqueueUnique
  split
  · exact stored
  · exact stored
  · exact enqueueStored stored

/- The row is there under its id. -/
theorem findClaimed {now row} (stored : Stored tables) (member : row ∈ tables.tasks) (pending : row.status = .pending) :
    findTask { tables with tasks := update (pendingTask row.id) (claimSet now) tables.tasks } row.id =
      some (claimSet now row) := by
  have there : claimSet now row ∈ update (pendingTask row.id) (claimSet now) tables.tasks :=
    memUpdate.mpr ⟨row,member,by rw [if_pos (pendingSource.mpr ⟨rfl,pending⟩)]⟩
  have unique : UniqueBy (·.id) (update (pendingTask row.id) (claimSet now) tables.tasks) :=
    updateUnique (fun _ _ _ => rfl) stored.unique
  cases found : findTask { tables with tasks := update (pendingTask row.id) (claimSet now) tables.tasks } row.id with
  | none => exact absurd (findNone found _ there) (by simp [claimSet])
  | some task =>
    obtain ⟨inside,named⟩ := findSome found
    exact congrArg some (equalOfKey unique inside there (by simpa [claimSet] using named))

theorem claimOnly {row} (stored : Stored tables) (member : row ∈ tables.tasks) :
    ∀ other ∈ tables.tasks, pendingTask row.id other → other = row :=
  fun _ there selected => equalOfKey stored.unique there member (pendingSource.mp selected).1

theorem foremostMember {now workspace row} (found : foremost (claimableRows now workspace tables) = some row) :
    row ∈ tables.tasks ∧ row.status = .pending := by
  obtain ⟨member,ready⟩ := List.mem_filter.mp ((List.mem_insertionSort _).mp (List.mem_of_mem_head? found))
  simp only [claimable,Bool.and_eq_true,beq_iff_eq] at ready
  exact ⟨member,ready.1.1.1⟩

theorem claimSame {now workspace} (arranges : ∀ rows, (arrange rows).Perm rows) (others : ∀ rows, (other rows).Perm rows)
    (stored : Stored s.tables) (outside : s.inTransaction = false) (plain : PostgresTaskQueue.isTextFilter workspace)
    (determined : Determined foremost (claimableRows now workspace s.tables))
    (epochs : ∀ row, foremost (claimableRows now workspace s.tables) = some row → isInteger (row.executionEpoch + 1)) :
    Same (SqliteTaskQueue.claimNext arrange now workspace s) (PostgresTaskQueue.claimNext other now workspace s.tables) := by
  unfold SqliteTaskQueue.claimNext PostgresTaskQueue.claimNext PostgresTaskQueue.claimRow
  rw [outside,plain,determinedArranged arranges determined,determinedArranged others determined]
  simp only [Bool.false_eq_true,if_false,Bool.not_true]
  cases found : foremost (claimableRows now workspace s.tables) with
  | none => exact ⟨rfl,rfl⟩
  | some row =>
    dsimp only
    rw [ite_self]
    dsimp only
    rw [epochs row found]
    simp only [Bool.not_true,Bool.false_eq_true,if_false]
    obtain ⟨member,pending⟩ := foremostMember found
    split
    · refine ⟨?_,rfl⟩
      simp only [Reply.map,PostgresTaskQueue.committed,taskOf]
      rw [findClaimed stored member pending]
      rfl
    · exact ⟨rfl,rfl⟩

theorem claimStored {now workspace} (others : ∀ rows, (other rows).Perm rows) (stored : Stored tables) :
    Stored (PostgresTaskQueue.claimNext other now workspace tables).2 := by
  unfold PostgresTaskQueue.claimNext
  split
  · exact stored
  · split
    · exact stored
    · rename_i row found
      split
      · exact stored
      · rename_i epoch
        split
        · have first : foremost (other (claimableRows now workspace tables)) = some row := by
            unfold PostgresTaskQueue.claimRow at found
            split at found
            · cases found
            · rename_i first
              split at found
              · exact found
              · rw [← found,first]
          have inside := (others _).mem_iff.mp ((List.mem_insertionSort _).mp (List.mem_of_mem_head? first))
          obtain ⟨member,ready⟩ := List.mem_filter.mp inside
          simp only [claimable,Bool.and_eq_true,beq_iff_eq] at ready
          have fits := stored.storable row member
          refine storedUpdate stored (claimOnly stored member) (fun _ => rfl) ?_ fun _ =>
            stored.retries row member (by rw [ready.1.1.1]; rfl)
          simp only [isStorable,claimSet,Bool.and_eq_true,Option.all_none] at fits ⊢
          simp only [Bool.not_eq_true',Bool.not_eq_false] at epoch
          tauto
        · exact stored

end

section
variable {s : Session} {tables : Tables}

theorem taskSource {taskId row} (found : findTask tables taskId = some row) : row ∈ tables.tasks ∧ row.id = taskId := by
  obtain ⟨member,named⟩ := findSome found
  exact ⟨member,by simpa using named⟩

/- The one row of a key that the selection keeps is what it finds. -/
theorem findSelected {sel : TaskRecord → Bool} {taskId row} (stored : Stored tables) (found : findTask tables taskId = some row)
    (keyed : ∀ task, sel task → task.id = taskId) (selected : sel row) : tables.tasks.find? sel = some row := by
  obtain ⟨member,named⟩ := taskSource found
  cases other : tables.tasks.find? sel with
  | none => exact absurd selected (Bool.eq_false_iff.mp (findNone other row member))
  | some task =>
    obtain ⟨there,hit⟩ := findSome other
    rw [equalOfKey stored.unique there member ((keyed task hit).trans named.symm)]

theorem cancelPendingFits {req : CancelRequest} {row} (fits : isStorable row = true) :
    (isStorable (cancelPendingSet req row) && isStorableRun (cancelledRun req row tables)) =
      (isText req.taskId && isText req.reason && isText req.cancelledBy) := by
  simp only [isStorable,Bool.and_eq_true] at fits
  rw [Bool.eq_iff_iff]
  simp only [isStorable,isStorableRun,cancelPendingSet,cancelledRun,newTaskRun,isJsonb,Postgres.fieldsJsonb,Option.all_some,
    Option.all_none,Bool.and_eq_true]
  tauto

theorem cancelRunningFits {req : CancelRequest} {row} (fits : isStorable row = true) :
    isStorable (cancelRunningSet req row) = (isText req.reason && isText req.cancelledBy) := by
  simp only [isStorable,Bool.and_eq_true] at fits
  rw [Bool.eq_iff_iff]
  simp only [isStorable,cancelRunningSet,Option.all_some,Bool.and_eq_true]
  tauto

theorem cancelSame {req : CancelRequest} (stored : Stored s.tables) (cancels : Cancels s.tables req) :
    Same (SqliteTaskQueue.requestCancel req s) (PostgresTaskQueue.requestCancel req s.tables) := by
  unfold SqliteTaskQueue.requestCancel PostgresTaskQueue.requestCancel
  cases found : findTask s.tables req.taskId with
  | none =>
    dsimp only
    split <;> exact ⟨rfl,rfl⟩
  | some row =>
    obtain ⟨member,named⟩ := taskSource found
    have fits := stored.storable row member
    have plain : isText req.taskId = true := named ▸ storedText stored member
    simp only [plain,Bool.not_true,Bool.false_eq_true,if_false]
    by_cases pending : row.status = .pending
    · obtain ⟨reason,cancelledBy⟩ := cancels row found (by rw [pending]; rfl)
      have here : s.tables.tasks.find? (pendingTask req.taskId) = some row :=
        findSelected stored found (fun _ hit => (pendingSource.mp hit).1) (pendingSource.mpr ⟨named,pending⟩)
      simp only [pending,if_true,cancelPending,here,cancelPendingFits fits,plain,reason,cancelledBy,Bool.and_self]
      exact ⟨rfl,rfl⟩
    by_cases running : row.status = .running
    · obtain ⟨reason,cancelledBy⟩ := cancels row found (by rw [running]; rfl)
      have here : s.tables.tasks.find? (runningTask req.taskId none) = some row :=
        findSelected stored found (fun _ hit => (runningTaskSource.mp hit).1)
          (runningTaskSource.mpr ⟨named,running,fun _ none => by cases none⟩)
      rw [if_neg pending,if_neg pending,if_pos running,if_pos running]
      simp only [cancelRunning,here,cancelRunningFits fits,reason,cancelledBy,Bool.and_self,if_true]
      exact ⟨rfl,rfl⟩
    · rw [if_neg pending,if_neg pending,if_neg running,if_neg running]
      exact ⟨rfl,rfl⟩

theorem cancelStored {req : CancelRequest} (stored : Stored tables) :
    Stored (PostgresTaskQueue.requestCancel req tables).2 := by
  unfold PostgresTaskQueue.requestCancel
  split
  · exact stored
  · split
    · exact stored
    · rename_i row found
      obtain ⟨member,named⟩ := taskSource found
      have only {sel : TaskRecord → Bool} (keyed : ∀ task, sel task → task.id = req.taskId) :
          ∀ other ∈ tables.tasks, sel other → other = row := fun other there hit =>
        equalOfKey stored.unique there member ((keyed other hit).trans named.symm)
      split
      · unfold cancelPending
        cases tables.tasks.find? (pendingTask req.taskId) with
        | none => exact stored
        | some _ =>
          dsimp only
          split
          · rename_i fits
            exact storedUpdate stored (only fun _ hit => (pendingSource.mp hit).1) (fun _ => rfl)
              (Bool.and_eq_true _ _ |>.mp fits).1 (fun opened => by cases opened)
          · exact stored
      · split
        · rename_i running
          unfold cancelRunning
          cases tables.tasks.find? (runningTask req.taskId none) with
          | none => exact stored
          | some _ =>
            dsimp only
            split
            · rename_i fits
              exact storedUpdate stored (only fun _ hit => (runningTaskSource.mp hit).1) (fun _ => rfl) fits fun _ =>
                stored.retries row member (by rw [running]; rfl)
            · exact stored
        · exact stored

end

section
variable {s : Session} {tables : Tables} {arrange other : List TaskRecord → List TaskRecord} {env : Surroundings}

theorem textAppend {left right : String} : isText (left ++ right) = (isText left && isText right) := by
  rw [Bool.eq_iff_iff]
  simp only [textSource,String.toList_append,List.mem_append,Bool.and_eq_true]
  tauto

theorem textNat (n : Nat) : isText n.repr = true := by
  refine textSource.mpr fun member => ?_
  simp only [Nat.repr,String.toList_ofList] at member
  cases Nat.isDigit_of_mem_toDigits (by omega) (by omega) member

theorem textInt (n : Int) : isText (toString n) = true := by
  rw [Int.toString_eq_repr,Int.repr_eq_if]
  split
  · exact textNat _
  · rw [textAppend,textNat]
    decide

theorem exitedText (pid : Int) : isText (exitedUnexpectedly pid) = true := by
  unfold exitedUnexpectedly
  rw [textAppend,textAppend,textInt]
  decide

theorem abandonedPlain : isText abandonedText = true := by decide

theorem reasonText {row : TaskRecord} (fits : isStorable row = true) : isText (cancellationReason row) = true := by
  simp only [isStorable,Bool.and_eq_true] at fits
  unfold cancellationReason
  split
  · decide
  · rename_i reason given
    split
    · decide
    · have plain := fits.1.2
      rwa [given] at plain

/- The row and the run of a departure whose texts are plain. -/
theorem departureFits {d : Departure} {now} {row : TaskRecord} (fits : isStorable row = true)
    (bound : row.retriesCount < max row.maxRetries 1)
    (text : (d.errorText row).all isText = true) (result : isJsonb (.obj (d.result row)) = true) :
    isStorable (d.set now row row) ∧ isStorableRun (d.run now row.id row tables) := by
  simp only [isStorable,Bool.and_eq_true] at fits
  have next : isInteger (row.retriesCount + 1) = true := by
    have most := fits.1.1.1.1.1.2
    have least := fits.1.1.1.1.1.1.2
    simp only [isInteger,Bool.and_eq_true,decide_eq_true_eq] at most least ⊢
    omega
  constructor
  · cases d with
    | complete result =>
      simp only [Departure.set,completeSet,isStorable,Option.all_none,Bool.and_eq_true]
      tauto
    | fail error delay =>
      simp only [Departure.set,failSet,isStorable,Option.all_none,Bool.and_eq_true,Departure.errorText] at text ⊢
      tauto
    | failPermanently error =>
      simp only [Departure.set,failPermanentlySet,isStorable,Option.all_none,Bool.and_eq_true,Departure.errorText] at text ⊢
      tauto
    | retryRunningTask error =>
      simp only [Departure.set,retryRunningTaskSet,isStorable,Option.all_none,Bool.and_eq_true,Departure.errorText] at text ⊢
      tauto
    | finalizeCancellation =>
      simp only [Departure.set,finalizeCancellationSet,isStorable,Option.all_none,Bool.and_eq_true,Departure.errorText] at text ⊢
      tauto
  · simp only [Departure.run,newTaskRun,isStorableRun,text,result,Bool.and_eq_true]
    tauto

/- What recovery writes. -/
theorem abandonedLeaves {task d} (stored : Stored tables) (departs : abandonedDeparture env task = some d) :
    Leaves tables d task.id none env.now := by
  intro row found
  obtain ⟨member,named,running,_⟩ := rowSource found
  have fits := stored.storable row member
  have bound := stored.retries row member (by rw [running]; rfl)
  have plain : (d.errorText row).all isText = true ∧ isJsonb (.obj (d.result row)) = true := by
    have cancelled : (Departure.finalizeCancellation.errorText row).all isText = true ∧
        isJsonb (.obj (Departure.finalizeCancellation.result row)) = true := by
      have reason := reasonText fits
      simp only [isStorable,Bool.and_eq_true] at fits
      refine ⟨reason,?_⟩
      have named : isJsonb (optionJson row.cancelledBy) = true := by
        cases by_ : row.cancelledBy with
        | none => rfl
        | some name =>
          have plain := fits.2
          rw [by_] at plain
          exact plain
      have because : isJsonb (.str (cancellationReason row)) = true := reason
      simp only [Departure.result,isJsonb,Postgres.fieldsJsonb,named] at because ⊢
      simp only [because]
      decide
    unfold abandonedDeparture at departs
    dsimp only at departs
    split at departs
    · rename_i pid _
      split at departs
      · cases departs
      · split at departs
        · cases departs
        · split at departs
          · cases departs
            exact cancelled
          · cases departs
            refine ⟨?_,rfl⟩
            exact exitedText pid
    · split at departs
      · cases departs
        exact cancelled
      · split at departs
        · cases departs
          exact ⟨abandonedPlain,rfl⟩
        · cases departs
  rw [← named]
  exact departureFits fits bound plain.1 plain.2

theorem recoverEachSame {tasks recovered} (stored : Stored s.tables) :
    Same (recoverEach SqliteTaskQueue.leave env tasks recovered s)
      (recoverEach PostgresTaskQueue.leave env tasks recovered s.tables) := by
  induction tasks generalizing recovered s with
  | nil => exact ⟨rfl,rfl⟩
  | cons task rest ih =>
    unfold recoverEach
    cases departs : abandonedDeparture env task with
    | none => exact ih stored
    | some d =>
      have same := @leaveSame s d task.id none env.now stored (abandonedLeaves stored departs)
      have kept := @leaveStored s.tables d task.id none env.now stored
      dsimp only
      generalize SqliteTaskQueue.leave d task.id none env.now s = reply at *
      generalize PostgresTaskQueue.leave d task.id none env.now s.tables = answer at *
      obtain ⟨answers,tables⟩ := same
      obtain ⟨error | left,after⟩ := reply <;> obtain ⟨fault | right,held⟩ := answer
      · exact ⟨rfl,tables⟩
      · cases answers
      · cases answers
      · cases answers
        cases tables
        exact ih kept

theorem recoverEachStored {tasks recovered} (stored : Stored tables) :
    Stored (recoverEach PostgresTaskQueue.leave env tasks recovered tables).2 := by
  induction tasks generalizing recovered tables with
  | nil => exact stored
  | cons task rest ih =>
    unfold recoverEach
    cases abandonedDeparture env task with
    | none => exact ih stored
    | some d =>
      have kept := @leaveStored tables d task.id none env.now stored
      dsimp only
      generalize PostgresTaskQueue.leave d task.id none env.now tables = answer at *
      obtain ⟨fault | left,after⟩ := answer
      · exact kept
      · exact ih kept

/- The tasks that stay are passed over. -/
theorem recoverEachAbandoned {σ : Type} {leave : Departure → String → Option Int → Seconds → σ → Reply σ TaskRecord}
    {tasks recovered} {store : σ} : recoverEach leave env tasks recovered store =
      recoverEach leave env (tasks.filter fun task => (abandonedDeparture env task).isSome) recovered store := by
  induction tasks generalizing recovered store with
  | nil => rfl
  | cons task rest ih =>
    cases departs : abandonedDeparture env task with
    | none =>
      rw [List.filter_cons_of_neg (by simp [departs])]
      rw [← ih]
      conv => lhs; unfold recoverEach
      rw [departs]
    | some d =>
      rw [List.filter_cons_of_pos (by simp [departs])]
      unfold recoverEach
      rw [departs]
      dsimp only
      split
      · exact ih
      · rfl

theorem recoverSame {workspaceId} (arranges : ∀ rows, (arrange rows).Perm rows) (others : ∀ rows, (other rows).Perm rows)
    (stored : Stored s.tables) (plain : workspaceId.all isText = true)
    (determined : Determined (abandoned env) (runningRows workspaceId s.tables)) :
    Same (SqliteTaskQueue.recoverAbandonedRunningTasks arrange workspaceId env s)
      (PostgresTaskQueue.recoverAbandonedRunningTasks other workspaceId env s.tables) := by
  unfold SqliteTaskQueue.recoverAbandonedRunningTasks PostgresTaskQueue.recoverAbandonedRunningTasks
  rw [plain,recoverEachAbandoned,@recoverEachAbandoned _ _ PostgresTaskQueue.leave]
  have left := determinedArranged arranges determined
  have right := determinedArranged others determined
  unfold abandoned at left right
  rw [left,right]
  exact recoverEachSame stored

theorem recoverStored {workspaceId} (stored : Stored tables) :
    Stored (PostgresTaskQueue.recoverAbandonedRunningTasks other workspaceId env tables).2 := by
  unfold PostgresTaskQueue.recoverAbandonedRunningTasks
  split
  · exact stored
  · exact recoverEachStored stored

theorem performSame (arranges : ∀ rows, (arrange rows).Perm rows) (others : ∀ rows, (other rows).Perm rows) {operation}
    (stored : Stored s.tables) (fits : Fits operation s) :
    Same (SqliteTaskQueue.perform arrange operation s) (PostgresTaskQueue.perform other operation s.tables) := by
  cases operation with
  | enqueue req => exact sameMap (enqueueSame fits)
  | enqueueUnique req => exact sameMap (uniqueSame arranges others stored fits.1 fits.2)
  | claimNext now workspace =>
    obtain ⟨outside,plain,determined,epochs⟩ := fits
    exact sameMap (claimSame arranges others stored outside plain determined epochs)
  | leave d taskId epoch now => exact sameMap (leaveSame stored fits)
  | touch t taskId epoch now => exact sameMap (touchSame stored fits)
  | requestCancel req => exact sameMap (cancelSame stored fits)
  | recoverAbandonedRunningTasks workspaceId env => exact sameMap (recoverSame arranges others stored fits.1 fits.2)

theorem performStored (others : ∀ rows, (other rows).Perm rows) {operation} (stored : Stored tables) :
    Stored (PostgresTaskQueue.perform other operation tables).2 := by
  cases operation with
  | enqueue req => exact enqueueStored stored
  | enqueueUnique req => exact uniqueStored stored
  | claimNext now workspace => exact claimStored others stored
  | leave d taskId epoch now => exact leaveStored stored
  | touch t taskId epoch now => exact touchStored stored
  | requestCancel req => exact cancelStored stored
  | recoverAbandonedRunningTasks workspaceId env => exact recoverStored stored

end

/- The two queues, one operation after the other, from the empty tables. -/
def Agree (arrange other : List TaskRecord → List TaskRecord) (operations : List Operation) : Prop :=
  Simulates (·.tables) (fun operation s => accepted (SqliteTaskQueue.perform arrange operation s))
    (fun operation tables => accepted (PostgresTaskQueue.perform other operation tables)) ⟨empty,false⟩ operations

/- Every operation of the run fits the state that SQLite is in by then. -/
def AllFit (arrange : List TaskRecord → List TaskRecord) (operations : List Operation) : Prop :=
  Holding (fun operation s => (accepted (SqliteTaskQueue.perform arrange operation s)).2) Fits ⟨empty,false⟩ operations

/- In whatever order each database yields its rows, a run whose operations all fit has the same
answers and leaves the same tasks and runs after every operation. -/
theorem queuesAgree (arrange other : List TaskRecord → List TaskRecord) (operations : List Operation)
    (arranges : ∀ rows, (arrange rows).Perm rows) (others : ∀ rows, (other rows).Perm rows)
    (fit : AllFit arrange operations) : Agree arrange other operations := by
  have start : Stored empty := ⟨List.Pairwise.nil,fun _ none => absurd none List.not_mem_nil,
    fun _ none => absurd none List.not_mem_nil⟩
  refine @simulatesHolding _ _ _ _ (·.tables) (fun operation s => accepted (SqliteTaskQueue.perform arrange operation s))
    (fun operation tables => accepted (PostgresTaskQueue.perform other operation tables)) Fits (fun s => Stored s.tables)
    (fun operation s stored fits => ?_) ⟨empty,false⟩ operations start fit
  have same := performSame arranges others stored fits
  exact ⟨sameAccepted same,same.tables ▸ performStored others stored⟩

def sampleEnqueue (taskId : String) (now : Seconds) : Operation :=
  .enqueue ⟨"system1-ingest",[],none,100,3,none,some taskId,"drawn",now⟩

def sampleSurroundings : Surroundings where
  now := 400
  staleAfterSeconds := 300
  retryDelaySeconds := 5
  alive _ := false
  attempt _ := none
  startupStartedAt _ := none
  startupActive _ := false
  owned _ := false
  includeOwnedTask := false

/- A task runs with a provider process, which exits. -/
def sampleOperations : List Operation := [sampleEnqueue "t" 0,.claimNext 1 .any,
  .touch (.setRunningProcess (some 7) (some "r")) "t" (some 1) 2,.recoverAbandonedRunningTasks none sampleSurroundings]

theorem queuesAgreeSample : Agree id id sampleOperations := by
  refine queuesAgree id id sampleOperations (fun rows => .refl rows) (fun rows => .refl rows)
    ⟨fun _ _ _ _ => by decide +kernel,⟨by decide +kernel,by decide +kernel,determinedShort (by decide +kernel),?_⟩,?_,
      ⟨by decide +kernel,determinedShort (by decide +kernel)⟩,trivial⟩
  · exact allFound (by decide +kernel)
  · intro row found _
    exact @allFound _ (fun row => isStorable (Touch.set (.setRunningProcess (some 7) (some "r")) 2 row)) _
      (by decide +kernel) row found

/- A second task under the first one's id is refused by both, and then only PostgreSQL claims. -/
theorem claimRefused :
    let operations := [sampleEnqueue "t" 0,sampleEnqueue "t" 1]
    let s := reach (fun operation s => (SqliteTaskQueue.perform id operation s).2) ⟨empty,false⟩ operations
    (s.tables.tasks.length,s.inTransaction) = (1,true) ∧
    (SqliteTaskQueue.claimNext id 2 .any s).1.toOption.isSome = false ∧
    (PostgresTaskQueue.claimNext id 2 .any s.tables).1.toOption.isSome = true ∧
    ¬ Agree id id (operations ++ [.claimNext 2 .any]) := by
  refine ⟨by decide +kernel,by decide +kernel,by decide +kernel,fun agree => ?_⟩
  have third := agree [sampleEnqueue "t" 0,sampleEnqueue "t" 1] _ [] rfl
  exact absurd (congrArg (fun reply => reply.1.isSome) third) (by decide +kernel)

end McpMemory.Tasks
