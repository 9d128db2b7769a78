import McpMemory.Curation.Footprint
import McpMemory.Curation.Outcomes
import McpMemory.Curation.Reconciliation
import McpMemory.Tasks.Change

/-! Whether a pass of the reconciliation ends a run whose task is still running. A pass asks
for the task only where it finds no receipt, so that it is the lists of receipts that decide. -/
namespace McpMemory.Curation.Reconciliation
open Interleave Store Table Text

/- A run of a handler names its task and the execution of it. -/
def Owns (task : Tasks.TaskRecord) (run : CurationRun) : Prop :=
  run.frontierKey = "direct:" ++ task.id ∧ run.executionEpoch = some task.executionEpoch

/- No task that is running owns the run. -/
def Released (tasks : Tasks.Tables) (run : CurationRun) : Prop :=
  ∀ task ∈ tasks.tasks, task.status = .running → ¬ Owns task run

instance {task run} : Decidable (Owns task run) :=
  inferInstanceAs (Decidable (run.frontierKey = "direct:" ++ task.id ∧ run.executionEpoch = some task.executionEpoch))

instance {tasks run} : Decidable (Released tasks run) :=
  inferInstanceAs (Decidable (∀ task ∈ tasks.tasks, task.status = .running → ¬ Owns task run))

def Claimed (tasks : Tasks.Tables) (run : CurationRun) : Prop := ∀ taskId epoch,
  run.frontierKey = "direct:" ++ taskId → run.executionEpoch = some epoch →
    ∃ task ∈ tasks.tasks, task.id = taskId ∧ epoch ≤ task.executionEpoch

/- The task is found by what the run records of it. -/
def Traced (run : CurationRun) : Prop := ∀ taskId, run.frontierKey = "direct:" ++ taskId → run.taskId = some taskId

theorem tracedRead {run : CurationRun} : Traced run ↔
    ("direct:" ++ String.ofList (run.frontierKey.toList.drop 7) = run.frontierKey →
      run.taskId = some (String.ofList (run.frontierKey.toList.drop 7))) := by
  constructor
  · exact fun traced same => traced _ same.symm
  · intro traced taskId key
    have rest : String.ofList (run.frontierKey.toList.drop 7) = taskId := by simp [key]
    rw [← rest]
    exact traced (by rw [rest,key])

instance {run} : Decidable (Traced run) := decidable_of_iff' _ tracedRead

structure Recorded (tasks : Tasks.Tables) (run : CurationRun) : Prop where
  claimed : Claimed tasks run
  traced : run.executionEpoch.isSome → Traced run

/- What of a run no step changes. -/
def identityOf (run : CurationRun) := (run.runId,run.frontierKey,run.executionEpoch,run.taskId)

def Held (c : Curating) (run : CurationRun) : Prop := ∃ row ∈ c.runs, identityOf row = identityOf run

structure Sound (c : Curating) : Prop where
  tasks : UniqueBy (·.id) c.tasks.tasks
  runs : UniqueBy (·.runId) c.runs
  recorded : ∀ run ∈ c.runs, Recorded c.tasks run

/- What a step must not do to a run whose task is running: read a list of receipts that is not
empty. And the id of a task is to be the text of a UUID. -/
def Spared (c : Curating) : Call → Prop
  | .pass _ (.receipts turn) => listReceipts turn.run.runId 100 c.ledger ≠ [] → Released c.tasks turn.run
  | .handler _ (.looking run) => Traced run
  | _ => True

instance {c call} : Decidable (Spared c call) := match call with
  | .pass _ (.receipts turn) =>
    inferInstanceAs (Decidable (listReceipts turn.run.runId 100 c.ledger ≠ [] → Released c.tasks turn.run))
  | .handler _ (.looking run) => inferInstanceAs (Decidable (Traced run))
  | .pass _ .listing | .pass _ (.checking ..) | .pass _ (.reading ..) | .pass _ (.settling ..) | .pass _ (.latest ..)
  | .pass _ (.finalReceipts _) | .pass _ (.asking _) | .pass _ (.ending ..) | .pass _ (.missing ..) | .pass _ .finished
  | .handler _ (.claiming ..) | .handler _ (.creating _) | .handler _ (.again _) | .handler _ (.moving ..)
  | .handler _ (.working _) | .handler _ (.ending _) | .handler _ .finished | .queue _ | .execute _ | .createRun ..
  | .settle _ | .write _ | .done => .isTrue trivial

def SparedStep (w : World Call Curating Emitted) : Event Op → Prop
  | .start _ => True
  | .advance index => ∀ call ∈ w.calls[index]?, Spared w.store call

instance {w event} : Decidable (SparedStep w event) := match event with
  | .start _ => .isTrue trivial
  | .advance index => inferInstanceAs (Decidable (∀ call ∈ w.calls[index]?, Spared w.store call))

variable {env : RecoveryEnv} {c after : Curating} {run row : CurationRun}

theorem claimedSame (same : identityOf row = identityOf run) {tasks} (claimed : Claimed tasks row) : Claimed tasks run := by
  simp only [identityOf,Prod.mk.injEq] at same
  intro taskId epoch key at_
  exact claimed taskId epoch (same.2.1.trans key) (same.2.2.1.trans at_)

theorem recordedSame (same : identityOf row = identityOf run) {tasks} (recorded : Recorded tasks row) : Recorded tasks run := by
  refine ⟨claimedSame same recorded.claimed,fun some taskId key => ?_⟩
  simp only [identityOf,Prod.mk.injEq] at same
  rw [← same.2.2.2]
  exact recorded.traced (same.2.2.1 ▸ some) taskId (same.2.1.trans key)

theorem releasedSame (same : identityOf row = identityOf run) {tasks} (released : Released tasks row) : Released tasks run := by
  intro task member running owns
  simp only [identityOf,Prod.mk.injEq] at same
  exact released task member running ⟨same.2.1.trans owns.1,same.2.2.1.trans owns.2⟩

theorem heldRecorded (sound : Sound c) (held : Held c run) : Recorded c.tasks run := by
  obtain ⟨row,member,same⟩ := held
  exact recordedSame same (sound.recorded row member)

section
variable {call : Tasks.Call} {before later : Tasks.Tables} {emitted : List Tasks.Emitted}

theorem claimedChange (change : Tasks.Change call before later emitted) (claimed : Claimed before run) : Claimed later run := by
  intro taskId epoch key at_
  obtain ⟨task,member,rfl,le⟩ := claimed taskId epoch key at_
  obtain ⟨next,there,evolves⟩ := Tasks.changeEvolves change member
  exact ⟨next,there,evolves.id,le.trans evolves.epoch⟩

/- An execution that is over does not begin again. -/
theorem releasedChange (change : Tasks.Change call before later emitted) (unique : UniqueBy (·.id) before.tasks)
    (claimed : Claimed before run) (released : Released before run) : Released later run := by
  intro next member running owns
  rcases Tasks.changeOrigin change member with ⟨task,there,evolves⟩ | ⟨req,_,_,rfl,_,_⟩
  · obtain ⟨found,listed,same,le⟩ := claimed next.id next.executionEpoch owns.1 owns.2
    cases equalOfKey unique listed there (same.trans evolves.id)
    rcases evolves.running running with ⟨ran,epoch⟩ | lt
    · exact released _ there ran ⟨evolves.id ▸ owns.1,epoch ▸ owns.2⟩
    · omega
  · cases running

end

/- What one step keeps of the tables. -/
structure Later (before after : Curating) : Prop where
  held : ∀ run, Held before run → Held after run
  claimed : ∀ run, Claimed before.tasks run → Claimed after.tasks run
  released : ∀ run, Claimed before.tasks run → Released before.tasks run → Released after.tasks run

theorem laterRuns (tasks : after.tasks = c.tasks) (held : ∀ run ∈ c.runs, ∃ row ∈ after.runs, identityOf row = identityOf run) :
    Later c after := by
  refine ⟨?_,fun run claimed => tasks ▸ claimed,fun run _ released => tasks ▸ released⟩
  rintro run ⟨row,member,same⟩
  obtain ⟨next,there,kept⟩ := held row member
  exact ⟨next,there,kept.trans same⟩

theorem laterSame (tasks : after.tasks = c.tasks) (runs : after.runs = c.runs) : Later c after :=
  laterRuns tasks fun run member => ⟨run,runs ▸ member,rfl⟩

theorem soundSame (tasks : after.tasks = c.tasks) (runs : after.runs = c.runs) (sound : Sound c) : Sound after :=
  ⟨tasks ▸ sound.tasks,runs ▸ sound.runs,fun run member => tasks ▸ sound.recorded run (runs ▸ member)⟩

theorem queueKeeps {call : Tasks.Call} {tasks emitted} (change : Tasks.Change call c.tasks tasks emitted) (sound : Sound c) :
    Sound { c with tasks := tasks } ∧ Later c { c with tasks := tasks } := by
  refine ⟨⟨Tasks.changeUnique change sound.tasks,sound.runs,fun run member => ?_⟩,fun run held => held,
    fun run => claimedChange change,fun run => releasedChange change sound.tasks⟩
  obtain ⟨claimed,traced⟩ := sound.recorded run member
  exact ⟨claimedChange change claimed,traced⟩

/- A row that is new. -/
theorem insertKeeps (sound : Sound c) (fresh : getRun run.runId c.ledger = none) (recorded : Recorded c.tasks run)
    (tasks : after.tasks = c.tasks) (runs : after.runs = c.runs ++ [run]) : Sound after ∧ Later c after := by
  refine ⟨⟨tasks ▸ sound.tasks,?_,?_⟩,laterRuns tasks fun row member => ⟨row,runs ▸ List.mem_append_left _ member,rfl⟩⟩
  · rw [runs]
    exact insertUnique (fun row member same => by simpa [same] using findNone fresh row member) sound.runs
  · rw [runs,tasks]
    intro row member
    rcases List.mem_append.mp member with old | new
    · exact sound.recorded row old
    · exact List.mem_singleton.mp new ▸ recorded

/- A run that a call writes or answers is one of the table. -/
def WriteHeld (c : Curating) : StoreCall → Prop
  | .started (.transitionRun runId _ run) | .updatingRun runId _ run => Held c run ∧ run.runId = runId
  | .answered _ (.run (some run)) => Held c run
  | _ => True

theorem writeLater (later : Later c after) {call : StoreCall} (held : WriteHeld c call) : WriteHeld after call := by
  unfold WriteHeld at *
  split at held
  · exact ⟨later.held _ held.1,held.2⟩
  · exact ⟨later.held _ held.1,held.2⟩
  · exact later.held _ held
  · trivial

theorem updateKeeps {sel : CurationRun → Bool} {set : CurationRun → CurationRun} (sound : Sound c)
    (same : ∀ row ∈ c.runs, sel row → identityOf (set row) = identityOf row)
    (tasks : after.tasks = c.tasks) (runs : after.runs = update sel set c.runs) : Sound after ∧ Later c after := by
  have kept : ∀ run ∈ c.runs, identityOf (if sel run then set run else run) = identityOf run := by
    intro run member
    split
    · rename_i selected
      exact same run member selected
    · rfl
  refine ⟨⟨tasks ▸ sound.tasks,?_,?_⟩,laterRuns tasks fun run member =>
    ⟨_,runs ▸ memUpdate.mpr ⟨run,member,rfl⟩,kept run member⟩⟩
  · rw [runs]
    exact updateUnique (fun row member selected => congrArg Prod.fst (same row member selected)) sound.runs
  · rw [runs,tasks]
    intro run member
    obtain ⟨old,there,rfl⟩ := memUpdate.mp member
    exact recordedSame (kept old there).symm (sound.recorded old there)

theorem heldFound {runId} (found : getRun runId c.ledger = some run) : Held c run ∧ run.runId = runId :=
  ⟨⟨run,(findSome found).1,rfl⟩,beq_iff_eq.mp (findSome found).2⟩

/- The row that a run is written over is the run's own. -/
theorem writtenSame (sound : Sound c) (held : Held c run) (member : row ∈ c.runs) (same : row.runId = run.runId) :
    identityOf (runSet run row) = identityOf row := by
  obtain ⟨found,there,identity⟩ := held
  have ids : found.runId = run.runId := congrArg Prod.fst identity
  cases equalOfKey sound.runs there member (ids.trans same.symm)
  rw [identity]
  exact congrArg (fun runId => (runId,run.frontierKey,run.executionEpoch,run.taskId)) same

theorem storeKeeps {call : StoreCall} (sound : Sound c) (held : WriteHeld c call) :
    (Sound (c.keep (storeStep call c.ledger).2) ∧ Later c (c.keep (storeStep call c.ledger).2)) ∧
      WriteHeld c (storeStep call c.ledger).1 := by
  have quiet : ∀ receipts : List ActionReceipt, Sound { c with receipts := receipts } ∧
      Later c { c with receipts := receipts } := fun _ =>
    ⟨@soundSame c _ rfl rfl sound,laterSame rfl rfl⟩
  unfold storeStep
  split
  · split
    · exact ⟨quiet _,trivial⟩
    · rename_i existing found
      split
      · exact ⟨quiet _,(heldFound found).1⟩
      · refine ⟨quiet _,⟨?_,rfl⟩⟩
        obtain ⟨row,member,same⟩ := held.1
        exact ⟨row,member,same.trans (by simp only [identityOf,held.2])⟩
  · refine ⟨updateKeeps sound (fun row member selected => ?_) rfl rfl,trivial⟩
    exact writtenSame sound held.1 member ((inStateSource.mp selected).1.trans held.2.symm)
  · exact ⟨@updateKeeps c _ _ (terminalizeSet _ _) sound (fun _ _ _ => rfl) rfl rfl,trivial⟩
  · split
    · rename_i stored found
      refine ⟨quiet _,?_⟩
      dsimp only
      split
      · exact (heldFound found).1
      · trivial
    · exact ⟨quiet _,trivial⟩
  · split
    · exact ⟨quiet _,trivial⟩
    · dsimp only
      split
      · rename_i made
        obtain ⟨rfl,_⟩ := insertSource made
        exact ⟨quiet _,trivial⟩
      · exact ⟨quiet _,trivial⟩
  · split
    · exact ⟨quiet _,trivial⟩
    · split <;> exact ⟨quiet _,trivial⟩
  · split
    · exact ⟨quiet _,trivial⟩
    · split
      · exact ⟨quiet _,trivial⟩
      · split <;> exact ⟨quiet _,trivial⟩
  · dsimp only
    split <;> exact ⟨quiet _,trivial⟩
  · split <;> exact ⟨quiet _,trivial⟩
  · exact ⟨quiet _,held⟩

def TurnHeld (c : Curating) (turn : Turn) : Prop := Held c turn.run ∧ ∀ run ∈ turn.todo, Held c run

/- From the first list on, the run that a pass looks at has no running task, unless the list was
empty and the task is still to be asked for. -/
def PassSound (c : Curating) : Pass → Prop
  | .listing | .finished => True
  | .receipts turn | .asking turn => TurnHeld c turn
  | .checking turn _ _ | .reading turn _ _ _ | .latest turn _ _ | .finalReceipts turn | .missing turn _ =>
    TurnHeld c turn ∧ Released c.tasks turn.run
  | .settling turn _ _ call | .ending turn _ call =>
    (TurnHeld c turn ∧ Released c.tasks turn.run) ∧ WriteHeld c call

def HandlerSound (c : Curating) : Handler → Prop
  | .claiming .. | .again _ | .working _ | .finished => True
  | .looking run => Claimed c.tasks run
  | .creating run => Recorded c.tasks run
  | .moving run call => Held c run ∧ WriteHeld c call
  | .ending call => WriteHeld c call

def CallSound (c : Curating) : Call → Prop
  | .pass _ pass => PassSound c pass
  | .handler _ handler => HandlerSound c handler
  | .createRun run _ => run.executionEpoch = none
  | .settle call => WriteHeld c call
  | .queue _ | .execute _ | .write _ | .done => True

theorem turnLater (later : Later c after) {turn : Turn} (held : TurnHeld c turn) : TurnHeld after turn :=
  ⟨later.held _ held.1,fun run member => later.held run (held.2 run member)⟩

theorem passLater (sound : Sound c) (later : Later c after) {pass : Pass} (kept : PassSound c pass) : PassSound after pass := by
  have both : ∀ {turn : Turn}, TurnHeld c turn ∧ Released c.tasks turn.run →
      TurnHeld after turn ∧ Released after.tasks turn.run := fun held =>
    ⟨turnLater later held.1,later.released _ (heldRecorded sound held.1.1).claimed held.2⟩
  cases pass with
  | listing | finished => trivial
  | receipts | asking => exact turnLater later kept
  | checking | reading | latest | finalReceipts | missing => exact both kept
  | settling | ending => exact ⟨both kept.1,writeLater later kept.2⟩

theorem handlerLater (later : Later c after) {handler : Handler} (kept : HandlerSound c handler) :
    HandlerSound after handler := by
  cases handler with
  | claiming | again | working | finished => trivial
  | looking => exact later.claimed _ kept
  | creating => exact ⟨later.claimed _ kept.claimed,kept.traced⟩
  | moving => exact ⟨later.held _ kept.1,writeLater later kept.2⟩
  | ending => exact writeLater later kept

theorem callLater (sound : Sound c) (later : Later c after) {call : Call} (kept : CallSound c call) : CallSound after call := by
  cases call with
  | pass => exact passLater sound later kept
  | handler => exact handlerLater later kept
  | settle => exact writeLater later kept
  | createRun => exact kept
  | queue | execute | write | done => trivial

/- Where a pass goes next. -/

theorem nextRunSound {todo : List CurationRun} (held : ∀ run ∈ todo, Held c run) : PassSound c (nextRun todo) := by
  induction todo with
  | nil => trivial
  | cons run rest ih =>
    have below : ∀ row ∈ rest, Held c row := fun row member => held row (List.mem_cons_of_mem _ member)
    unfold nextRun
    split
    · exact ih below
    · exact ⟨held run List.mem_cons_self,below⟩

section
variable {clock : Clock} {turn : Turn} (kept : TurnHeld c turn ∧ Released c.tasks turn.run)
include kept

theorem terminalizeSound {finish : Finish} : PassSound c (terminalize clock turn finish) := ⟨kept,trivial⟩

theorem nextReceiptSound {rest : List ActionReceipt} : PassSound c (nextReceipt clock turn rest) := by
  unfold nextReceipt
  split
  · exact kept
  · split
    · exact kept
    · exact terminalizeSound kept

theorem verifiedSound {rest : List ActionReceipt} {result} : PassSound c (verifiedReceipt clock turn rest result) := by
  unfold verifiedReceipt
  split
  · exact @nextReceiptSound c clock { turn with verified := turn.verified + 1 } kept rest
  · exact nextReceiptSound kept

theorem checkSound {receipt rest} : PassSound c (check env clock turn receipt rest c) := by
  unfold check
  dsimp only
  split
  · exact terminalizeSound kept
  · split
    · exact terminalizeSound kept
    · split
      · exact verifiedSound kept
      · split
        · split <;> exact kept
        · split
          · exact terminalizeSound kept
          · exact kept

theorem finalizeSound {receipts} : PassSound c (finalizeIfPossible clock turn receipts).1 := by
  unfold finalizeIfPossible
  split
  · exact kept.1
  · split
    · exact nextRunSound kept.1.2
    · exact terminalizeSound kept

end

/- A run without receipts ends once its task is over. -/
theorem emptySound {clock : Clock} {turn : Turn} (sound : Sound c) (held : TurnHeld c turn) :
    PassSound c (reconcileEmptyRun env clock turn c.tasks) := by
  have recorded := heldRecorded sound held.1
  have looked : ∀ task ∈ c.tasks.tasks, Owns task turn.run →
      turn.run.taskId.bind (Tasks.findTask c.tasks) = some task := by
    intro task member owns
    have named := recorded.traced (owns.2 ▸ rfl) task.id owns.1
    rw [named,Option.bind_some]
    cases found : Tasks.findTask c.tasks task.id with
    | none => simpa using findNone found task member
    | some other => rw [equalOfKey sound.tasks (findSome found).1 member (beq_iff_eq.mp (findSome found).2)]
  have finished : (∀ task, turn.run.taskId.bind (Tasks.findTask c.tasks) = some task → task.status ≠ .running) →
      Released c.tasks turn.run := fun ended task member running owns => ended task (looked task member owns) running
  unfold reconcileEmptyRun
  split
  · rename_i task found
    split
    · exact nextRunSound held.2
    · exact nextRunSound held.2
    all_goals
      rename_i status
      refine terminalizeSound ⟨held,finished fun other same => ?_⟩
      cases found.symm.trans same
      rw [status]
      exact nofun
  · rename_i none
    split
    · refine terminalizeSound ⟨held,finished fun task found => ?_⟩
      cases none.symm.trans found
    · exact nextRunSound held.2

theorem listedHeld {limit} (member : run ∈ listRuns limit c.ledger) : Held c run :=
  ⟨run,(List.mem_insertionSort _).mp (List.mem_of_mem_take member),rfl⟩

/- A step of a call keeps the tables sound and its own state. -/
structure Keeps (c after : Curating) (call : Call) : Prop where
  sound : Sound after
  later : Later c after
  call : CallSound after call

theorem quietKeeps (sound : Sound c) {call : Call} (kept : CallSound c call) : Keeps c c call :=
  ⟨sound,laterSame rfl rfl,kept⟩

theorem passKeeps {clock : Clock} {pass : Pass} (sound : Sound c) (kept : PassSound c pass)
    (spared : Spared c (.pass clock pass)) :
    Keeps c (passStep env clock pass c).2.1 (.pass clock (passStep env clock pass c).1) := by
  cases pass with
  | listing => exact quietKeeps sound (nextRunSound fun run member => listedHeld member)
  | receipts turn =>
    have both : listReceipts turn.run.runId 100 c.ledger ≠ [] → TurnHeld c turn ∧ Released c.tasks turn.run :=
      fun some => ⟨kept,spared some⟩
    unfold passStep
    dsimp only
    split
    · rename_i unread
      refine quietKeeps sound (terminalizeSound (both fun empty => ?_))
      simp [empty] at unread
    · split
      · by_cases empty : listReceipts turn.run.runId 100 c.ledger = []
        · refine quietKeeps sound ?_
          rw [empty]
          exact kept
        · exact quietKeeps sound (finalizeSound (both empty))
      · rename_i pending
        refine quietKeeps sound (nextReceiptSound (both fun empty => ?_))
        simp [empty] at pending
  | checking turn receipt rest => exact quietKeeps sound (checkSound kept)
  | reading turn current rest script =>
    cases script with
    | call memoryId next => exact quietKeeps sound kept
    | fail error => exact quietKeeps sound (terminalizeSound kept)
    | done verdict => exact quietKeeps sound ⟨kept,trivial⟩
  | settling turn current rest call =>
    obtain ⟨⟨fine,later⟩,written⟩ := storeKeeps sound kept.2
    have both : TurnHeld (c.keep (storeStep call c.ledger).2) turn ∧ Released c.tasks turn.run :=
      ⟨turnLater later kept.1.1,kept.1.2⟩
    refine ⟨fine,later,?_⟩
    dsimp only [passStep,CallSound]
    split
    · exact verifiedSound both
    · exact both
    · exact terminalizeSound both
    · exact ⟨both,writeLater later written⟩
  | latest turn current rest =>
    unfold passStep
    dsimp only
    split
    · exact quietKeeps sound (terminalizeSound kept)
    · exact quietKeeps sound (verifiedSound kept)
  | finalReceipts turn =>
    unfold passStep
    dsimp only
    split
    · exact quietKeeps sound (terminalizeSound kept)
    · exact quietKeeps sound (finalizeSound kept)
  | asking turn => exact quietKeeps sound (emptySound sound kept)
  | ending turn finish call =>
    obtain ⟨⟨fine,later⟩,written⟩ := storeKeeps sound kept.2
    have both : TurnHeld (c.keep (storeStep call c.ledger).2) turn ∧ Released c.tasks turn.run :=
      ⟨turnLater later kept.1.1,kept.1.2⟩
    unfold passStep
    dsimp only
    split
    · exact ⟨fine,later,nextRunSound both.1.2⟩
    · exact ⟨fine,later,nextRunSound both.1.2⟩
    · exact ⟨fine,later,both⟩
    · exact ⟨fine,later,both,writeLater later written⟩
  | missing turn finish =>
    unfold passStep
    dsimp only
    split
    · exact quietKeeps sound (nextRunSound kept.1.2)
    · exact quietKeeps sound (nextRunSound kept.1.2)
  | finished => exact quietKeeps sound trivial

theorem preparedSound (held : Held c run) : HandlerSound c (prepareRun run) := by
  unfold prepareRun
  split
  · exact ⟨held,held,rfl⟩
  · exact ⟨held,held,rfl⟩
  · trivial
  · trivial
  · trivial

/- What a handler claims is in the table, and its run names it. -/
theorem claimedRun {now workspace packet task} (claimed : (Tasks.step (.claimNext now workspace) c.tasks).1 =
    .answered (.ok (.claimed (some task)))) :
    Claimed (Tasks.step (.claimNext now workspace) c.tasks).2.1 (directRun env packet task) := by
  simp only [Tasks.step] at *
  split at claimed
  · cases claimed
  · rename_i before found after made
    cases claimed
    dsimp only
    rcases Tasks.claimNextSource made with ⟨none,_⟩ | ⟨row,task,same,_,_,rfl,found⟩
    · cases none
    · cases same
      intro taskId epoch key at_
      obtain ⟨member,named⟩ := findSome found
      refine ⟨_,member,?_,?_⟩
      · exact String.append_right_inj _ |>.mp key
      · exact le_of_eq (Option.some.inj at_).symm

theorem createKeeps {stamp : String} {ledger : CurationStore} (sound : Sound c) (recorded : Recorded c.tasks run)
    (made : createRun run stamp c.ledger = some ledger) :
    (Sound (c.keep ledger) ∧ Later c (c.keep ledger)) ∧ Held (c.keep ledger) (stamped run stamp) := by
  unfold createRun at made
  split at made <;> cases made
  rename_i fresh
  have absent : getRun (stamped run stamp).runId c.ledger = none := by simpa [stamped] using fresh
  have same : identityOf run = identityOf (stamped run stamp) := rfl
  exact ⟨insertKeeps sound absent (recordedSame same recorded) rfl rfl,_,
    List.mem_append_right _ (List.mem_singleton_self _),rfl⟩

theorem handlerKeeps {stamp : String} {handler : Handler} (sound : Sound c) (kept : HandlerSound c handler)
    (spared : Spared c (.handler stamp handler)) :
    Keeps c (handlerStep env stamp handler c).2.1 (.handler stamp (handlerStep env stamp handler c).1) := by
  cases handler with
  | claiming now workspace packet =>
    obtain ⟨fine,later⟩ := queueKeeps (Tasks.stepChange (.claimNext now workspace) c.tasks) sound
    refine ⟨fine,later,?_⟩
    dsimp only [handlerStep,CallSound]
    split
    · rename_i task claimed
      split
      · exact claimedRun claimed
      · trivial
    · trivial
  | looking run =>
    unfold handlerStep
    dsimp only
    split
    · rename_i existing found
      exact quietKeeps sound (preparedSound (heldFound found).1)
    · exact quietKeeps sound ⟨kept,fun _ => spared⟩
  | creating run =>
    unfold handlerStep
    dsimp only
    split
    · rename_i made
      obtain ⟨⟨fine,later⟩,held⟩ := createKeeps sound kept made
      exact ⟨fine,later,preparedSound held⟩
    · exact quietKeeps sound trivial
  | again run =>
    unfold handlerStep
    dsimp only
    split
    · rename_i existing found
      exact quietKeeps sound (preparedSound (heldFound found).1)
    · exact quietKeeps sound trivial
  | moving run call =>
    obtain ⟨⟨fine,later⟩,written⟩ := storeKeeps sound kept.2
    refine ⟨fine,later,?_⟩
    dsimp only [handlerStep,CallSound]
    split
    · rename_i won moved answered
      rw [answered] at written
      split
      · exact preparedSound (later.held _ written)
      · trivial
    · trivial
    · exact ⟨later.held _ kept.1,writeLater later written⟩
  | working run =>
    refine quietKeeps sound ?_
    dsimp only [handlerStep,CallSound]
    split <;> trivial
  | ending call =>
    obtain ⟨⟨fine,later⟩,written⟩ := storeKeeps sound kept
    refine ⟨fine,later,?_⟩
    dsimp only [handlerStep,CallSound]
    split
    · trivial
    · exact writeLater later written
  | finished => exact quietKeeps sound trivial

theorem unownedRecorded {tasks} (none : run.executionEpoch = none) : Recorded tasks run :=
  ⟨fun _ _ _ given => (nomatch none.symm.trans given),fun given => by simp [none] at given⟩

theorem executeKeeps {attempt : Attempt} (sound : Sound c) :
    Sound (execute env attempt c) ∧ Later c (execute env attempt c) := by
  unfold execute
  split
  · exact ⟨sound,laterSame rfl rfl⟩
  · dsimp only
    split
    · rename_i p _ run found
      have fresh := List.find?_some found
      exact insertKeeps sound (by simpa [insertedRun] using fresh) (unownedRecorded rfl) rfl rfl
    · exact ⟨@soundSame c _ rfl rfl sound,laterSame rfl rfl⟩

theorem stepKeeps {call : Call} (sound : Sound c) (kept : CallSound c call) (spared : Spared c call) :
    Keeps c (step env call c).2.1 (step env call c).1 := by
  cases call with
  | pass clock pass => exact passKeeps sound kept spared
  | queue call =>
    obtain ⟨fine,later⟩ := queueKeeps (Tasks.stepChange call c.tasks) sound
    exact ⟨fine,later,trivial⟩
  | handler stamp handler => exact handlerKeeps sound kept spared
  | execute attempt =>
    obtain ⟨fine,later⟩ := executeKeeps sound
    exact ⟨fine,later,trivial⟩
  | createRun run stamp =>
    dsimp only [step]
    cases made : createRun run stamp c.ledger with
    | none => exact quietKeeps sound trivial
    | some ledger =>
      obtain ⟨⟨fine,later⟩,_⟩ := createKeeps sound (unownedRecorded kept) made
      exact ⟨fine,later,trivial⟩
  | settle call =>
    obtain ⟨⟨fine,later⟩,written⟩ := storeKeeps sound kept
    exact ⟨fine,later,writeLater later written⟩
  | write change =>
    exact ⟨@soundSame c _ rfl rfl sound,laterSame rfl rfl,trivial⟩
  | done => exact quietKeeps sound trivial

structure Live (w : World Call Curating Emitted) : Prop where
  sound : Sound w.store
  calls : ∀ call ∈ w.calls, CallSound w.store call
  ended : ∀ run outcome before, .ended run outcome before ∈ w.trace → Released before.tasks run ∧
    Held w.store run ∧ Released w.store.tasks run

theorem enterSound (op : Op) : CallSound c (enter op) := by
  cases op with
  | createRun => rfl
  | reconcile | queue | direct | execute | settle | write => trivial

theorem nextLive {w : World Call Curating Emitted} {event : Event Op} (spared : SparedStep w event) (live : Live w) :
    Live ((recovery env).next w event) := by
  cases event with
  | start op =>
    refine ⟨live.sound,fun call member => ?_,live.ended⟩
    rcases List.mem_append.mp member with old | new
    · exact live.calls call old
    · exact List.mem_singleton.mp new ▸ enterSound op
  | advance index =>
    cases found : w.calls[index]? with
    | none =>
      rw [nextIdle found]
      exact live
    | some call =>
      rw [nextAdvance found]
      have kept := @stepKeeps env _ call live.sound (live.calls call (List.mem_of_getElem? found)) (spared call found)
      refine ⟨kept.sound,fun other member => ?_,fun run outcome before member => ?_⟩
      · rcases List.mem_or_eq_of_mem_set member with old | rfl
        · exact callLater live.sound kept.later (live.calls other old)
        · exact kept.call
      · rcases List.mem_append.mp member with new | old
        · obtain ⟨rfl,clock,turn,finish,op,rfl,rfl,rfl⟩ := endedStep new
          obtain ⟨⟨⟨held,_⟩,released⟩,_⟩ := live.calls _ (List.mem_of_getElem? found)
          exact ⟨released,kept.later.held _ held,
            kept.later.released _ (heldRecorded live.sound held).claimed released⟩
        · obtain ⟨then_,held,released⟩ := live.ended run outcome before old
          exact ⟨then_,kept.later.held run held,
            kept.later.released run (heldRecorded live.sound held).claimed released⟩

/- A run that a pass has ended was owned by no running task then and is owned by none since, so
that no action of a running task finds that a pass has ended its run. -/
theorem liveRunsSpared {events : List (Event Op)} (sound : Sound c)
    (spared : Meets (recovery env) SparedStep (idle c) events) :
    ∀ run outcome before, .ended run outcome before ∈ ((recovery env).run (idle c) events).trace →
      Released before.tasks run ∧ ∀ row ∈ ((recovery env).run (idle c) events).store.runs, row.runId = run.runId →
        Released ((recovery env).run (idle c) events).store.tasks row := by
  have live : Live ((recovery env).run (idle c) events) :=
    runMeets (fun w event => nextLive) spared
      ⟨sound,fun _ member => absurd member List.not_mem_nil,fun _ _ _ member => absurd member List.not_mem_nil⟩
  intro run outcome before member
  obtain ⟨then_,⟨found,there,identity⟩,released⟩ := live.ended run outcome before member
  refine ⟨then_,fun row listed same => ?_⟩
  have ids : found.runId = run.runId := congrArg Prod.fst identity
  cases equalOfKey live.sound.runs there listed (ids.trans same.symm)
  exact releasedSame identity.symm released

/- A curator task that archives a memory through its agent. -/

def recoveryEnv : RecoveryEnv := ⟨⟨⟨ascii,fun _ => "digest"⟩,fun title _ _ => title⟩,fun _ => none,fun _ => 0,fun _ => "run"⟩

def curatorTask : Tasks.EnqueueRequest :=
  ⟨Tasks.curator,[],none,100,3,none,some "00000000-0000-0000-0000-00000000000a","drawn",0⟩

def awaiting : Curating := ⟨[],[],⟨[curatorTask.row],[]⟩,{ Database.empty with
  memory := { Memory.empty with memories := [plainRow firstId 1] } }⟩

def archiving : Attempt :=
  ⟨⟨"",none⟩,⟨"run","action",[firstId],[],none,some "archive_memory",.null,none,"curator",none,none⟩,
    .call (.updateMemory firstId { UpdateValues.nothing with status := some "archived" })
      fun _ => .done (some ⟨"archive_memory",[firstId],none⟩),
    fun n => ⟨none,toString n,"t1",n⟩⟩

def advances (index count : Nat) : List (Event Op) := List.replicate count (.advance index)

/- The task is claimed and its run is prepared. -/
def preparing : List (Event Op) := .start (.direct 0 .any ⟨none,"1","{}","direct"⟩ "t0") :: advances 0 9

/- And its first action commits. -/
def acting : List (Event Op) := preparing ++ [.start (.execute archiving),.advance 1]

/- A pass that is the call at an index. -/
def passing (index count : Nat) : List (Event Op) := .start (.reconcile ⟨0,"t2"⟩) :: advances index count

def archivingAgain (index : Nat) : List (Event Op) :=
  [.start (.execute { archiving with
    request := { archiving.request with actionId := "second" }
    oracle := fun n => ⟨none,"again" ++ toString n,"t3",n⟩ }),.advance index]

/- The pass ends the run while its task is running, and the next action is refused. -/
theorem liveRunEnded :
    (∃ run outcome before, .ended run outcome before ∈
      ((recovery recoveryEnv).run (idle awaiting) (acting ++ passing 2 3)).trace ∧ ¬ Released before.tasks run) ∧
    ((recovery recoveryEnv).run (idle awaiting) (acting ++ archivingAgain 2)).store.receipts.length = 2 ∧
    ((recovery recoveryEnv).run (idle awaiting) (acting ++ passing 2 3 ++ archivingAgain 3)).store.receipts.length = 1 := by
  refine ⟨?_,by decide +kernel⟩
  have found : (((recovery recoveryEnv).run (idle awaiting) (acting ++ passing 2 3)).trace.any fun
      | .ended run _ before => !decide (Released before.tasks run)
      | _ => false) = true := by decide +kernel
  obtain ⟨event,member,broken⟩ := List.any_eq_true.mp found
  cases event with
  | ended run outcome before => exact ⟨run,outcome,before,member,by simpa using broken⟩
  | queue | judged | restored | decided => cases broken

def completed : List (Event Op) := [.start (.queue (.leave (.complete []) "00000000-0000-0000-0000-00000000000a" (some 1) 1)),
  .advance 1,.advance 1]

theorem liveRunsSparedSample :
    let w := (recovery recoveryEnv).run (idle awaiting) (preparing ++ completed ++ passing 2 4)
    w.store.runs.map (·.state) = [.terminal] ∧ ∀ run outcome before, .ended run outcome before ∈ w.trace →
      Released before.tasks run ∧ ∀ row ∈ w.store.runs, row.runId = run.runId → Released w.store.tasks row := by
  have sound : Sound awaiting := ⟨by decide,by decide,fun _ member => absurd member List.not_mem_nil⟩
  have spared : Meets (recovery recoveryEnv) SparedStep (idle awaiting) (preparing ++ completed ++ passing 2 4) := by
    decide +kernel
  exact ⟨by decide +kernel,liveRunsSpared sound spared⟩

end McpMemory.Curation.Reconciliation
