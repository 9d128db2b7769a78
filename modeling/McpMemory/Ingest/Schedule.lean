import Mathlib
import McpMemory.Journal.Store
import McpMemory.Tasks.Calls

/-! `system1_scheduling.py`: when the next ingest of the journal may start. Moments are whole
microseconds; `offset` is that of local time to UTC at a moment. `astimezone()` fixes the offset
of now, so the end of a window is told with it. -/
namespace McpMemory.Ingest
open Journal (Store)
open Tasks (TaskRecord Tables optionJson)

variable (offset : Int → Int)

def second : Int := 1000000

def hour : Int := 3600 * second

def day : Int := 24 * hour

def system1IngestTaskName : String := "ingest-system1"

def system1IngestPriority : Int := 10

def system1IngestThreshold : Nat := 40

def system1IngestDebounce : Int := 3600 * second

def system1AutoIngestRateLimit : Int := 1800 * second

/- `days_of_week` without repetition; Monday is 0. -/
structure IngestSuppressionWindow where
  startHour : Nat
  endHour : Nat
  daysOfWeek : List Nat
  startValid : startHour ≤ 23
  endValid : endHour ≤ 23
  daysValid : ∀ d ∈ daysOfWeek, d ≤ 6

structure IngestSuppressionConfig where
  enabled : Bool
  windows : List IngestSuppressionWindow

/- The local time of now: the days since 1970-01-01, a Thursday, and the second of the day. -/
structure Clock where
  days : Int
  seconds : Int
  offset : Int

def clock (now : Int) : Clock :=
  ⟨(now + offset now) / day,(now + offset now) % day / second,offset now⟩

def Clock.weekday (current : Clock) : Int := (current.days + 3) % 7

/- `replace(hour=…)`, or the same a day later. -/
def Clock.at (current : Clock) (later : Int) (hours : Nat) : Int :=
  (current.days + later) * day + hours * hour - current.offset

def allows (window : IngestSuppressionWindow) (weekday : Int) : Bool :=
  window.daysOfWeek.isEmpty || window.daysOfWeek.any (weekday = ·)

/- The body of the loop over the windows: the end of one that is active. -/
def windowEnd (current : Clock) (window : IngestSuppressionWindow) : Option Int :=
  if window.startHour = window.endHour then
    if allows window current.weekday then some (current.at 1 window.endHour) else none
  else if window.startHour < window.endHour then
    if allows window current.weekday ∧ window.startHour * 3600 ≤ current.seconds ∧ current.seconds < window.endHour * 3600 then
      some (current.at 0 window.endHour)
    else none
  else if window.startHour * 3600 ≤ current.seconds ∧ allows window current.weekday then
    some (current.at 1 window.endHour)
  else if current.seconds < window.endHour * 3600 ∧ allows window ((current.weekday - 1) % 7) then
    some (current.at 0 window.endHour)
  else none

def activeEnds (now : Int) : Option IngestSuppressionConfig → List Int
  | none => []
  | some config => if config.enabled then config.windows.filterMap (windowEnd (clock offset now)) else []

def resolveIngestSuppressionUntil (now : Int) (config : Option IngestSuppressionConfig) : Option Int :=
  (activeEnds offset now config).min?

def resolveAutoIngestRateLimitUntil (queue : Tables) (taskName : String) (cooldown : Int) : Option Int :=
  (((queue.taskRuns.filter fun run => run.taskName == taskName && run.status == .completed).map (·.completedAt)).max?).map
    (· + cooldown)

/- `journal_workspace_id` is always that of all workspaces. -/
structure SchedulingContext where
  pendingCount : Nat
  oldestPendingTimestamp : Int

def buildIngestSchedulingContext (journal : Store) : Option SchedulingContext :=
  let pending := journal.entries.filter (·.status == .pending)
  if pending.isEmpty then none
  else (pending.map (·.timestamp)).min?.map fun oldest => ⟨pending.length,oldest⟩

/- What `_enqueue_system1_ingest_task` is given. -/
structure System1Schedule where
  context : SchedulingContext
  trigger : String
  availableAt : Int
  rateLimitedUntil : Option Int
  suppressedUntil : Option Int

/- `available_at` and `trigger`, moved to a later moment when there is one. -/
def postpone (reason : String) (until' : Option Int) (chosen : Int × String) : Int × String :=
  match until' with
  | none => chosen
  | some until' => if chosen.1 < until' then (until',chosen.2 ++ reason) else chosen

def unsuppressed (queue : Tables) (context : SchedulingContext) (now : Int) : Int × String :=
  postpone "_rate_limited" (resolveAutoIngestRateLimitUntil queue system1IngestTaskName system1AutoIngestRateLimit)
    (if context.pendingCount < system1IngestThreshold then (now + system1IngestDebounce,"system1_debounce")
     else (now,"system1_threshold"))

def scheduleSystem1Ingest (queue : Tables) (journal : Store) (now : Int) (config : Option IngestSuppressionConfig) :
    Option System1Schedule :=
  (buildIngestSchedulingContext journal).map fun context =>
    let suppressedUntil := resolveIngestSuppressionUntil offset now config
    let chosen := postpone "_suppressed" suppressedUntil (unsuppressed queue context now)
    ⟨context,chosen.2,chosen.1,
      resolveAutoIngestRateLimitUntil queue system1IngestTaskName system1AutoIngestRateLimit,suppressedUntil⟩

def scheduleSystem1IngestContinuation (journal : Store) (now : Int) (config : Option IngestSuppressionConfig) :
    Option System1Schedule :=
  (buildIngestSchedulingContext journal).map fun context =>
    let suppressedUntil := resolveIngestSuppressionUntil offset now config
    let chosen := postpone "_suppressed" suppressedUntil (now,"system1_backlog_continuation")
    ⟨context,chosen.2,chosen.1,none,suppressedUntil⟩

/- The data holds scalars only, which a stored object may hold in another order. -/
def sameScalar : Json → Json → Bool
  | .null,.null => true
  | .int a,.int b => a == b
  | .str a,.str b => a == b
  | _,_ => false

def sameData (stored wanted : Json.Object) : Bool :=
  stored.length == wanted.length && wanted.all fun field => (Json.get stored field.1).any (sameScalar field.2)

def taskData (workspaceId : Option String) (schedule : System1Schedule) : Json.Object :=
  [("workspace_id",optionJson workspaceId),("journal_workspace_id",.str "*"),("trigger",.str schedule.trigger),
   ("pending_count",.int schedule.context.pendingCount),
   ("oldest_pending_timestamp",.int schedule.context.oldestPendingTimestamp)] ++
  (schedule.rateLimitedUntil.toList.map fun until' => ("rate_limited_until",Json.int until')) ++
  schedule.suppressedUntil.toList.map fun until' => ("suppressed_until",Json.int until')

def isAutoScheduledIngestTask (task : TaskRecord) : Bool :=
  match Json.get task.data "trigger" with
  | some (.str trigger) => Text.startsWith trigger "system1_"
  | _ => false

/- The call of `update_pending_task` for an open task; the tolerance is one microsecond. -/
def reschedule (workspaceId : Option String) (schedule : System1Schedule) (now : Int) (task : TaskRecord) : Option Tasks.Op :=
  if task.status = .pending ∧ isAutoScheduledIngestTask task ∧ (task.workspaceId.isSome ∨
      1 < |schedule.availableAt - task.availableAt| ∨ task.priority ≠ system1IngestPriority ∨
      sameData task.data (taskData workspaceId schedule) = false) then
    some (.updatePendingTask ⟨task.id,some (taskData workspaceId schedule),some schedule.availableAt,
      some system1IngestPriority,now⟩)
  else none

/- `_enqueue_system1_ingest_task`: what it asks of the queue for the task that it finds open. When
`enqueue_unique` finds one after all, that one is rescheduled. -/
def enqueueSystem1IngestTask (workspaceId : Option String) (schedule : System1Schedule) (drawn : String) (now : Int)
    (existing : Option TaskRecord) : Option Tasks.Op :=
  match existing with
  | some task => reschedule workspaceId schedule now task
  | none => some (.enqueueUnique ⟨system1IngestTaskName,taskData workspaceId schedule,none,system1IngestPriority,3,
      some schedule.availableAt,none,drawn,now⟩)

/- The moment that a call of the queue gives its task. -/
def availability : Tasks.Op → Option Int
  | .enqueueUnique req => req.availableAt
  | .updatePendingTask req => req.availableAt
  | _ => none

theorem enqueueAvailability {workspaceId schedule drawn now existing op}
    (asked : enqueueSystem1IngestTask workspaceId schedule drawn now existing = some op) :
    availability op = some schedule.availableAt := by
  unfold enqueueSystem1IngestTask reschedule at asked
  cases existing with
  | none =>
    cases asked
    rfl
  | some task =>
    dsimp only at asked
    split at asked
    · cases asked
      rfl
    · cases asked

/- Not before the end of any window that is active at the time. -/
def Respects (now : Int) (config : Option IngestSuppressionConfig) (availableAt : Int) : Prop :=
  ∀ ending ∈ activeEnds offset now config, ending ≤ availableAt

theorem secondPositive : 0 < second := by norm_num [second]

theorem dayPositive : 0 < day := by norm_num [day,hour,second]

theorem laterTomorrow (now : Int) (hours : Nat) : now < (clock offset now).at 1 hours := by
  have within := Int.lt_ediv_add_one_mul_self (now + offset now) dayPositive
  have rest : 0 ≤ hours * hour := by norm_num [hour,second]
  simp only [Clock.at,clock]
  omega

theorem laterToday {now : Int} {hours : Nat} (before : (clock offset now).seconds < hours * 3600) :
    now < (clock offset now).at 0 hours := by
  have whole := Int.emod_add_mul_ediv (now + offset now) day
  have within : (now + offset now) % day < hours * 3600 * second := Int.lt_mul_of_ediv_lt secondPositive before
  have long : hours * 3600 * second = hours * hour := by rw [hour,mul_assoc]
  simp only [Clock.at,clock,Int.add_zero]
  rw [mul_comm] at whole
  omega

theorem windowEndLater {now : Int} {window : IngestSuppressionWindow} {ending : Int}
    (active : windowEnd (clock offset now) window = some ending) : now < ending := by
  unfold windowEnd at active
  split at active
  · split at active <;> cases active
    exact laterTomorrow offset now _
  split at active
  · split at active <;> cases active
    rename_i inside
    exact laterToday offset inside.2.2
  split at active
  · cases active
    exact laterTomorrow offset now _
  split at active <;> cases active
  rename_i inside
  exact laterToday offset inside.1

/- Waiting for the earliest of several ends is enough when the moment was late enough anyway, or
when they are all the same. -/
theorem postponeExact (reason : String) (ends : List Int) (chosen : Int × String) :
    (∀ ending ∈ ends, ending ≤ (postpone reason ends.min? chosen).1) ↔
      (∀ ending ∈ ends, ending ≤ chosen.1) ∨ ∀ a ∈ ends, ∀ b ∈ ends, a = b := by
  cases least : ends.min? with
  | none =>
    rw [List.min?_eq_none_iff.mp least]
    simp
  | some first =>
    obtain ⟨member,below⟩ := List.min?_eq_some_iff.mp least
    by_cases later : chosen.1 < first
    · rw [postpone,if_pos later]
      constructor
      · intro every
        have same (a : Int) (here : a ∈ ends) : a = first := le_antisymm (every a here) (below a here)
        exact .inr fun a here b there => (same a here).trans (same b there).symm
      · rintro (early | same) ending here
        · exact absurd (early first member) (not_le.mpr later)
        · exact (same ending here first member).le
    · rw [postpone,if_neg later]
      refine ⟨.inl,?_⟩
      rintro (early | same) ending here
      · exact early ending here
      · exact same first member ending here ▸ not_lt.mp later

theorem activeLater {now : Int} {config : Option IngestSuppressionConfig} {ending : Int}
    (active : ending ∈ activeEnds offset now config) : now < ending := by
  unfold activeEnds at active
  split at active
  · cases active
  split at active
  · obtain ⟨window,_,found⟩ := List.mem_filterMap.mp active
    exact windowEndLater offset found
  · cases active

/- The task waits for every active window exactly when it would wait so long anyway, or when they
all end together; the continuation, which waits for nothing else, when they do. -/
theorem suppressionRespected (queue : Tables) (journal : Store) (now : Int) (config : Option IngestSuppressionConfig) :
    (∀ schedule ∈ scheduleSystem1Ingest offset queue journal now config,
      (Respects offset now config schedule.availableAt ↔
        (∀ ending ∈ activeEnds offset now config, ending ≤ (unsuppressed queue schedule.context now).1) ∨
        ∀ a ∈ activeEnds offset now config, ∀ b ∈ activeEnds offset now config, a = b)) ∧
    ∀ schedule ∈ scheduleSystem1IngestContinuation offset journal now config,
      (Respects offset now config schedule.availableAt ↔
        ∀ a ∈ activeEnds offset now config, ∀ b ∈ activeEnds offset now config, a = b) := by
  constructor
  · intro schedule found
    obtain ⟨context,_,rfl⟩ := Option.map_eq_some_iff.mp found
    exact postponeExact _ _ _
  · intro schedule found
    obtain ⟨context,_,rfl⟩ := Option.map_eq_some_iff.mp found
    refine (postponeExact _ _ _).trans (or_iff_right_of_imp fun early a here => ?_)
    exact absurd (early a here) (not_le.mpr (activeLater offset here))

/- 22:15, in a window until six and in one until 23:00. -/
def quietHours : IngestSuppressionConfig := ⟨true,[⟨22,6,[],by decide,by decide,by decide⟩,⟨22,23,[],by decide,by decide,by decide⟩]⟩

def oneThought : Store := ⟨[⟨1,"quiet-hours note",none,0,.pending,none,none,none⟩],1⟩

def evening : Int := (22 * 3600 + 15 * 60) * second

theorem earliestEndTaken : ∃ schedule ∈ scheduleSystem1IngestContinuation (fun _ => 0) oneThought evening (some quietHours),
    schedule.availableAt = 23 * hour ∧ 30 * hour ∈ activeEnds (fun _ => 0) evening (some quietHours) ∧
    ¬ Respects (fun _ => 0) evening (some quietHours) schedule.availableAt := by
  refine ⟨_,rfl,by decide +kernel,by decide +kernel,fun waits => ?_⟩
  exact absurd (waits (30 * hour) (by decide +kernel)) (by decide +kernel)

end McpMemory.Ingest
