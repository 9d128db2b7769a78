import McpMemory.Lib.Table
import McpMemory.Providers.Admission

/-! The daily budget of a profile. The calls of a day are those that have recorded their usage and
those in flight; the daily count sees the first alone, and of these only its own workspace's. -/
namespace McpMemory.Providers
open Interleave

/- A call that is admitted by the daily count and not made yet. -/
def Call.waits (budgetKey : String) : Call → Bool
  | .call p _ (.bursting _) | .call p _ .calling => p.budgetKey == budgetKey
  | _ => false

/- A call made since a time that has not recorded its usage yet. -/
def Call.pends (budgetKey : String) (since : Int) : Call → Bool
  | .call p _ (.clearing madeAt) | .call p _ (.completing madeAt) | .call p _ (.recording madeAt _) =>
    p.budgetKey == budgetKey && decide (since ≤ madeAt)
  | _ => false

def UsageRow.recorded (budgetKey : String) (since : Int) (row : UsageRow) : Bool :=
  [budgetKey,agenticKey budgetKey].contains row.providerKey && decide (since ≤ row.createdAt) && row.status != .skipped

def Emitted.madeSince (budgetKey : String) (since : Int) : Emitted → Bool
  | .made key time => key == budgetKey && decide (since ≤ time)
  | .refused _ => false

def Emitted.madeWithin (budgetKey : String) (since last : Int) : Emitted → Bool
  | .made key time => key == budgetKey && decide (since ≤ time) && decide (time ≤ last)
  | .refused _ => false

section
variable (budgetKey : String) (since : Int)

def waiting (calls : List Call) : Nat := calls.countP (·.waits budgetKey)

def pending (calls : List Call) : Nat := calls.countP (·.pends budgetKey since)

def recorded (rows : List UsageRow) : Nat := rows.countP (·.recorded budgetKey since)

def madeSince (trace : List Emitted) : Nat := trace.countP (·.madeSince budgetKey since)

/- The calls made to the profile in the window of a day. -/
def madeInDay (trace : List Emitted) : Nat := trace.countP (·.madeWithin budgetKey since (since + daySeconds))

end

/- The calls of the last day that have recorded nothing, and those that will be made. -/
def inFlight (budgetKey : String) (w : World Call Usage Emitted) : Nat :=
  waiting budgetKey w.calls + pending budgetKey (w.store.now - daySeconds) w.calls

/- A call that counts the usage of its day counts all calls, or there is room for all of them. -/
def Counts (w : World Call Usage Emitted) : Call → Prop
  | .call p _ (.counting _) =>
    inFlight p.budgetKey w = 0 ∧ countRecentCalls p w.store = recorded p.budgetKey (w.store.now - daySeconds) w.store.rows ∨
    ∀ limit ∈ p.dailyCallLimit, recorded p.budgetKey (w.store.now - daySeconds) w.store.rows + inFlight p.budgetKey w < limit
  | _ => True

instance (w : World Call Usage Emitted) (call : Call) : Decidable (Counts w call) := match call with
  | .call p _ (.counting _) => inferInstanceAs (Decidable (inFlight p.budgetKey w = 0 ∧
      countRecentCalls p w.store = recorded p.budgetKey (w.store.now - daySeconds) w.store.rows ∨
    ∀ limit ∈ p.dailyCallLimit, recorded p.budgetKey (w.store.now - daySeconds) w.store.rows + inFlight p.budgetKey w < limit))
  | .call _ _ .starting | .call _ _ (.stating _) | .call _ _ (.bursting _) | .call _ _ .calling | .call _ _ (.clearing _)
  | .call _ _ (.completing _) | .call _ _ (.recording ..) | .call _ _ (.backing ..) | .call _ _ (.skipping ..)
  | .call _ _ .finished | .tick _ | .finished => .isTrue trivial

def Counting (w : World Call Usage Emitted) : Event Op → Prop
  | .start _ => True
  | .advance index => ∀ call ∈ w.calls[index]?, Counts w call

instance (w : World Call Usage Emitted) (event : Event Op) : Decidable (Counting w event) := match event with
  | .start _ => .isTrue trivial
  | .advance index => inferInstanceAs (Decidable (∀ call ∈ w.calls[index]?, Counts w call))

/- No call has its times the wrong way round. -/
def Timed (now : Int) : Call → Prop
  | .call _ _ (.clearing madeAt) | .call _ _ (.completing madeAt) => madeAt ≤ now
  | .call _ _ (.recording madeAt completedAt) => madeAt ≤ completedAt
  | _ => True

/- What a step does to the calls of a budget. -/
structure Balanced (budgetKey : String) (u : Usage) (call : Call) (next : Call × Usage × List Emitted) : Prop where
  balance : ∀ since, madeSince budgetKey since next.2.2 + recorded budgetKey since u.rows + (call.pends budgetKey since).toNat ≤
    recorded budgetKey since next.2.1.rows + (next.1.pends budgetKey since).toNat
  timed : Timed next.2.1.now next.1
  made : ∀ key time, .made key time ∈ next.2.2 → time = u.now
  clock : u.now ≤ next.2.1.now

/- Only the daily count lets a call in. -/
def Admits (budgetKey : String) (u : Usage) (call : Call) (next : Call × Usage × List Emitted) : Prop :=
  ∃ p outcome startedAt, call = .call p outcome (.counting startedAt) ∧ p.budgetKey = budgetKey ∧ dailyRefusal p u = none ∧
    next.2.2 = []

variable {budgetKey : String} {u : Usage}

theorem ownKey {p : Provider} (own : p.budgetKey = budgetKey) :
    p.providerKey = budgetKey ∨ p.providerKey = agenticKey budgetKey := by
  subst own
  cases agentic : p.agentic <;> simp [Provider.providerKey,agentic]

theorem recordCallRecorded {p : Provider} {status : CallStatus} {madeAt completedAt since : Int} (times : madeAt ≤ completedAt) :
    recorded budgetKey since u.rows + (p.budgetKey == budgetKey && decide (since ≤ madeAt)).toNat ≤
      recorded budgetKey since (recordCall p (.ended status) completedAt u).rows := by
  unfold recordCall recorded
  rw [List.countP_append,List.countP_singleton]
  refine Nat.add_le_add_left ?_ _
  cases own : p.budgetKey == budgetKey with
  | false => simp
  | true =>
    by_cases late : since ≤ madeAt
    · have counted : (UsageRow.mk p.workspaceId p.providerKey p.modelName (.ended status) completedAt).recorded budgetKey since := by
        have reached : since ≤ completedAt := by omega
        simp [UsageRow.recorded,reached,ownKey (eq_of_beq own)]
      rw [if_pos counted]
      exact Bool.toNat_le _
    · simp [late]

theorem recordsMore {p : Provider} {status : UsageStatus} {createdAt since : Int} :
    recorded budgetKey since u.rows ≤ recorded budgetKey since (recordCall p status createdAt u).rows := by
  unfold recordCall recorded
  rw [List.countP_append]
  exact Nat.le_add_right _ _

/- A step that writes no usage and makes no call. -/
theorem balancedQuiet {call next : Call} {after : Usage} (rows : after.rows = u.rows) (clock : u.now ≤ after.now)
    (timed : Timed after.now next) (pends : ∀ since, call.pends budgetKey since = next.pends budgetKey since) :
    Balanced budgetKey u call (next,after,[]) :=
  ⟨fun since => by simp [madeSince,rows,pends],timed,fun _ _ member => absurd member List.not_mem_nil,clock⟩

theorem stepBalanced {call : Call} (timed : Timed u.now call) : Balanced budgetKey u call (step call u) := by
  cases call with
  | call p outcome stage =>
    cases stage with
    | starting => exact balancedQuiet rfl (Int.le_refl _) trivial fun _ => rfl
    | stating startedAt =>
      simp only [step,callStep]
      split <;> exact balancedQuiet rfl (Int.le_refl _) trivial fun _ => rfl
    | counting startedAt =>
      simp only [step,callStep]
      split <;> exact balancedQuiet rfl (Int.le_refl _) trivial fun _ => rfl
    | bursting startedAt =>
      simp only [step,callStep]
      split <;> exact balancedQuiet rfl (Int.le_refl _) trivial fun _ => rfl
    | calling =>
      refine ⟨fun since => ?_,?_,fun key time member => ?_,Int.le_refl _⟩
      · have one : madeSince budgetKey since [.made p.budgetKey u.now] =
            (p.budgetKey == budgetKey && decide (since ≤ u.now)).toNat := Table.countOne
        simp only [step,callStep,one]
        cases outcome <;> simp only [Call.pends,Bool.toNat_false] <;> omega
      · cases outcome <;> exact Int.le_refl _
      · cases List.mem_singleton.mp member
        rfl
    | clearing madeAt => exact balancedQuiet rfl (Int.le_refl _) timed fun _ => rfl
    | completing madeAt => exact balancedQuiet rfl (Int.le_refl _) timed fun _ => rfl
    | recording madeAt completedAt =>
      refine ⟨fun since => ?_,?_,fun _ _ member => absurd member List.not_mem_nil,Int.le_refl _⟩
      · have more := @recordCallRecorded budgetKey u p outcome.status madeAt completedAt since timed
        have none : ((step (.call p outcome (.recording madeAt completedAt)) u).1.pends budgetKey since) = false := by
          simp only [step,callStep]
          split
          · split <;> rfl
          · rfl
        rw [none]
        simpa [step,callStep,madeSince,Call.pends] using more
      · simp only [step,callStep]
        split
        · split <;> trivial
        · trivial
    | backing reasonCode activeUntil => exact balancedQuiet rfl (Int.le_refl _) trivial fun _ => rfl
    | skipping startedAt decision =>
      refine ⟨fun since => ?_,trivial,fun key time member => ?_,Int.le_refl _⟩
      · have more := @recordsMore budgetKey u p .skipped startedAt since
        simpa [step,callStep,madeSince,Emitted.madeSince,Call.pends] using more
      · cases List.mem_singleton.mp member
    | finished => exact balancedQuiet rfl (Int.le_refl _) trivial fun _ => rfl
  | tick seconds =>
    have later : u.now ≤ u.now + seconds := by omega
    exact balancedQuiet rfl later trivial fun _ => rfl
  | finished => exact balancedQuiet rfl (Int.le_refl _) trivial fun _ => rfl

/- A step that lets no call of the budget in. -/
theorem admitsQuiet {call next : Call} {after : Usage} (waits : next.waits budgetKey → call.waits budgetKey) :
    (∀ since, madeSince budgetKey since ([] : List Emitted) + (next.waits budgetKey).toNat ≤ (call.waits budgetKey).toNat) ∨
      Admits budgetKey u call (next,after,[]) := by
  refine .inl fun since => ?_
  cases here : next.waits budgetKey with
  | false => exact Nat.zero_le _
  | true =>
    rw [waits here]
    exact Nat.le_refl _

theorem stepAdmits {call : Call} : (∀ since, madeSince budgetKey since (step call u).2.2 + ((step call u).1.waits budgetKey).toNat ≤
    (call.waits budgetKey).toNat) ∨ Admits budgetKey u call (step call u) := by
  cases call with
  | call p outcome stage =>
    cases stage with
    | counting startedAt =>
      cases refused : dailyRefusal p u with
      | some decision =>
        simp only [step,callStep,refused]
        exact admitsQuiet nofun
      | none =>
        by_cases own : p.budgetKey = budgetKey
        · refine .inr ⟨p,outcome,startedAt,rfl,own,refused,?_⟩
          simp only [step,callStep,refused]
        · simp only [step,callStep,refused]
          refine admitsQuiet fun waits => absurd (eq_of_beq waits) own
    | bursting startedAt =>
      simp only [step,callStep]
      split
      · exact admitsQuiet nofun
      · exact admitsQuiet fun waits => waits
    | calling =>
      refine .inl fun since => ?_
      have one : madeSince budgetKey since [.made p.budgetKey u.now] =
          (p.budgetKey == budgetKey && decide (since ≤ u.now)).toNat := Table.countOne
      have none : ((step (.call p outcome .calling) u).1.waits budgetKey) = false := by cases outcome <;> rfl
      rw [none]
      simp only [step,callStep,one,Call.waits]
      cases p.budgetKey == budgetKey <;> simp [Bool.toNat_le]
    | starting => exact admitsQuiet nofun
    | stating startedAt =>
      simp only [step,callStep]
      split <;> exact admitsQuiet nofun
    | clearing | completing | backing | finished => exact admitsQuiet nofun
    | recording madeAt completedAt =>
      simp only [step,callStep]
      split
      · split <;> exact admitsQuiet nofun
      · exact admitsQuiet nofun
    | skipping startedAt decision => exact .inl fun since => Nat.zero_le _
  | tick | finished => exact admitsQuiet nofun

/- The calls of a budget are limited by one number. -/
def Limited (budgetKey : String) (bound : Nat) : Call → Prop
  | .call p _ _ => p.budgetKey = budgetKey → ∃ limit ∈ p.dailyCallLimit, limit ≤ bound
  | _ => True

structure Kept (budgetKey : String) (bound : Nat) (w : World Call Usage Emitted) : Prop where
  recorded : ∀ since, madeSince budgetKey since w.trace ≤
    recorded budgetKey since w.store.rows + pending budgetKey since w.calls
  room : ∀ since, w.store.now - daySeconds ≤ since → madeSince budgetKey since w.trace + waiting budgetKey w.calls ≤ bound
  days : ∀ since, madeInDay budgetKey since w.trace ≤ bound
  timed : ∀ call ∈ w.calls, Timed w.store.now call
  limited : ∀ call ∈ w.calls, Limited budgetKey bound call

variable {bound : Nat} {w : World Call Usage Emitted}

theorem madeFewer {trace : List Emitted} {since later : Int} (order : since ≤ later) :
    madeSince budgetKey later trace ≤ madeSince budgetKey since trace := by
  refine List.countP_mono_left fun event _ hit => ?_
  cases event with
  | refused decision => cases hit
  | made key time =>
    simp only [Emitted.madeSince,Bool.and_eq_true,decide_eq_true_eq] at hit ⊢
    exact ⟨hit.1,by omega⟩

theorem dayFewer {trace : List Emitted} {since : Int} : madeInDay budgetKey since trace ≤ madeSince budgetKey since trace := by
  refine List.countP_mono_left fun event _ hit => ?_
  cases event with
  | refused decision => cases hit
  | made key time =>
    simp only [Emitted.madeWithin,Emitted.madeSince,Bool.and_eq_true] at hit ⊢
    exact hit.1

theorem timedLater {now later : Int} {call : Call} (order : now ≤ later) (timed : Timed now call) : Timed later call := by
  cases call with
  | call p outcome stage =>
    cases stage with
    | clearing madeAt | completing madeAt => exact Int.le_trans timed order
    | recording | starting | stating | counting | bursting | calling | backing | skipping | finished => exact timed
  | tick | finished => trivial

theorem stepLimited {call : Call} (limited : Limited budgetKey bound call) : Limited budgetKey bound (step call u).1 := by
  cases call with
  | call => exact limited
  | tick | finished => trivial

/- What the condition says of a call that is let in. -/
theorem countedRoom {p : Provider} {outcome startedAt} (counts : Counts w (.call p outcome (.counting startedAt)))
    (own : p.budgetKey = budgetKey) (limited : Limited budgetKey bound (.call p outcome (.counting startedAt)))
    (admitted : dailyRefusal p w.store = none) :
    recorded budgetKey (w.store.now - daySeconds) w.store.rows + inFlight budgetKey w < bound := by
  subst own
  obtain ⟨limit,given,small⟩ := limited rfl
  rw [Option.mem_def] at given
  unfold dailyRefusal at admitted
  rw [given] at admitted
  have below : countRecentCalls p w.store < limit := by
    by_contra reached
    simp [Nat.le_of_not_lt reached] at admitted
  rcases counts with ⟨none,all⟩ | room
  · omega
  · have here := room limit given
    omega

theorem startKept {op : Op} (kept : Kept budgetKey bound w) (limited : Limited budgetKey bound (enter op)) :
    Kept budgetKey bound { w with calls := w.calls ++ [calls.enter op] } := by
  have waits : waiting budgetKey (w.calls ++ [calls.enter op]) = waiting budgetKey w.calls := by
    unfold waiting
    rw [List.countP_append,Table.countOne]
    cases op <;> rfl
  have pends : ∀ since, pending budgetKey since w.calls ≤ pending budgetKey since (w.calls ++ [calls.enter op]) := by
    intro since
    unfold pending
    rw [List.countP_append]
    exact Nat.le_add_right _ _
  refine ⟨fun since => Nat.le_trans (kept.recorded since) (Nat.add_le_add_left (pends since) _),fun since recent => ?_,
    kept.days,fun call member => ?_,fun call member => ?_⟩
  · rw [waits]
    exact kept.room since recent
  · rcases List.mem_append.mp member with old | new
    · exact kept.timed call old
    · cases List.mem_singleton.mp new
      cases op <;> trivial
  · rcases List.mem_append.mp member with old | new
    · exact kept.limited call old
    · cases List.mem_singleton.mp new
      exact limited

theorem advanceKept {index call} (here : w.calls[index]? = some call) (kept : Kept budgetKey bound w) (counts : Counts w call) :
    Kept budgetKey bound ⟨(step call w.store).2.1,w.calls.set index (step call w.store).1,(step call w.store).2.2 ++ w.trace⟩ := by
  have member := List.mem_of_getElem? here
  have limited := kept.limited call member
  have balanced := @stepBalanced budgetKey w.store call (kept.timed call member)
  have made : ∀ since, madeSince budgetKey since ((step call w.store).2.2 ++ w.trace) =
      madeSince budgetKey since (step call w.store).2.2 + madeSince budgetKey since w.trace := fun _ => List.countP_append
  have waits : waiting budgetKey (w.calls.set index (step call w.store).1) + (call.waits budgetKey).toNat =
      waiting budgetKey w.calls + ((step call w.store).1.waits budgetKey).toNat := Table.countSet here _
  have pends : ∀ since, pending budgetKey since (w.calls.set index (step call w.store).1) + (call.pends budgetKey since).toNat =
      pending budgetKey since w.calls + ((step call w.store).1.pends budgetKey since).toNat := fun _ => Table.countSet here _
  -- A call is made at the clock before the step, so the room is shown for the day up to that clock.
  have room : ∀ since, w.store.now - daySeconds ≤ since → madeSince budgetKey since ((step call w.store).2.2 ++ w.trace) +
      waiting budgetKey (w.calls.set index (step call w.store).1) ≤ bound := by
    intro since recent
    have before := kept.room since recent
    rw [made since]
    rcases @stepAdmits budgetKey w.store call with fewer | ⟨p,outcome,startedAt,rfl,own,admitted,silent⟩
    · have fewer := fewer since
      omega
    · have counted := countedRoom counts own limited admitted
      have stored := kept.recorded (w.store.now - daySeconds)
      have antitone : madeSince budgetKey since w.trace ≤ madeSince budgetKey (w.store.now - daySeconds) w.trace := madeFewer recent
      have none : madeSince budgetKey since (step (.call p outcome (.counting startedAt)) w.store).2.2 = 0 := by
        rw [silent]
        rfl
      have one := Bool.toNat_le ((step (.call p outcome (.counting startedAt)) w.store).1.waits budgetKey)
      unfold inFlight at counted
      omega
  refine ⟨fun since => ?_,fun since recent => room since ?_,fun since => ?_,fun other set => ?_,fun other set => ?_⟩
  · have before := kept.recorded since
    have balance := balanced.balance since
    have pends := pends since
    rw [made since]
    dsimp only
    omega
  · exact Int.le_trans (Int.sub_le_sub_right balanced.clock _) recent
  · by_cases within : w.store.now ≤ since + daySeconds
    · have all := room since (by omega)
      exact Nat.le_trans dayFewer (Nat.le_trans (Nat.le_add_right _ _) all)
    · have none : madeInDay budgetKey since (step call w.store).2.2 = 0 := by
        refine List.countP_eq_zero.mpr fun event emitted hit => ?_
        cases event with
        | refused decision => cases hit
        | made key time =>
          simp only [Emitted.madeWithin,Bool.and_eq_true,decide_eq_true_eq] at hit
          have now := balanced.made key time emitted
          omega
      have before := kept.days since
      unfold madeInDay at none before ⊢
      rw [List.countP_append,none,Nat.zero_add]
      exact before
  · rcases List.mem_or_eq_of_mem_set set with old | new
    · exact timedLater balanced.clock (kept.timed other old)
    · exact new ▸ balanced.timed
  · rcases List.mem_or_eq_of_mem_set set with old | new
    · exact kept.limited other old
    · exact new ▸ stepLimited limited

theorem budgetKept {usage : Usage} {events : List (Event Op)} (meets : Meets calls Counting (idle usage) events)
    (limited : ∀ p outcome, .start (.call p outcome) ∈ events → p.budgetKey = budgetKey → ∃ limit ∈ p.dailyCallLimit, limit ≤ bound) :
    ∀ since, madeInDay budgetKey since (calls.run (idle usage) events).trace ≤ bound := by
  have both : Meets calls (fun w event => Counting w event ∧ event ∈ events) (idle usage) events :=
    meetsAt.mpr fun n event found => ⟨meetsAt.mp meets n event found,List.mem_of_getElem? found⟩
  have kept : Kept budgetKey bound (calls.run (idle usage) events) := by
    refine runMeets (fun w event ok kept => ?_) both ⟨fun _ => Nat.zero_le _,fun _ _ => Nat.zero_le _,fun _ => Nat.zero_le _,
      fun _ member => absurd member List.not_mem_nil,fun _ member => absurd member List.not_mem_nil⟩
    cases event with
    | start op =>
      refine startKept kept ?_
      cases op with
      | call p outcome => exact limited p outcome ok.2
      | tick seconds => trivial
    | advance index =>
      cases found : w.calls[index]? with
      | none =>
        rw [nextIdle found]
        exact kept
      | some call =>
        rw [nextAdvance found]
        exact advanceKept found kept (ok.1 call found)
  exact kept.days

/- Two calls under a limit of one, one after the other and side by side. -/

def limitedProvider : Provider := ⟨some "workspace-a","copilot-mini",false,"gpt-5-mini",some 1,none,none⟩

def answeredCall : Op := .call limitedProvider (.answered .success)

def noUsage : Usage := ⟨0,[],[]⟩

def sequentialCalls : List (Event Op) :=
  [.start answeredCall] ++ List.replicate 8 (.advance 0) ++ [.start answeredCall] ++ List.replicate 8 (.advance 1)

theorem answeredLimited {events : List (Event Op)}
    (only : ∀ event ∈ events, event = .start answeredCall ∨ event = .advance 0 ∨ event = .advance 1) (p : Provider)
    (outcome : Outcome) (member : .start (.call p outcome) ∈ events) (_ : p.budgetKey = "copilot-mini") :
    ∃ limit ∈ p.dailyCallLimit, limit ≤ 1 := by
  rcases only _ member with same | same | same
  · cases same
    exact ⟨1,rfl,Nat.le_refl 1⟩
  · cases same
  · cases same

theorem budgetKeptSequential : madeInDay "copilot-mini" 0 (calls.run (idle noUsage) sequentialCalls).trace ≤ 1 :=
  budgetKept (by decide +kernel) (answeredLimited (by decide +kernel)) 0

def overlappingCalls : List (Event Op) :=
  [.start answeredCall,.start answeredCall] ++ List.replicate 3 (.advance 0) ++ List.replicate 3 (.advance 1) ++
  List.replicate 2 (.advance 0) ++ List.replicate 2 (.advance 1)

theorem budgetExceeded : ¬ ∀ (budgetKey : String) (bound : Nat) (usage : Usage) (events : List (Event Op)),
    (∀ p outcome, .start (.call p outcome) ∈ events → p.budgetKey = budgetKey → ∃ limit ∈ p.dailyCallLimit, limit ≤ bound) →
    ∀ since, madeInDay budgetKey since (calls.run (idle usage) events).trace ≤ bound := by
  intro claimed
  have two : madeInDay "copilot-mini" 0 (calls.run (idle noUsage) overlappingCalls).trace = 2 := by decide +kernel
  have most := claimed "copilot-mini" 1 noUsage overlappingCalls (answeredLimited (by decide +kernel)) 0
  omega

end McpMemory.Providers
