import Mathlib.Algebra.Order.Ring.Rat
import Mathlib.Data.List.Basic

/-! `buffered_writer.py`: one worker and any number of calls of `write_many` around one condition. What
is done from taking its lock to waiting on it or releasing it is one step, and `notify_all` moves all
that wait on to where they take the lock again. Intervals are ones that the lock can wait for. -/
namespace McpMemory.BufferedWriter

variable {α : Type}

/- What the constructor is given. -/
structure Config where
  lowWatermark : Int
  highWatermark : Int
  flushIntervalSeconds : Rat
  maxQueueSize : Option Int

section
variable (c : Config)

def Config.low : Nat := (max c.lowWatermark 1).toNat

def Config.high : Nat := (max c.highWatermark (max c.lowWatermark 1)).toNat

def Config.bound : Option Nat := c.maxQueueSize.map fun size => (max size (max c.highWatermark (max c.lowWatermark 1))).toNat

/- Whether a wait for the interval ends by itself: `timeout=self._flush_interval_seconds or None`. -/
def Config.timed : Bool := decide (0 < max c.flushIntervalSeconds 0)

end

/- Where the worker is. `napping` is its timed wait, and `woken` after it. -/
inductive Worker (α : Type) where
  | checking
  | sleeping
  | napping
  | woken
  | writing (batch : List α)
  | failing
  | ended
  deriving DecidableEq, Repr

/- A call of `write_many`. -/
inductive Call (α : Type) where
  | entering (items : List α)
  | waiting (items : List α)
  | woken (items : List α)
  | returned
  | raised
  deriving DecidableEq, Repr

structure Writer (α : Type) where
  pending : List α
  inflightBatches : Nat
  flushRequested : Bool
  closed : Bool
  workerError : Bool
  worker : Worker α
  calls : List (Call α)
  deriving DecidableEq, Repr

def start : Writer α := ⟨[],0,false,false,false,.checking,[]⟩

def Worker.notified : Worker α → Worker α
  | .sleeping => .checking
  | .napping => .woken
  | worker => worker

def Call.notified : Call α → Call α
  | .waiting items => .woken items
  | call => call

def notifyAll (w : Writer α) : Writer α := { w with
  worker := w.worker.notified
  calls := w.calls.map Call.notified }

section
variable (c : Config)

/- The end of `_take_batch`. -/
def take (w : Writer α) : Writer α :=
  let batchSize := min w.pending.length c.high
  notifyAll { w with
    pending := w.pending.drop batchSize
    inflightBatches := w.inflightBatches + 1
    flushRequested := w.flushRequested && !(w.pending.drop batchSize).isEmpty
    worker := .writing (w.pending.take batchSize) }

/- One round of its loop. -/
def look (w : Writer α) : Writer α :=
  if w.closed && w.pending.isEmpty && w.inflightBatches == 0 then { w with worker := .ended }
  else if !w.pending.isEmpty && (w.flushRequested || decide (c.low ≤ w.pending.length) || !c.timed) then take c w
  else if !w.pending.isEmpty && c.timed then { w with worker := .napping }
  else { w with worker := .sleeping }

/- `_run`; `fails` says whether `write_batch` raises. -/
def workerStep (fails : Bool) (w : Writer α) : Writer α := match w.worker with
  | .checking => look c w
  | .napping | .woken => if w.pending.isEmpty then look c w else take c w
  | .writing _ => notifyAll { w with
      inflightBatches := w.inflightBatches - 1
      worker := if fails then .failing else .checking }
  | .failing => notifyAll { w with workerError := true, worker := .ended }
  | .sleeping | .ended => w

def append (items : List α) (w : Writer α) : Writer α :=
  let appended := { w with pending := w.pending ++ items }
  if c.low ≤ appended.pending.length then notifyAll appended else appended

/- The call that is here moves on. -/
def settle (index : Nat) (call : Call α) (w : Writer α) : Writer α := { w with calls := w.calls.set index call }

/- The checks for a closed writer and for an error of the worker, and the loop for the bound. -/
def attempt (index : Nat) (items : List α) (w : Writer α) : Writer α :=
  if w.closed || w.workerError then settle index .raised w
  else if c.bound.any fun bound => decide (bound < w.pending.length + items.length) then settle index (.waiting items) w
  else append c items (settle index .returned w)

/- `write_many`. A wait without a timeout goes on until it is notified. -/
def turn (index : Nat) (w : Writer α) : Writer α := match w.calls[index]? with
  | some (.entering items) => if items.isEmpty then settle index .returned w else attempt c index items w
  | some (.waiting items) => if c.timed then attempt c index items w else w
  | some (.woken items) => attempt c index items w
  | _ => w

/- `flush`, up to its own wait, and `close`, up to the `join`. -/

def flush (w : Writer α) : Writer α :=
  if w.workerError || (w.pending.isEmpty && w.inflightBatches == 0) then w
  else notifyAll { w with flushRequested := true }

def close (w : Writer α) : Writer α :=
  if w.closed then w else notifyAll { w with flushRequested := true, closed := true }

inductive Event (α : Type) where
  | worker (fails : Bool)
  | write (items : List α)
  | turn (index : Nat)
  | flush
  | close

def next (w : Writer α) : Event α → Writer α
  | .worker fails => workerStep c fails w
  | .write items => { w with calls := w.calls ++ [.entering items] }
  | .turn index => turn c index w
  | .flush => flush w
  | .close => close w

def run (w : Writer α) (events : List (Event α)) : Writer α := events.foldl (next c) w

def Reached (w : Writer α) : Prop := ∃ events, w = run c start events

end

section
variable {c : Config} {w : Writer α}

theorem lowPositive : 0 < c.low := by
  unfold Config.low
  omega

theorem lowHigh : c.low ≤ c.high := by
  unfold Config.low Config.high
  omega

theorem highBound {bound : Nat} (bounded : c.bound = some bound) : c.high ≤ bound := by
  unfold Config.bound at bounded
  cases size : c.maxQueueSize with
  | none => simp [size] at bounded
  | some limit =>
    simp only [size,Option.map_some,Option.some.injEq] at bounded
    subst bounded
    unfold Config.high
    omega

/- Who is asleep has little to do, who waits has no room, and a worker that is gone was closed or failed. -/
structure Sound (c : Config) (w : Writer α) : Prop where
  asleep : w.worker = .sleeping → w.pending.length < c.low
  waits : ∀ items, Call.waiting items ∈ w.calls → w.closed = false ∧ w.workerError = false ∧
    ∃ bound, c.bound = some bound ∧ bound < w.pending.length + items.length
  gone : w.worker = .ended → w.closed = true ∨ w.workerError = true

theorem notifiedAwake (worker : Worker α) : worker.notified ≠ .sleeping := by cases worker <;> simp [Worker.notified]

theorem notifiedCall (call : Call α) (items : List α) : call.notified ≠ .waiting items := by
  cases call <;> simp [Call.notified]

theorem notifiedEnded {worker : Worker α} (ended : worker.notified = .ended) : worker = .ended := by
  cases worker <;> simp_all [Worker.notified]

theorem notifiedSound (gone : w.worker = .ended → w.closed = true ∨ w.workerError = true) : Sound c (notifyAll w) where
  asleep slept := absurd slept (notifiedAwake _)
  waits items member := by
    obtain ⟨call,_,same⟩ := List.mem_map.mp member
    exact absurd same (notifiedCall call items)
  gone ended := gone (notifiedEnded ended)

theorem takeSound : Sound c (take c w) := notifiedSound fun ended => by cases ended

theorem lookSound (sound : Sound c w) : Sound c (look c w) := by
  unfold look
  split
  · rename_i ended
    simp only [Bool.and_eq_true] at ended
    exact ⟨fun slept => (by cases slept),sound.waits,fun _ => .inl ended.1.1⟩
  · split
    · exact takeSound
    · rename_i idle
      split
      · exact ⟨fun slept => (by cases slept),sound.waits,fun ended => by cases ended⟩
      · rename_i awake
        refine ⟨fun _ => ?_,sound.waits,fun ended => by cases ended⟩
        have none : w.pending.isEmpty = true := by
          cases empty : w.pending.isEmpty with
          | true => rfl
          | false => cases timed : c.timed <;> simp [empty,timed] at idle awake
        rw [List.isEmpty_iff.mp none]
        exact lowPositive

theorem workerSound (fails : Bool) (sound : Sound c w) : Sound c (workerStep c fails w) := by
  unfold workerStep
  split
  · exact lookSound sound
  · split
    · exact lookSound sound
    · exact takeSound
  · split
    · exact lookSound sound
    · exact takeSound
  · refine notifiedSound fun ended => ?_
    cases fails <;> simp at ended
  · exact notifiedSound fun _ => .inr rfl
  · exact sound
  · exact sound

theorem settledWaits {index : Nat} {call : Call α} {items : List α} (fresh : call ≠ .waiting items)
    (member : Call.waiting items ∈ (settle index call w).calls) : Call.waiting items ∈ w.calls := by
  rcases List.mem_or_eq_of_mem_set member with old | new
  · exact old
  · exact absurd new.symm fresh

theorem settleSound {index : Nat} {call : Call α} (fresh : ∀ items, call ≠ .waiting items) (sound : Sound c w) :
    Sound c (settle index call w) :=
  ⟨sound.asleep,fun items member => sound.waits items (settledWaits (fresh items) member),sound.gone⟩

theorem appendSound (items : List α) (sound : Sound c w) : Sound c (append c items w) := by
  unfold append
  dsimp only
  split
  · exact notifiedSound sound.gone
  · rename_i few
    refine ⟨fun _ => Nat.not_le.mp few,fun other member => ?_,sound.gone⟩
    obtain ⟨opened,working,bound,bounded,full⟩ := sound.waits other member
    refine ⟨opened,working,bound,bounded,?_⟩
    simp only [List.length_append]
    omega

theorem attemptSound (index : Nat) (items : List α) (sound : Sound c w) : Sound c (attempt c index items w) := by
  unfold attempt
  split
  · exact settleSound (fun _ => by simp) sound
  · rename_i working
    simp only [Bool.or_eq_true,not_or,Bool.not_eq_true] at working
    split
    · rename_i full
      obtain ⟨bound,bounded,room⟩ := (Option.any_eq_true ..).mp full
      refine ⟨sound.asleep,fun other member => ?_,sound.gone⟩
      rcases List.mem_or_eq_of_mem_set member with old | new
      · exact sound.waits other old
      · cases new
        exact ⟨working.1,working.2,bound,bounded,of_decide_eq_true room⟩
    · exact appendSound items (settleSound (fun _ => by simp) sound)

theorem turnSound (index : Nat) (sound : Sound c w) : Sound c (turn c index w) := by
  unfold turn
  split
  · split
    · exact settleSound (fun _ => by simp) sound
    · exact attemptSound index _ sound
  · split
    · exact attemptSound index _ sound
    · exact sound
  · exact attemptSound index _ sound
  · exact sound

theorem nextSound (event : Event α) (sound : Sound c w) : Sound c (next c w event) := by
  cases event with
  | worker fails => exact workerSound fails sound
  | write items =>
    refine ⟨sound.asleep,fun other member => ?_,sound.gone⟩
    rcases List.mem_append.mp member with old | new
    · exact sound.waits other old
    · simp at new
  | turn index => exact turnSound index sound
  | flush =>
    show Sound c (flush w)
    unfold flush
    split
    · exact sound
    · exact notifiedSound sound.gone
  | close =>
    show Sound c (close w)
    unfold close
    split
    · exact sound
    · exact notifiedSound fun _ => .inl rfl

theorem runSound (events : List (Event α)) (sound : Sound c w) : Sound c (run c w events) := by
  induction events generalizing w with
  | nil => exact sound
  | cons event rest ih => exact ih (nextSound event sound)

theorem reachedSound (reached : Reached c w) : Sound c w := by
  obtain ⟨events,rfl⟩ := reached
  exact runSound events ⟨fun slept => (by cases slept),fun _ member => absurd member List.not_mem_nil,fun ended => by cases ended⟩

/- What the worker has left to do by itself. -/

def Worker.rank : Worker α → Nat
  | .writing _ => 3
  | .checking => 2
  | .napping | .woken | .failing => 1
  | .sleeping | .ended => 0

def left (w : Writer α) : Nat := 4 * w.pending.length + w.worker.rank

def Resting (w : Writer α) : Prop := w.worker = .sleeping ∨ w.worker = .ended

theorem takeFalls (some : w.pending.isEmpty = false) : left (take c w) < 4 * w.pending.length := by
  have high : 0 < c.high := Nat.lt_of_lt_of_le lowPositive lowHigh
  have length : 0 < w.pending.length := List.length_pos_iff.mpr (List.isEmpty_eq_false_iff.mp some)
  simp only [left,take,notifyAll,Worker.notified,Worker.rank,List.length_drop]
  omega

theorem lookFalls : left (look c w) < 4 * w.pending.length + 2 := by
  unfold look
  split
  · simp [left,Worker.rank]
  · split
    · rename_i ready
      simp only [Bool.and_eq_true,Bool.not_eq_true'] at ready
      exact Nat.lt_add_right 2 (takeFalls ready.1)
    · split <;> simp [left,Worker.rank]

theorem emptyLook (none : w.pending.isEmpty = true) : Resting (look c w) := by
  unfold look
  split
  · exact .inr rfl
  · simp [none,Resting]

theorem workerFalls (fails : Bool) : Resting (workerStep c fails w) ∨ left (workerStep c fails w) < left w := by
  cases here : w.worker with
  | checking =>
    refine .inr ?_
    simp only [workerStep,here]
    have size : left w = 4 * w.pending.length + 2 := by
      rw [left,here]
      rfl
    rw [size]
    exact lookFalls
  | napping | woken =>
    simp only [workerStep,here]
    split
    · rename_i none
      exact .inl (emptyLook none)
    · rename_i some
      refine .inr (Nat.lt_add_right _ (takeFalls ?_))
      exact Bool.eq_false_iff.mpr some
  | writing batch =>
    refine .inr ?_
    simp only [workerStep,here]
    cases fails <;> simp [left,here,notifyAll,Worker.notified,Worker.rank]
  | failing => exact .inl (.inr (by simp [workerStep,here,notifyAll,Worker.notified]))
  | sleeping => exact .inl (.inl (by simp [workerStep,here]))
  | ended => exact .inl (.inr (by simp [workerStep,here]))

variable (c) in
/- The worker alone, for so many steps. -/
def work (fails : Nat → Bool) (w : Writer α) : Nat → Writer α
  | 0 => w
  | k+1 => workerStep c (fails k) (work fails w k)

theorem workFirst (fails : Nat → Bool) (k : Nat) :
    work c fails w (k + 1) = work c (fun n => fails (n + 1)) (workerStep c (fails 0) w) k := by
  induction k with
  | zero => rfl
  | succ k ih =>
    rw [work,ih]
    rfl

theorem workRests (fails : Nat → Bool) : ∃ k, Resting (work c fails w k) := by
  induction size : left w using Nat.strong_induction_on generalizing w fails with
  | _ size ih =>
    subst size
    rcases workerFalls (c := c) (w := w) (fails 0) with rests | falls
    · exact ⟨1,rests⟩
    · obtain ⟨k,rests⟩ := ih _ falls (fun n => fails (n + 1)) rfl
      exact ⟨k + 1,by rw [workFirst]; exact rests⟩

theorem workSound (fails : Nat → Bool) (sound : Sound c w) (k : Nat) : Sound c (work c fails w k) := by
  induction k with
  | zero => exact sound
  | succ k ih => exact workerSound _ ih

/- A call that has not ended yet. -/
def Call.Holds (items : List α) (call : Call α) : Prop :=
  call = .entering items ∨ call = .waiting items ∨ call = .woken items

def Finished (w : Writer α) (index : Nat) : Prop := w.calls[index]? = some .returned ∨ w.calls[index]? = some .raised

def Open (w : Writer α) (index : Nat) (items : List α) : Prop := ∃ call, w.calls[index]? = some call ∧ call.Holds items

theorem notifiedOpen {index : Nat} {items : List α} (opened : Open w index items) : Open (notifyAll w) index items := by
  obtain ⟨call,found,held⟩ := opened
  refine ⟨call.notified,by simp [notifyAll,found],?_⟩
  rcases held with rfl | rfl | rfl
  · exact .inl rfl
  · exact .inr (.inr rfl)
  · exact .inr (.inr rfl)

theorem workerOpen (fails : Bool) {index : Nat} {items : List α} (opened : Open w index items) :
    Open (workerStep c fails w) index items := by
  have looked : Open (look c w) index items := by
    unfold look
    split
    · exact opened
    · split
      · exact notifiedOpen opened
      · split <;> exact opened
  unfold workerStep
  split
  · exact looked
  · split
    · exact looked
    · exact notifiedOpen opened
  · split
    · exact looked
    · exact notifiedOpen opened
  · exact notifiedOpen opened
  · exact notifiedOpen opened
  · exact opened
  · exact opened

theorem workOpen (fails : Nat → Bool) {index : Nat} {items : List α} (opened : Open w index items) (k : Nat) :
    Open (work c fails w k) index items := by
  induction k with
  | zero => exact opened
  | succ k ih => exact workerOpen _ ih

/- A list that fits beside the most that a sleeping worker leaves. -/
def Fits (c : Config) (items : List α) : Prop := ∀ bound, c.bound = some bound → items.length + (c.low - 1) ≤ bound

theorem settleFinished {index : Nat} {call : Call α} (bound : index < w.calls.length) (ended : call = .returned ∨ call = .raised) :
    Finished (settle index call w) index := by
  rcases ended with rfl | rfl
  · exact .inl (by simp [settle,bound])
  · exact .inr (by simp [settle,bound])

theorem appendFinished {index : Nat} {items : List α} (finished : Finished w index) : Finished (append c items w) index := by
  unfold append
  dsimp only
  split
  · rcases finished with ended | ended
    · exact .inl (by simp [notifyAll,ended,Call.notified])
    · exact .inr (by simp [notifyAll,ended,Call.notified])
  · exact finished

theorem attemptFinished {index : Nat} {items : List α} (here : index < w.calls.length)
    (room : w.closed = true ∨ w.workerError = true ∨ ∀ bound, c.bound = some bound → w.pending.length + items.length ≤ bound) :
    Finished (attempt c index items w) index := by
  unfold attempt
  split
  · exact settleFinished here (.inr rfl)
  · rename_i working
    split
    · rename_i full
      obtain ⟨bound,bounded,more⟩ := (Option.any_eq_true ..).mp full
      have more := of_decide_eq_true more
      rcases room with ended | ended | room
      · simp [ended] at working
      · simp [ended] at working
      · exact absurd (room bound bounded) (Nat.not_le.mpr more)
    · exact appendFinished (settleFinished here (.inl rfl))

/- Where the worker rests, an open call whose list fits ends with its turn. -/
theorem restingTurn (sound : Sound c w) (resting : Resting w) {index : Nat} {items : List α} (fits : Fits c items)
    (opened : Open w index items) : Finished (turn c index w) index := by
  obtain ⟨call,found,held⟩ := opened
  obtain ⟨here,_⟩ := List.getElem?_eq_some_iff.mp found
  have room : w.closed = true ∨ w.workerError = true ∨
      ∀ bound, c.bound = some bound → w.pending.length + items.length ≤ bound := by
    rcases resting with slept | ended
    · refine .inr (.inr fun bound bounded => ?_)
      have few := sound.asleep slept
      have enough := fits bound bounded
      omega
    · exact (sound.gone ended).imp_right .inl
  have ends := attemptFinished (c := c) here room
  rcases held with rfl | rfl | rfl
  · simp only [turn,found]
    split
    · exact settleFinished here (.inl rfl)
    · exact ends
  · obtain ⟨opened,working,bound,bounded,full⟩ := sound.waits items (List.mem_of_getElem? found)
    rcases room with ended | ended | room
    · rw [opened] at ended
      cases ended
    · rw [working] at ended
      cases ended
    · exact absurd (room bound bounded) (Nat.not_le.mpr full)
  · simp only [turn,found]
    exact ends

/- A call of `write_many` with this list, in any state, ends after some steps of the worker. -/
def Returns (c : Config) (items : List α) : Prop := ∀ w, Reached c w → ∀ index, Open w index items →
  ∀ fails, ∃ k, Finished (turn c index (work c fails w k)) index

/- Items are pending, the worker waits without a timeout, and whatever turns the calls take, none wakes it. -/
def Stuck (c : Config) (w : Writer α) : Prop :=
  w.pending ≠ [] ∧ w.worker = .sleeping ∧ ∀ turns : List Nat, (run c w (turns.map .turn)).worker = .sleeping

theorem fitsReturns {items : List α} (fits : Fits c items) : Returns c items := by
  intro w reached index opened fails
  obtain ⟨k,rests⟩ := workRests (c := c) (w := w) fails
  exact ⟨k,restingTurn (workSound fails (reachedSound reached) k) rests fits (workOpen fails opened k)⟩

end

/- The worker went to sleep before a first call left less than it wakes for. -/

section
variable {c : Config} {first items : List α}

def dozing (pending : List α) (calls : List (Call α)) : Writer α := ⟨pending,0,false,false,false,.sleeping,calls⟩

theorem sleepsFirst : run c (start : Writer α) [.worker false] = dozing [] [] := by
  simp [run,next,workerStep,start,look,dozing]

theorem attemptAppends {w : Writer α} {index : Nat} {items : List α} (opened : w.closed = false) (working : w.workerError = false)
    (fits : ∀ bound, c.bound = some bound → w.pending.length + items.length ≤ bound) :
    attempt c index items w = append c items (settle index .returned w) := by
  have room : (c.bound.any fun bound => decide (bound < w.pending.length + items.length)) = false := by
    rw [Option.any_eq_false]
    intro bound bounded
    exact decide_eq_false (Nat.not_lt.mpr (fits bound bounded))
  rw [attempt,opened,working,room]
  rfl

theorem writesFew (few : first.length < c.low) :
    run c (start : Writer α) [.worker false,.write first,.turn 0] = dozing first [.returned] := by
  show turn c 0 (next c (run c start [.worker false]) (.write first)) = _
  rw [sleepsFirst]
  cases first with
  | nil => rfl
  | cons item rest =>
    have asleep : ¬ c.low ≤ ([] ++ item::rest).length := Nat.not_le.mpr few
    have room (bound : Nat) (bounded : c.bound = some bound) : 0 + (item::rest).length ≤ bound := by
      have high := highBound bounded
      have low := lowHigh (c := c)
      omega
    show attempt c 0 (item::rest) (dozing [] [.entering (item::rest)]) = _
    rw [attemptAppends rfl rfl room]
    exact if_neg asleep

theorem writesMany {bound : Nat} (bounded : c.bound = some bound) (full : bound < first.length + items.length)
    (some : items ≠ []) : turn c 1 (next c (dozing first [.returned]) (.write items)) = dozing first [.returned,.waiting items] := by
  have blank : items.isEmpty = false := List.isEmpty_eq_false_iff.mpr some
  simp [next,dozing,turn,attempt,settle,blank,bounded,full]

theorem dozes (fails : Nat → Bool) (calls : List (Call α)) (k : Nat) :
    work c fails (dozing first calls) k = dozing first calls := by
  induction k with
  | zero => rfl
  | succ k ih =>
    rw [work,ih]
    rfl

theorem waitsOn {bound : Nat} (bounded : c.bound = some bound) (full : bound < first.length + items.length) :
    turn c 1 (dozing first [.returned,.waiting items]) = dozing first [.returned,.waiting items] := by
  cases timed : c.timed <;> simp [dozing,turn,attempt,settle,bounded,full,timed]

theorem crowdedWaits {bound : Nat} (bounded : c.bound = some bound) (full : bound < items.length + (c.low - 1)) :
    ¬ Returns c items := by
  intro returns
  have high := highBound bounded
  have low := lowHigh (c := c)
  have positive := lowPositive (c := c)
  cases items with
  | nil =>
    simp only [List.length_nil] at full
    omega
  | cons item rest =>
    have few : (List.replicate (c.low - 1) item).length < c.low := by
      rw [List.length_replicate]
      omega
    have crowded : bound < (List.replicate (c.low - 1) item).length + (item::rest).length := by
      rw [List.length_replicate]
      omega
    have reached : Reached c (dozing (List.replicate (c.low - 1) item) [.returned,.waiting (item::rest)]) := by
      refine ⟨[.worker false,.write (List.replicate (c.low - 1) item),.turn 0] ++ [.write (item::rest),.turn 1],?_⟩
      rw [← writesMany bounded crowded (by simp),← writesFew few,run,run,List.foldl_append]
      rfl
    obtain ⟨k,ended⟩ := returns _ reached 1 ⟨_,rfl,.inr (.inl rfl)⟩ fun _ => false
    rw [dozes,waitsOn bounded crowded] at ended
    rcases ended with same | same <;> cases same

theorem endedTurns (pending : List α) (turns : List Nat) :
    run c (dozing pending [.returned]) (turns.map .turn) = dozing pending [.returned] := by
  induction turns with
  | nil => rfl
  | cons index rest ih =>
    have still : next c (dozing pending [.returned]) (.turn index) = dozing pending [.returned] := by
      cases index <;> rfl
    rw [List.map_cons,run,List.foldl_cons,still]
    exact ih

/- A call ends for exactly the lists that fit, and nothing is left behind exactly where one item wakes the worker. -/
theorem writerProgress (c : Config) (items : List α) (item : α) :
    (Returns c items ↔ Fits c items) ∧ ((∀ w : Writer α, Reached c w → ¬ Stuck c w) ↔ c.low = 1) := by
  constructor
  · constructor
    · intro returns bound bounded
      by_contra full
      exact crowdedWaits bounded (Nat.not_le.mp full) returns
    · exact fitsReturns
  · constructor
    · intro never
      by_contra more
      have few : [item].length < c.low := by
        have positive := lowPositive (c := c)
        show 1 < c.low
        omega
      refine never (dozing [item] [.returned]) ⟨_,(writesFew few).symm⟩ ⟨by simp [dozing],rfl,fun turns => ?_⟩
      rw [endedTurns]
      rfl
    · rintro one w reached ⟨some,slept,_⟩
      have few := (reachedSound reached).asleep slept
      rw [one,Nat.lt_one_iff,List.length_eq_zero_iff] at few
      exact some few

def smallQueue : Config := ⟨1,64,1/20,some 64⟩

theorem longListWaits : ¬ Returns smallQueue (List.replicate 65 0) :=
  crowdedWaits (show smallQueue.bound = some 64 from rfl) (by decide)

end

end McpMemory.BufferedWriter
