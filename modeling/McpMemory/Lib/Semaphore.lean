import Mathlib.Data.List.Nodup

/-! `asyncio.Semaphore`. A waiter has a key and a future that a release may set; a waiter whose future
is set has its permit and leaves when its task runs next. -/
namespace McpMemory

structure Semaphore where
  value : Nat
  waiters : List (Nat × Bool)
  deriving DecidableEq, Repr

namespace Semaphore

/- Whoever comes while another waits has to wait too, even where a permit is free. -/
def locked (s : Semaphore) : Bool := s.value == 0 || !s.waiters.isEmpty

def enqueue (key : Nat) (s : Semaphore) : Semaphore := { s with waiters := s.waiters ++ [(key,false)] }

/- The first waiter whose future is not set yet. -/
def wakeUpNext : List (Nat × Bool) → Option (List (Nat × Bool))
  | [] => none
  | (key,true)::rest => (wakeUpNext rest).map ((key,true) :: ·)
  | (key,false)::rest => some ((key,true)::rest)

/- Wakes up as many as there are permits. -/
def wakeUp : Nat → List (Nat × Bool) → Semaphore
  | 0,waiters => ⟨0,waiters⟩
  | value + 1,waiters => match wakeUpNext waiters with
    | none => ⟨value + 1,waiters⟩
    | some waiters => wakeUp value waiters

def release (s : Semaphore) : Semaphore := match wakeUpNext s.waiters with
  | none => { s with value := s.value + 1 }
  | some waiters => { s with waiters := waiters }

def granted (key : Nat) (s : Semaphore) : Bool := s.waiters.contains (key,true)

/- A waiter whose future is set goes on. -/
def leave (key : Nat) (s : Semaphore) : Semaphore := wakeUp s.value (s.waiters.erase (key,true))

def keys (s : Semaphore) : List Nat := s.waiters.map (·.1)

/- The permits that no task runs on. -/
def permits (s : Semaphore) : Nat := s.value + s.waiters.countP (·.2)

/- Where a waiter has no permit, none is free or another waiter is about to hand one on. -/
def Fair (s : Semaphore) : Prop := s.waiters.any (!·.2) → s.value = 0 ∨ s.waiters.any (·.2)

theorem wakeNone {waiters} (none : wakeUpNext waiters = none) : waiters.any (!·.2) = false := by
  induction waiters with
  | nil => rfl
  | cons waiter rest ih =>
    obtain ⟨key,_ | _⟩ := waiter
    · cases none
    · simpa using ih (Option.map_eq_none_iff.mp none)

theorem wakeSome {waiters woken} (some_ : wakeUpNext waiters = some woken) : woken.map (·.1) = waiters.map (·.1) ∧
    woken.countP (·.2) = waiters.countP (·.2) + 1 := by
  induction waiters generalizing woken with
  | nil => cases some_
  | cons waiter rest ih =>
    obtain ⟨key,_ | _⟩ := waiter
    · cases some_
      simp
    · obtain ⟨later,here,rfl⟩ := Option.map_eq_some_iff.mp some_
      obtain ⟨same,count⟩ := ih here
      exact ⟨by simp [same],by simp [count]⟩

theorem anyGranted {waiters : List (Nat × Bool)} : waiters.any (·.2) = true ↔ 0 < waiters.countP (·.2) := by
  simp [List.countP_pos_iff]

theorem wakeUpKeeps (value : Nat) (waiters : List (Nat × Bool)) : (wakeUp value waiters).keys = waiters.map (·.1) ∧
    (wakeUp value waiters).permits = value + waiters.countP (·.2) ∧ (wakeUp value waiters).Fair := by
  induction value generalizing waiters with
  | zero => exact ⟨rfl,rfl,fun _ => .inl rfl⟩
  | succ value ih =>
    unfold wakeUp
    cases woken : wakeUpNext waiters with
    | none => exact ⟨rfl,rfl,fun some_ => by rw [wakeNone woken] at some_; cases some_⟩
    | some later =>
      obtain ⟨same,count⟩ := wakeSome woken
      obtain ⟨keys,permits,fair⟩ := ih later
      exact ⟨keys.trans same,by rw [permits]; omega,fair⟩

theorem takeFree {s : Semaphore} (free : s.locked = false) :
    ({ s with value := s.value - 1 } : Semaphore).permits + 1 = s.permits ∧ ({ s with value := s.value - 1 } : Semaphore).Fair := by
  simp only [locked,Bool.or_eq_false_iff,beq_eq_false_iff_ne,Bool.not_eq_false',List.isEmpty_iff] at free
  refine ⟨?_,fun some_ => by simp [free.2] at some_⟩
  simp only [permits,free.2,List.countP_nil]
  omega

theorem enqueueKeeps {s : Semaphore} (fair : s.Fair) (locked : s.locked = true) (key : Nat) :
    (s.enqueue key).permits = s.permits ∧ (s.enqueue key).Fair := by
  refine ⟨by simp [permits,enqueue],fun _ => ?_⟩
  simp only [Semaphore.locked,Bool.or_eq_true,beq_iff_eq,Bool.not_eq_true'] at locked
  rcases locked with empty | some_
  · exact .inl empty
  · obtain ⟨waiter,member⟩ := List.exists_mem_of_ne_nil s.waiters (by simpa using some_)
    have first : s.value = 0 ∨ s.waiters.any (·.2) = true := by
      cases done : waiter.2 with
      | true => exact .inr (List.any_eq_true.mpr ⟨waiter,member,done⟩)
      | false => exact fair (List.any_eq_true.mpr ⟨waiter,member,by simp [done]⟩)
    exact first.imp_right fun any => by rw [enqueue,List.any_append,any,Bool.true_or]

theorem leaveKeeps {s : Semaphore} {key} (here : s.granted key = true) :
    (key :: (s.leave key).keys).Perm s.keys ∧ (s.leave key).permits + 1 = s.permits ∧ (s.leave key).Fair := by
  have split := List.perm_cons_erase (List.contains_iff_mem.mp here)
  obtain ⟨keys,permits,fair⟩ := wakeUpKeeps s.value (s.waiters.erase (key,true))
  have count := split.countP_eq (·.2)
  rw [List.countP_cons_of_pos rfl] at count
  refine ⟨?_,?_,fair⟩
  · rw [leave,keys]
    exact (split.map (·.1)).symm
  · rw [leave,permits,Semaphore.permits,count]
    omega

theorem releaseKeeps (s : Semaphore) : s.release.keys = s.keys ∧ s.release.permits = s.permits + 1 ∧ s.release.Fair := by
  unfold release
  cases woken : wakeUpNext s.waiters with
  | none => exact ⟨rfl,by simp [permits]; omega,fun some_ => by rw [wakeNone woken] at some_; cases some_⟩
  | some later =>
    obtain ⟨same,count⟩ := wakeSome woken
    refine ⟨same,by simp only [permits,count]; omega,fun _ => .inr ?_⟩
    rw [anyGranted,count]
    omega

end Semaphore

end McpMemory
