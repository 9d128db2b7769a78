import McpMemory.Lib.Transaction

/-! A connection of Python's `sqlite3` in its default mode: a statement that writes begins a
transaction where none is open, also when it then fails; COMMIT and ROLLBACK end it. -/
namespace McpMemory.Connection
open Transaction

structure Connection (σ : Type) where
  committed : σ
  opened : Option σ
  deriving DecidableEq, Repr

variable {σ ε α β : Type}

def Connection.seen (c : Connection σ) : σ := c.opened.getD c.committed

abbrev Connected (σ ε α : Type) := Tx (Connection σ) ε α

def query (ask : σ → α) : Connected σ ε α := select fun c => ask c.seen

/- The implicit BEGIN. -/
def beginImplicit : Connected σ ε Unit := do
  if ← inspect (·.opened.isSome) then pure ()
  else write fun c => { c with opened := some c.committed }

def execute (effect : σ → Except ε (α × σ)) : Connected σ ε α := do
  beginImplicit
  statement fun c => (effect c.seen).map fun reply => (reply.1,{ c with opened := some reply.2 })

def beginImmediate (nested : ε) : Connected σ ε Unit := statement fun c =>
  if c.opened.isSome then .error nested else .ok ((),{ c with opened := some c.committed })

def commit : Connected σ ε Unit := write fun c => ⟨c.seen,none⟩

def rollback : Connected σ ε Unit := adjust fun c => { c with opened := none }

/- `except Exception` with a rollback and the exception again. -/
def rollingBack (x : Connected σ ε α) : Connected σ ε α := fun oracle session => match x oracle session with
  | (.ok a,after) => (.ok a,after)
  | (.error error,after) => (.error error,{ after with data := { after.data with opened := none } })

def handling (x : Tx σ ε α) (handler : ε → Tx σ ε α) : Tx σ ε α := fun oracle session => match x oracle session with
  | (.ok a,after) => (.ok a,after)
  | (.error error,after) => handler error oracle after

/- An UPDATE that has to hit one row, with COMMIT or ROLLBACK after it. -/
def changing (effect : σ → Nat × σ) (missing : ε) : Connected σ ε Unit := do
  let rowcount ← execute fun data => .ok (effect data)
  if rowcount = 1 then commit
  else do
    rollback
    raise missing

/- From an idle connection, whose next statements are at `moment` and after it. Either no
transaction begins, or the write and the COMMIT that it leads to are done. -/
def Unbroken (oracle : Oracle ε) (moment : Nat) (fits commits : Prop) : Prop :=
  (oracle moment).fault ≠ none ∨ (oracle (moment + 1)).fault = none ∧ fits ∧
    (commits → (oracle (moment + 2)).fault = none)

section
variable {oracle : Oracle ε} {committed : σ} {moment : Nat}

theorem executeIdle {effect : σ → Except ε (α × σ)} : execute effect oracle ⟨⟨committed,none⟩,moment⟩ =
    match (oracle moment).fault with
    | some error => (.error error,⟨⟨committed,none⟩,moment + 1⟩)
    | none => match (oracle (moment + 1)).fault with
      | some error => (.error error,⟨⟨committed,some committed⟩,moment + 2⟩)
      | none => match effect committed with
        | .error error => (.error error,⟨⟨committed,some committed⟩,moment + 2⟩)
        | .ok (a,after) => (.ok a,⟨⟨committed,some after⟩,moment + 2⟩) := by
  unfold execute beginImplicit
  simp only [bindRuns,inspect,Option.isSome_none,Bool.false_eq_true,if_false,write,statement]
  cases (oracle moment).fault with
  | some error => rfl
  | none =>
    dsimp only
    cases (oracle (moment + 1)).fault with
    | some error => rfl
    | none =>
      dsimp only [Connection.seen,Option.getD_some]
      cases effect committed with
      | error error => rfl
      | ok reply => rfl

theorem beginsIdle {nested : ε} (error : ε)
    (failed : (beginImmediate nested oracle ⟨⟨committed,none⟩,moment⟩).1 = .error error) :
    (beginImmediate nested oracle ⟨⟨committed,none⟩,moment⟩).2.data.opened = none := by
  unfold beginImmediate statement at *
  dsimp only at *
  cases fault : (oracle moment).fault with
  | some raised => rfl
  | none => simp [fault] at failed

theorem commitOpened {opened : σ} : (commit : Connected σ ε Unit) oracle ⟨⟨committed,some opened⟩,moment⟩ =
    match (oracle moment).fault with
    | some error => (.error error,⟨⟨committed,some opened⟩,moment + 1⟩)
    | none => (.ok (),⟨⟨opened,none⟩,moment + 1⟩) := rfl

theorem keepsHandling {γ : Type} {view : σ → γ} {x : Tx σ ε α} {handler : ε → Tx σ ε α}
    (kept : ∀ error, Keeps view (handler error)) {session} :
    view (handling x handler oracle session).2.data = view (x oracle session).2.data := by
  unfold handling
  generalize x oracle session = reply
  obtain ⟨error | a,after⟩ := reply
  · exact kept error oracle after
  · rfl

/- Reading ends nothing and begins nothing. -/
theorem keepsQuery (ask : σ → α) : Keeps id (query ask : Connected σ ε α) := keepsSelect _

theorem changingIdle {effect : σ → Nat × σ} {missing : ε} :
    (changing effect missing oracle ⟨⟨committed,none⟩,moment⟩).2.data.opened = none ↔
      Unbroken oracle moment True ((effect committed).1 = 1) := by
  unfold changing Unbroken
  rw [bindRuns,executeIdle]
  cases (oracle moment).fault with
  | some error => simp
  | none =>
    dsimp only
    cases (oracle (moment + 1)).fault with
    | some error => simp
    | none =>
      dsimp only
      split
      · rename_i hit
        rw [commitOpened]
        cases (oracle (moment + 2)).fault <;> simp [hit]
      · rename_i missed
        simp [missed,bindRuns,rollback,adjust,raise]

/- Before a COMMIT nothing of a program is kept, whatever it raises. -/

theorem executeUncommitted {effect : σ → Except ε (α × σ)} : Keeps Connection.committed (execute effect) := by
  refine keepsBind (keepsBind (keepsInspect _) fun opened => ?_) fun _ => keepsStatement fun c a after taken => ?_
  · split
    · exact keepsPure ()
    · exact keepsWrite fun _ => rfl
  · cases done : effect c.seen with
    | error error =>
      rw [done] at taken
      cases taken
    | ok reply =>
      rw [done] at taken
      cases taken
      rfl

/- What all writes of a program keep of what the connection sees, commits or not. -/
def SeesOnly (inv : σ → Prop) (c : Connection σ) : Prop := inv c.committed ∧ ∀ opened ∈ c.opened, inv opened

theorem seesSeen {inv : σ → Prop} {c : Connection σ} (sees : SeesOnly inv c) : inv c.seen := by
  unfold Connection.seen
  cases opened : c.opened with
  | none => exact sees.1
  | some data => exact sees.2 data opened

theorem beginSees {inv : σ → Prop} : Ensures (SeesOnly inv) (beginImplicit : Connected σ ε Unit) fun _ => True := by
  have asked : Ensures (SeesOnly inv) (inspect (·.opened.isSome) : Connected σ ε Bool) fun _ => True :=
    ensuresInspect fun _ _ => trivial
  refine ensuresBind asked fun opened _ => ?_
  split
  · exact ensuresPure trivial
  · exact ensuresWrite fun c sees => ⟨sees.1,fun data same => by cases same; exact sees.1⟩

theorem executeSees {inv : σ → Prop} {effect : σ → Except ε (α × σ)}
    (kept : ∀ data a after, inv data → effect data = .ok (a,after) → inv after) :
    Ensures (SeesOnly inv) (execute effect) fun _ => True := by
  refine ensuresBind beginSees fun _ _ => ensuresStatement fun c a after sees taken => ?_
  cases done : effect c.seen with
  | error error =>
    rw [done] at taken
    cases taken
  | ok reply =>
    rw [done] at taken
    cases taken
    exact ⟨⟨sees.1,fun data same => by cases same; exact kept _ _ _ (seesSeen sees) done⟩,trivial⟩

theorem commitSees {inv : σ → Prop} : Ensures (SeesOnly inv) (commit : Connected σ ε Unit) fun _ => True :=
  ensuresWrite fun _ sees => ⟨seesSeen sees,nofun⟩

theorem querySees {inv : σ → Prop} (ask : σ → α) : Ensures (SeesOnly inv) (query ask : Connected σ ε α) fun _ => True :=
  ensuresSelect _

/- What is read is true of some state that was seen. -/
theorem queryTells {inv : σ → Prop} {post : α → Prop} {ask : σ → α} (told : ∀ data, inv data → post (ask data)) :
    Ensures (SeesOnly inv) (query ask : Connected σ ε α) post :=
  ensuresStatement fun _ _ _ sees taken => by cases taken; exact ⟨sees,told _ (seesSeen sees)⟩

/- A COMMIT that raises keeps nothing. -/
theorem commitFails {session : Session (Connection σ)} {error : ε}
    (failed : ((commit : Connected σ ε Unit) oracle session).1 = .error error) :
    ((commit : Connected σ ε Unit) oracle session).2.data = session.data := by
  unfold commit write statement at *
  dsimp only at *
  cases fault : (oracle session.moment).fault with
  | some raised => rfl
  | none => simp [fault] at failed

/- Nothing of a program is kept when it raises. -/
def Unkept (x : Connected σ ε α) : Prop := ∀ oracle session error, (x oracle session).1 = .error error →
  (x oracle session).2.data.committed = session.data.committed

theorem unkeptKeeps {x : Connected σ ε α} (kept : Keeps Connection.committed x) : Unkept x :=
  fun oracle session _ _ => kept oracle session

theorem unkeptCommit : Unkept (commit : Connected σ ε Unit) := fun _ _ _ failed => by rw [commitFails failed]

theorem unkeptThen {x : Connected σ ε α} {next : α → Connected σ ε β} (first : Keeps Connection.committed x)
    (rest : ∀ a, Unkept (next a)) : Unkept (x >>= next) := by
  intro oracle session error failed
  have here := first oracle session
  rw [bindRuns] at failed ⊢
  generalize x oracle session = reply at here failed ⊢
  obtain ⟨raised | a,middle⟩ := reply
  · exact here
  · exact (rest a oracle middle error failed).trans here

/- Its COMMIT is the last that can raise. -/
theorem unkeptReturn {x : Connected σ ε α} (first : Unkept x) (f : α → β) : Unkept (x >>= fun a => pure (f a)) := by
  intro oracle session error failed
  have here := first oracle session
  rw [bindRuns] at failed ⊢
  generalize x oracle session = reply at here failed ⊢
  obtain ⟨raised | a,middle⟩ := reply
  · exact here raised rfl
  · cases failed

theorem beginSeen {session : Session (Connection σ)} {after} (ran : (beginImplicit : Connected σ ε Unit) oracle session = (.ok (),after)) :
    after.data.seen = session.data.seen := by
  obtain ⟨opened,middle,asked,rest⟩ := bindOk.mp ran
  obtain ⟨rfl,rfl⟩ := inspectOk.mp asked
  split at rest
  · rw [← (pureOk.mp rest).2]
  · rename_i idle
    have closed : session.data.opened = none := by simpa using idle
    rw [← writeOk rest]
    simp [Connection.seen,closed]

theorem executeSeen {effect : σ → Except ε (α × σ)} {session : Session (Connection σ)} {a after}
    (ran : execute effect oracle session = (.ok a,after)) : effect session.data.seen = .ok (a,after.data.seen) := by
  obtain ⟨_,middle,began,wrote⟩ := bindOk.mp ran
  have changed := statementOk wrote
  obtain ⟨reply,taken,same⟩ := mappedOk.mp changed
  obtain ⟨rfl,data⟩ := Prod.mk.inj same
  rw [← beginSeen began,taken,← data]
  rfl

theorem commitEnds {session : Session (Connection σ)} {after}
    (ran : (commit : Connected σ ε Unit) oracle session = (.ok (),after)) : after.data = ⟨session.data.seen,none⟩ :=
  (writeOk ran).symm

theorem rollingBackFails {x : Connected σ ε α} {session : Session (Connection σ)} {error : ε}
    (failed : (rollingBack x oracle session).1 = .error error) : (x oracle session).1 = .error error ∧
      (rollingBack x oracle session).2.data = ⟨(x oracle session).2.data.committed,none⟩ := by
  unfold rollingBack at *
  revert failed
  rcases x oracle session with ⟨raised | a,after⟩
  · exact fun failed => ⟨failed,rfl⟩
  · exact fun failed => by cases failed

theorem rollingBackRaises {x : Connected σ ε α} {session : Session (Connection σ)} :
    (rollingBack x oracle session).1 = (x oracle session).1 := by
  unfold rollingBack
  rcases x oracle session with ⟨raised | a,after⟩ <;> rfl

theorem ensuresHandling {inv : σ → Prop} {post : α → Prop} {x : Tx σ ε α} {handler : ε → Tx σ ε α}
    (first : Ensures inv x post) (rest : ∀ error, Ensures inv (handler error) post) : Ensures inv (handling x handler) post := by
  intro oracle session start
  have here := first oracle session start
  unfold handling
  generalize x oracle session = reply at here ⊢
  obtain ⟨error | a,middle⟩ := reply
  · exact rest error oracle middle here.1
  · exact here

theorem rollbackSees {inv : σ → Prop} : Ensures (SeesOnly inv) (rollback : Connected σ ε Unit) fun _ => True :=
  ensuresAdjust fun _ sees => ⟨sees.1,nofun⟩

theorem beginImmediateSees {inv : σ → Prop} {nested : ε} : Ensures (SeesOnly inv) (beginImmediate nested) fun _ => True := by
  refine ensuresStatement fun c _ after sees taken => ?_
  split at taken <;> cases taken
  exact ⟨⟨sees.1,fun data same => by cases same; exact sees.1⟩,trivial⟩

theorem rollingBackSees {inv : σ → Prop} {post : α → Prop} {x : Connected σ ε α} (kept : Ensures (SeesOnly inv) x post) :
    Ensures (SeesOnly inv) (rollingBack x) post := by
  intro oracle session start
  have here := kept oracle session start
  unfold rollingBack
  generalize x oracle session = reply at here ⊢
  obtain ⟨error | a,after⟩ := reply
  · exact ⟨⟨here.1.1,nofun⟩,fun _ same => by cases same⟩
  · exact here

theorem changingSees {inv : σ → Prop} {effect : σ → Nat × σ} {missing : ε} (kept : ∀ data, inv data → inv (effect data).2) :
    Ensures (SeesOnly inv) (changing effect missing) fun _ => True := by
  refine ensuresBind (executeSees fun data _ after holds taken => ?_) fun rowcount _ => ?_
  · have written : effect data = (_,after) := Except.ok.inj taken
    have here := kept data holds
    rwa [written] at here
  · split
    · exact commitSees
    · exact ensuresBind rollbackSees fun _ _ => ensuresRaise _

section
variable (quiet : Quiet oracle)
include quiet

theorem beginQuiet (session : Session (Connection σ)) : ∃ middle, (beginImplicit : Connected σ ε Unit) oracle session = (.ok (),middle) ∧
    middle.data.seen = session.data.seen := by
  unfold beginImplicit
  rw [bindRuns]
  show ∃ middle, (if session.data.opened.isSome then pure () else write _ : Connected σ ε Unit) oracle session = _ ∧ _
  split
  · exact ⟨session,rfl,rfl⟩
  · rename_i idle
    rw [write,quietStatement quiet]
    refine ⟨_,rfl,?_⟩
    have closed : session.data.opened = none := by simpa using idle
    simp [Connection.seen,closed]

theorem executeRefused {effect : σ → Except ε (α × σ)} {session : Session (Connection σ)} {error : ε}
    (refused : effect session.data.seen = .error error) : ∃ after, execute effect oracle session = (.error error,after) ∧
      after.data.seen = session.data.seen := by
  obtain ⟨middle,began,same⟩ := beginQuiet quiet session
  refine ⟨⟨middle.data,middle.moment + 1⟩,?_,same⟩
  rw [execute,bindRuns,began]
  dsimp only
  rw [quietStatement quiet,same,refused]
  rfl

theorem executeTaken {effect : σ → Except ε (α × σ)} {session : Session (Connection σ)} {a : α} {data : σ}
    (taken : effect session.data.seen = .ok (a,data)) : ∃ after, execute effect oracle session = (.ok a,after) ∧
      after.data.seen = data := by
  obtain ⟨middle,began,same⟩ := beginQuiet quiet session
  refine ⟨⟨⟨middle.data.committed,some data⟩,middle.moment + 1⟩,?_,rfl⟩
  rw [execute,bindRuns,began]
  dsimp only
  rw [quietStatement quiet,same,taken]
  rfl

theorem commitQuiet (session : Session (Connection σ)) :
    (commit : Connected σ ε Unit) oracle session = (.ok (),⟨⟨session.data.seen,none⟩,session.moment + 1⟩) := by
  rw [commit,write,quietStatement quiet]

theorem queryQuiet (ask : σ → α) (session : Session (Connection σ)) :
    (query ask : Connected σ ε α) oracle session = (.ok (ask session.data.seen),⟨session.data,session.moment + 1⟩) := by
  rw [query,select,quietStatement quiet]

end

end

end McpMemory.Connection
