import McpMemory.Lib.Interleave
import McpMemory.Providers.Attempts

/-! When the two attempt stores answer alike and hold the same rows. -/
namespace McpMemory.Attempts
open Table Postgres

/- The new text is what SQLite keeps and the stored one is what PostgreSQL keeps. -/
def Settled (old new : Option String) : Prop :=
  (new = none → old ≠ some "") ∧ ∀ text, new = some text → old = none ∨ old = some "" ∨ old = some text

/- An empty text replaces nothing in PostgreSQL. -/
def Plain (old new : Option String) : Prop := new = some "" → old = some ""

/- A heartbeat at zero counts as none in PostgreSQL. -/
def Due (last : Option Int) (now : Int) : Prop := last = some 0 → 0 ≤ now

def Silent (old new : Option String) : Prop := new = none ∨ new = old

/- The columns that name the attempt. -/
def Named (agree : Option String → Option String → Prop) (row : Attempt) (a : Start) : Prop :=
  agree row.workspaceId a.workspaceId ∧ agree row.taskName a.taskName ∧ agree row.providerKey a.providerKey ∧
    agree row.providerName a.providerName ∧ agree row.modelName a.modelName

def Bound (executionEpoch : Int) (subprocessPid : Option Int) : Prop := Sqlite.bindsCall executionEpoch subprocessPid = true

def Restarts (a : Start) (row : Attempt) : Prop :=
  if row.completedAt.isNone then Bound a.executionEpoch a.subprocessPid → isStorable (attempt a) ∧ Named Settled row a ∧
    Plain row.requestId a.requestId ∧ Due row.lastHeartbeatAt a.startedAt
  else if shouldReopen a.requestId a.subprocessPid row then
    Bound a.executionEpoch a.subprocessPid → isStorable (attempt a) ∧ Named Settled row a
  else Bound a.executionEpoch a.subprocessPid ∧ Named Silent row a

def Beats (b : Heartbeat) (row : Attempt) : Prop :=
  if row.completedAt.isNone then Bound b.executionEpoch b.subprocessPid → b.requestId.all isText ∧
    b.subprocessPid.all isInteger ∧ Plain row.requestId b.requestId ∧ Due row.lastHeartbeatAt b.heartbeatAt
  else Bound b.executionEpoch b.subprocessPid

def Finishes (f : Finish) (row : Attempt) : Prop := Bound f.executionEpoch f.subprocessPid →
  f.requestId.all isText ∧ f.subprocessPid.all isInteger ∧ Plain row.requestId f.requestId ∧ (row.completedAt = none →
    isText f.status ∧ f.errorText.all isText ∧ f.terminationReason.all isText ∧ Due row.lastHeartbeatAt f.completedAt ∧
      Plain row.errorText f.errorText ∧ Plain row.terminationReason f.terminationReason)

/- What an operation and the row it finds need. -/
def Merges (rows : List Attempt) : Operation → Prop
  | .start a => match rows.find? (isAttempt a.taskId a.executionEpoch) with
    | none => Bound a.executionEpoch a.subprocessPid → isStorable (attempt a)
    | some row => Restarts a row
  | .heartbeat b => ∀ row, rows.find? (isAttempt b.taskId b.executionEpoch) = some row → Beats b row
  | .finish f => ∀ row, rows.find? (isAttempt f.taskId f.executionEpoch) = some row → Finishes f row

/- What UNIQUE and the columns of PostgreSQL say of a table that both stores hold. -/
structure Held (rows : List Attempt) : Prop where
  unique : UniqueBy (fun row => (row.taskId,row.executionEpoch)) rows
  storable : ∀ row ∈ rows, isStorable row

def accepted (outcome : Outcome) : Option Attempt × List Attempt := (outcome.1.toOption,outcome.2)

section
variable {old new : Option String}

theorem settledIff : new.or old = orText old new ↔ Settled old new := by
  unfold Settled orText
  cases new with
  | none => cases old <;> simp
  | some text =>
    cases old with
    | none => simp
    | some kept =>
      by_cases empty : kept = ""
      · simp [empty]
      · simp only [empty,Option.or_some,Option.any_some,bne_iff_ne,ne_eq,not_false_eq_true,if_true,Option.some.injEq,
          reduceCtorEq,false_or,forall_eq',false_implies,true_and]
        exact eq_comm

theorem plainIff : new.or old = orText new old ↔ Plain old new := by
  unfold Plain orText
  cases new with
  | none => simp
  | some text =>
    by_cases empty : text = ""
    · simp [empty,eq_comm]
    · simp [empty]

theorem silentIff : new.or old = old ↔ Silent old new := by
  unfold Silent
  cases new <;> simp

theorem dueIff {last : Option Int} {now : Int} :
    Sqlite.beaten last now = some (max (orTime last now) now) ↔ Due last now := by
  unfold Sqlite.beaten orTime Due
  cases last with
  | none => simp
  | some time =>
    by_cases zero : time = 0
    · subst zero
      simp only [Option.getD_some,Option.any_some,bne_self_eq_false,Bool.false_eq_true,if_false,Option.some.injEq,
        forall_const]
      omega
    · simp [zero]

theorem orAll {α : Type} {p : α → Bool} {old new : Option α} (stored : old.all p) : (new.or old).all p = new.all p := by
  cases new with
  | none => simpa using stored
  | some value => rfl

theorem isAttemptIff {taskId executionEpoch row} : isAttempt taskId executionEpoch row = true ↔
    row.taskId = taskId ∧ row.executionEpoch = executionEpoch := by
  simp [isAttempt]

theorem integerBinds {n : Int} (fits : isInteger n = true) : Sqlite.binds n = true := by
  simp only [isInteger,Sqlite.binds,Bool.and_eq_true,decide_eq_true_eq] at *
  omega

/- What does not fit 64 bits does not fit 32. -/
theorem unboundPid {executionEpoch subprocessPid} (epoch : isInteger executionEpoch = true)
    (unbound : ¬ Bound executionEpoch subprocessPid) : subprocessPid.all isInteger = false := by
  cases subprocessPid with
  | none => simp [Bound,Sqlite.bindsCall,integerBinds epoch] at unbound
  | some pid =>
    cases fits : isInteger pid with
    | false => simpa using fits
    | true => simp [Bound,Sqlite.bindsCall,integerBinds epoch,integerBinds fits] at unbound

end

section
variable {a : Start} {b : Heartbeat} {f : Finish} {row : Attempt}

theorem restartRunning (running : row.completedAt.isNone = true) : Sqlite.restart a row = restart a row ↔
    Named Settled row a ∧ Plain row.requestId a.requestId ∧ Due row.lastHeartbeatAt a.startedAt := by
  simp only [Sqlite.restart,restart,running,if_true,Attempt.mk.injEq,settledIff,plainIff,dueIff,Named,true_and,and_true]
  tauto

theorem restartReopened (ended : row.completedAt.isNone = false)
    (reopens : shouldReopen a.requestId a.subprocessPid row = true) :
    Sqlite.restart a row = restart a row ↔ Named Settled row a := by
  have done : row.completedAt.isSome = true := by rw [← Option.not_isNone,ended]; rfl
  simp only [Sqlite.restart,restart,ended,done,reopens,Bool.and_self,Bool.false_eq_true,if_false,if_true,Attempt.mk.injEq,
    settledIff,Named,true_and,and_true]

theorem restartKept (ended : row.completedAt.isNone = false)
    (kept : shouldReopen a.requestId a.subprocessPid row = false) :
    Sqlite.restart a row = restart a row ↔ Named Silent row a := by
  have same : restart a row = row := by simp [restart,ended,kept]
  rw [same]
  obtain ⟨_,_,_,_,_,_,_,_,_,_,_,_,_,_,_⟩ := row
  simp only at ended
  simp only [Sqlite.restart,ended,kept,Bool.and_false,Bool.false_eq_true,if_false,Attempt.mk.injEq,silentIff,Named,
    true_and,and_true]

theorem beatRunning (running : row.completedAt.isNone = true) : Sqlite.beat b row = beat b row ↔
    Plain row.requestId b.requestId ∧ Due row.lastHeartbeatAt b.heartbeatAt := by
  have open_ : row.completedAt = none := Option.isNone_iff_eq_none.mp running
  simp only [Sqlite.beat,beat,open_,Option.isNone_none,if_true,Attempt.mk.injEq,plainIff,dueIff,true_and,and_true]

theorem beatEnded (ended : row.completedAt.isNone = false) : Sqlite.beat b row = row := by
  simp [Sqlite.beat,ended]

theorem finishRunning (running : row.completedAt.isNone = true) : Sqlite.finish f row = finish f row ↔
    Plain row.requestId f.requestId ∧ Due row.lastHeartbeatAt f.completedAt ∧ Plain row.errorText f.errorText ∧
      Plain row.terminationReason f.terminationReason := by
  have open_ : row.completedAt = none := Option.isNone_iff_eq_none.mp running
  simp only [Sqlite.finish,finish,open_,Option.isNone_none,if_true,Attempt.mk.injEq,plainIff,dueIff,Option.none_or,
    true_and]

theorem finishEnded (ended : row.completedAt.isNone = false) : Sqlite.finish f row = finish f row ↔
    Plain row.requestId f.requestId := by
  obtain ⟨time,done⟩ := Option.isSome_iff_exists.mp (show row.completedAt.isSome = true by rw [← Option.not_isNone,ended]; rfl)
  simp only [Sqlite.finish,finish,done,Option.isNone_some,Bool.false_eq_true,if_false,Attempt.mk.injEq,plainIff,
    Option.some_or,true_and,and_true]

end

/- What the columns take. -/

section
variable {a : Start} {b : Heartbeat} {f : Finish} {row : Attempt}

theorem storableIff : isStorable row = true ↔ isText row.taskId ∧ isInteger row.executionEpoch ∧
    row.workspaceId.all isText ∧ row.taskName.all isText ∧ row.requestId.all isText ∧ row.subprocessPid.all isInteger ∧
    row.providerKey.all isText ∧ row.providerName.all isText ∧ row.modelName.all isText ∧ isText row.status ∧
    row.errorText.all isText ∧ row.terminationReason.all isText := by
  simp only [isStorable,Bool.and_eq_true,and_assoc]

theorem storableRestart (stored : isStorable row) (here : isAttempt a.taskId a.executionEpoch row)
    (begun : row.completedAt.isNone = true ∨ shouldReopen a.requestId a.subprocessPid row = true) :
    isStorable (Sqlite.restart a row) = isStorable (attempt a) := by
  obtain ⟨task,epoch⟩ := isAttemptIff.mp here
  obtain ⟨_,_,workspace,name,request,pid,key,provider,model,_,_,_⟩ := storableIff.mp stored
  cases running : row.completedAt.isNone with
  | true =>
    simp only [isStorable,Sqlite.restart,attempt,running,if_true,orAll workspace,orAll name,orAll request,orAll pid,
      orAll key,orAll provider,orAll model,task,epoch]
  | false =>
    have reopens : shouldReopen a.requestId a.subprocessPid row = true := by simpa [running] using begun
    have done : row.completedAt.isSome = true := by rw [← Option.not_isNone,running]; rfl
    simp only [isStorable,Sqlite.restart,attempt,running,done,reopens,Bool.and_self,Bool.false_eq_true,if_false,if_true,
      orAll workspace,orAll name,orAll key,orAll provider,orAll model,task,epoch]

theorem storableBeat (stored : isStorable row) (running : row.completedAt.isNone = true) :
    isStorable (Sqlite.beat b row) = true ↔ b.requestId.all isText ∧ b.subprocessPid.all isInteger := by
  obtain ⟨task,epoch,workspace,name,request,pid,key,provider,model,status,error,reason⟩ := storableIff.mp stored
  simp only [storableIff,Sqlite.beat,running,if_true,orAll request,orAll pid,task,epoch,workspace,name,key,provider,model,
    status,error,reason,true_and,and_true]

theorem storableFinish (stored : isStorable row) : isStorable (Sqlite.finish f row) = true ↔
    f.requestId.all isText ∧ f.subprocessPid.all isInteger ∧ (row.completedAt = none →
      isText f.status ∧ f.errorText.all isText ∧ f.terminationReason.all isText) := by
  obtain ⟨task,epoch,workspace,name,request,pid,key,provider,model,status,error,reason⟩ := storableIff.mp stored
  cases done : row.completedAt with
  | none => simp only [storableIff,Sqlite.finish,done,Option.isNone_none,if_true,orAll request,orAll pid,orAll error,
      orAll reason,task,epoch,workspace,name,key,provider,model,true_and,forall_const]
  | some time => simp only [storableIff,Sqlite.finish,done,Option.isNone_some,Bool.false_eq_true,if_false,orAll request,
      orAll pid,task,epoch,workspace,name,key,provider,model,status,error,reason,true_and,and_true,reduceCtorEq,
      false_implies]

theorem allOr {α : Type} {p : α → Bool} {old new : Option α} (all : (new.or old).all p = true) : new.all p = true := by
  cases new with
  | none => rfl
  | some value => exact all

/- PostgreSQL sends the process id it is given wherever it writes the row. -/

theorem restartPid (stored : isStorable (restart a row))
    (begun : row.completedAt.isNone = true ∨ shouldReopen a.requestId a.subprocessPid row = true) :
    a.subprocessPid.all isInteger := by
  have pid := (storableIff.mp stored).2.2.2.2.2.1
  unfold restart at pid
  split at pid
  · exact allOr pid
  · rename_i ended
    rw [if_pos (begun.resolve_left ended)] at pid
    exact pid

theorem beatPid (stored : isStorable (beat b row)) : b.subprocessPid.all isInteger :=
  allOr (storableIff.mp stored).2.2.2.2.2.1

theorem finishPid (stored : isStorable (finish f row)) : f.subprocessPid.all isInteger := by
  have pid := (storableIff.mp stored).2.2.2.2.2.1
  unfold finish at pid
  split at pid <;> exact allOr pid

end

/- One operation on a row that both stores hold. -/

section
variable {rows : List Attempt} {row updated : Attempt} {taskId : String} {executionEpoch : Int}
  {subprocessPid : Option Int} {set : Attempt → Attempt}

def SameKey (row other : Attempt) : Prop := other.taskId = row.taskId ∧ other.executionEpoch = row.executionEpoch

theorem stillHere (same : ∀ row, SameKey row (set row)) : ∀ row, isAttempt taskId executionEpoch row →
    isAttempt taskId executionEpoch (set row) := by
  intro row here
  obtain ⟨task,epoch⟩ := isAttemptIff.mp here
  exact isAttemptIff.mpr ⟨(same row).1.trans task,(same row).2.trans epoch⟩

theorem onlyHere (held : Held rows) (found : rows.find? (isAttempt taskId executionEpoch) = some row) :
    ∀ other ∈ rows, isAttempt taskId executionEpoch other → other = row := by
  intro other member here
  obtain ⟨stored,named⟩ := findSome found
  obtain ⟨task,epoch⟩ := isAttemptIff.mp here
  obtain ⟨task',epoch'⟩ := isAttemptIff.mp named
  exact equalOfKey held.unique member stored (Prod.ext (task.trans task'.symm) (epoch.trans epoch'.symm))

theorem countHere (held : Held rows) (found : rows.find? (isAttempt taskId executionEpoch) = some row) :
    rows.countP (isAttempt taskId executionEpoch) = 1 := by
  have most := countKey held.unique (taskId,executionEpoch)
  have asked : (fun row : Attempt => decide ((row.taskId,row.executionEpoch) = (taskId,executionEpoch))) =
      isAttempt taskId executionEpoch := by
    funext row
    simp only [isAttempt,Prod.mk.injEq,Bool.decide_and]
    rfl
  rw [asked] at most
  obtain ⟨stored,named⟩ := findSome found
  have least := List.countP_pos_iff.mpr ⟨row,stored,named⟩
  omega

theorem sqliteChanged (held : Held rows) (found : rows.find? (isAttempt taskId executionEpoch) = some row)
    (same : ∀ row, SameKey row (set row)) (bound : Bound executionEpoch subprocessPid) :
    Sqlite.change taskId executionEpoch subprocessPid set rows =
      (.ok (set row),update (isAttempt taskId executionEpoch) set rows) := by
  unfold Sqlite.change
  rw [if_pos (show Sqlite.bindsCall executionEpoch subprocessPid = true from bound)]
  dsimp only
  rw [if_pos (countHere held found),getAttempt,findReplaced (stillHere same) found]

/- The two writes agree where PostgreSQL takes the row and it is the one that SQLite writes. -/
theorem changeAgrees (held : Held rows) (found : rows.find? (isAttempt taskId executionEpoch) = some row)
    (same : ∀ row, SameKey row (set row)) (named : SameKey row updated) :
    accepted (Sqlite.change taskId executionEpoch subprocessPid set rows) = accepted (updateAttemptRow updated rows) ↔
      (Bound executionEpoch subprocessPid → isStorable updated ∧ set row = updated) ∧
      (¬ Bound executionEpoch subprocessPid → isStorable updated = false) := by
  obtain ⟨task,epoch⟩ := isAttemptIff.mp (findSome found).2
  have here : isAttempt updated.taskId updated.executionEpoch = isAttempt taskId executionEpoch := by
    rw [named.1,named.2,task,epoch]
  have replaced := @findReplaced _ (isAttempt taskId executionEpoch) (fun _ => updated) rows row
    (fun _ _ => isAttemptIff.mpr ⟨named.1.trans task,named.2.trans epoch⟩) found
  have written : updateAttemptRow updated rows = if isStorable updated then
      (.ok updated,update (isAttempt taskId executionEpoch) (fun _ => updated) rows) else (.error .dataError,rows) := by
    unfold updateAttemptRow reread getAttempt
    rw [here,replaced]
  rw [written]
  by_cases bound : Bound executionEpoch subprocessPid
  · rw [sqliteChanged held found same bound]
    simp only [bound,forall_const,not_true_eq_false,false_implies,and_true]
    cases stored : isStorable updated with
    | false => simp [accepted,Except.toOption]
    | true =>
      constructor
      · intro agree
        exact ⟨rfl,Option.some.inj (congrArg Prod.fst agree)⟩
      · rintro ⟨_,equal⟩
        have rows_ := @updateAgree _ (isAttempt taskId executionEpoch) set (fun _ => updated) rows fun other member hit => by
          rw [onlyHere held found other member hit,equal]
        rw [rows_,equal]
        rfl
  · have refused : Sqlite.change taskId executionEpoch subprocessPid set rows = (.error .overflowError,rows) := if_neg bound
    rw [refused]
    simp only [bound,false_implies,true_and,not_false_eq_true,forall_const]
    cases isStorable updated <;> simp [accepted,Except.toOption]

end

section
variable {rows : List Attempt} {row : Attempt}

theorem textHere {taskId executionEpoch} (held : Held rows) (found : rows.find? (isAttempt taskId executionEpoch) = some row) :
    isText taskId = true ∧ isInteger executionEpoch = true := by
  obtain ⟨stored,named⟩ := findSome found
  obtain ⟨task,epoch⟩ := isAttemptIff.mp named
  have columns := storableIff.mp (held.storable row stored)
  rw [← task,← epoch]
  exact ⟨columns.1,columns.2.1⟩

/- Where PostgreSQL sends the process id, what SQLite cannot bind is refused by both. -/
theorem bothRefuse {executionEpoch subprocessPid} {stored equal : Prop} {updated : Attempt}
    (epoch : isInteger executionEpoch = true) (sent : isStorable updated → subprocessPid.all isInteger)
    (fits : stored ∧ equal ↔ isStorable updated ∧ equal) :
    ((Bound executionEpoch subprocessPid → isStorable updated ∧ equal) ∧
      (¬ Bound executionEpoch subprocessPid → isStorable updated = false)) ↔
    (Bound executionEpoch subprocessPid → stored ∧ equal) := by
  rw [fits]
  refine ⟨fun both => both.1,fun agree => ⟨agree,fun unbound => ?_⟩⟩
  cases taken : isStorable updated with
  | false => rfl
  | true =>
    have pid := sent taken
    rw [unboundPid epoch unbound] at pid
    cases pid

theorem sameStorable {stored : Prop} {left right : Attempt} (fits : isStorable left = true ↔ stored) :
    stored ∧ left = right ↔ isStorable right = true ∧ left = right := by
  constructor
  · rintro ⟨taken,rfl⟩
    exact ⟨fits.mpr taken,rfl⟩
  · rintro ⟨taken,rfl⟩
    exact ⟨fits.mp taken,rfl⟩

theorem startFound {a : Start} (held : Held rows) (found : rows.find? (isAttempt a.taskId a.executionEpoch) = some row) :
    accepted (Sqlite.startAttempt a rows) = accepted (Postgres.startAttempt a rows) ↔ Restarts a row := by
  obtain ⟨stored,named⟩ := findSome found
  obtain ⟨text,epoch⟩ := textHere held found
  have same : ∀ row, SameKey row (Sqlite.restart a row) := fun _ => ⟨rfl,rfl⟩
  have key : SameKey row (Postgres.restart a row) := by
    unfold Postgres.restart
    split
    · exact ⟨rfl,rfl⟩
    · split <;> exact ⟨rfl,rfl⟩
  have upsert : Sqlite.startAttempt a rows =
      Sqlite.change a.taskId a.executionEpoch a.subprocessPid (Sqlite.restart a) rows := by
    have present : rows.any (isAttempt a.taskId a.executionEpoch) = true := List.any_eq_true.mpr ⟨row,stored,named⟩
    unfold Sqlite.startAttempt Sqlite.change
    simp only [present,countHere held found,if_true]
  have postgres : Postgres.startAttempt a rows = updateAttemptRow (Postgres.restart a row) rows := by
    unfold Postgres.startAttempt
    rw [if_pos text,found]
  rw [upsert,postgres,changeAgrees held found same key]
  unfold Restarts
  cases running : row.completedAt.isNone with
  | true =>
    rw [if_pos rfl,← restartRunning running]
    exact bothRefuse epoch (fun taken => restartPid taken (.inl running))
      (sameStorable (by rw [storableRestart (held.storable row stored) named (.inl running)]))
  | false =>
    rw [if_neg Bool.false_ne_true]
    cases reopens : shouldReopen a.requestId a.subprocessPid row with
    | true =>
      rw [if_pos rfl,← restartReopened running reopens]
      exact bothRefuse epoch (fun taken => restartPid taken (.inr reopens))
        (sameStorable (by rw [storableRestart (held.storable row stored) named (.inr reopens)]))
    | false =>
      have unchanged : Postgres.restart a row = row := by simp [Postgres.restart,running,reopens]
      rw [if_neg Bool.false_ne_true,← restartKept running reopens,unchanged,held.storable row stored]
      by_cases bound : Bound a.executionEpoch a.subprocessPid <;> simp [bound]

theorem startMissing {a : Start} (missing : rows.find? (isAttempt a.taskId a.executionEpoch) = none) :
    accepted (Sqlite.startAttempt a rows) = accepted (Postgres.startAttempt a rows) ↔
      (Bound a.executionEpoch a.subprocessPid → isStorable (attempt a)) := by
  have absent : rows.any (isAttempt a.taskId a.executionEpoch) = false := by simpa using findNone missing
  have read : getAttempt a.taskId a.executionEpoch (rows ++ [attempt a]) = .ok (attempt a) := by
    simp [getAttempt,List.find?_append,missing,attempt,isAttempt]
  have postgres : Postgres.startAttempt a rows =
      if isStorable (attempt a) then (.ok (attempt a),rows ++ [attempt a]) else (.error .dataError,rows) := by
    unfold Postgres.startAttempt reread
    rw [missing,read]
    cases text : isText a.taskId with
    | true => rfl
    | false => simp [isStorable,attempt,text]
  have sqlite : Sqlite.startAttempt a rows = if Sqlite.bindsCall a.executionEpoch a.subprocessPid then
      (.ok (attempt a),rows ++ [attempt a]) else (.error .overflowError,rows) := by
    unfold Sqlite.startAttempt
    simp only [absent,Bool.false_eq_true,if_false,read]
  have smaller : isStorable (attempt a) = true → Sqlite.bindsCall a.executionEpoch a.subprocessPid = true := by
    intro taken
    by_contra unbound
    obtain ⟨_,epoch,_,_,_,pid,_⟩ := storableIff.mp taken
    change a.subprocessPid.all isInteger = true at pid
    rw [show a.subprocessPid.all isInteger = false from unboundPid epoch unbound] at pid
    cases pid
  rw [sqlite,postgres,Bound]
  cases taken : isStorable (attempt a) with
  | true => simp [smaller taken]
  | false => cases Sqlite.bindsCall a.executionEpoch a.subprocessPid <;> simp [accepted,Except.toOption]

theorem heartbeatFound {b : Heartbeat} (held : Held rows)
    (found : rows.find? (isAttempt b.taskId b.executionEpoch) = some row) :
    accepted (Sqlite.heartbeatAttempt b rows) = accepted (Postgres.heartbeatAttempt b rows) ↔ Beats b row := by
  obtain ⟨stored,_⟩ := findSome found
  obtain ⟨text,epoch⟩ := textHere held found
  have same : ∀ row, SameKey row (Sqlite.beat b row) := fun _ => ⟨rfl,rfl⟩
  unfold Beats Sqlite.heartbeatAttempt Postgres.heartbeatAttempt
  rw [if_pos text,found]
  dsimp only
  cases running : row.completedAt.isNone with
  | true =>
    have key : SameKey row (Postgres.beat b row) := ⟨rfl,rfl⟩
    rw [if_pos rfl,if_pos rfl,changeAgrees held found same key,← and_assoc,← beatRunning running]
    exact bothRefuse epoch beatPid (sameStorable (storableBeat (held.storable row stored) running))
  | false =>
    rw [if_neg Bool.false_ne_true,if_neg Bool.false_ne_true]
    by_cases bound : Bound b.executionEpoch b.subprocessPid
    · have idle : update (isAttempt b.taskId b.executionEpoch) (Sqlite.beat b) rows = rows := by
        rw [@updateAgree _ _ (Sqlite.beat b) id rows fun other member hit => by
          rw [onlyHere held found other member hit,beatEnded running]; rfl]
        simp [update]
      rw [sqliteChanged held found same bound,idle,beatEnded running]
      simp [bound,reread,getAttempt,found]
    · have refused : Sqlite.change b.taskId b.executionEpoch b.subprocessPid (Sqlite.beat b) rows =
        (.error .overflowError,rows) := if_neg bound
      rw [refused]
      simp [bound,reread,getAttempt,found,accepted,Except.toOption]

theorem finishFound {f : Finish} (held : Held rows)
    (found : rows.find? (isAttempt f.taskId f.executionEpoch) = some row) :
    accepted (Sqlite.finishAttempt f rows) = accepted (Postgres.finishAttempt f rows) ↔ Finishes f row := by
  obtain ⟨stored,_⟩ := findSome found
  obtain ⟨text,epoch⟩ := textHere held found
  have same : ∀ row, SameKey row (Sqlite.finish f row) := fun _ => ⟨rfl,rfl⟩
  have key : SameKey row (Postgres.finish f row) := by
    unfold Postgres.finish
    split <;> exact ⟨rfl,rfl⟩
  unfold Finishes Sqlite.finishAttempt Postgres.finishAttempt
  rw [if_pos text,found]
  dsimp only
  rw [changeAgrees held found same key,
    bothRefuse epoch finishPid (sameStorable (storableFinish (held.storable row stored)))]
  cases done : row.completedAt with
  | none =>
    rw [finishRunning (by rw [done]; rfl)]
    simp only [forall_const]
    tauto
  | some time =>
    rw [finishEnded (by rw [done]; rfl)]
    simp only [reduceCtorEq,false_implies,and_true,and_assoc]

/- Nobody finds the row. -/
theorem bothMiss {taskId executionEpoch subprocessPid} {set : Attempt → Attempt}
    (missing : rows.find? (isAttempt taskId executionEpoch) = none) :
    accepted (Sqlite.change taskId executionEpoch subprocessPid set rows) = (none,rows) := by
  have absent : rows.countP (isAttempt taskId executionEpoch) = 0 := by
    rw [List.countP_eq_zero]
    exact fun row member hit => by simp [findNone missing row member] at hit
  unfold Sqlite.change
  split
  · simp [absent,accepted,Except.toOption]
  · rfl

theorem performAgrees (operation : Operation) (held : Held rows) :
    accepted (Postgres.perform operation rows) = accepted (Sqlite.perform operation rows) ↔ Merges rows operation := by
  rw [eq_comm]
  cases operation with
  | start a =>
    show accepted (Sqlite.startAttempt a rows) = accepted (Postgres.startAttempt a rows) ↔ _
    cases found : rows.find? (isAttempt a.taskId a.executionEpoch) with
    | none =>
      simp only [Merges,found]
      exact startMissing found
    | some row =>
      simp only [Merges,found]
      exact startFound held found
  | heartbeat b =>
    show accepted (Sqlite.heartbeatAttempt b rows) = accepted (Postgres.heartbeatAttempt b rows) ↔ _
    cases found : rows.find? (isAttempt b.taskId b.executionEpoch) with
    | none =>
      have missed : accepted (Sqlite.heartbeatAttempt b rows) = (none,rows) := bothMiss found
      have refused : accepted (Postgres.heartbeatAttempt b rows) = (none,rows) := by
        unfold Postgres.heartbeatAttempt
        rw [found]
        split <;> rfl
      simp [Merges,found,missed,refused]
    | some row =>
      simp only [Merges,found,Option.some.injEq,forall_eq']
      exact heartbeatFound held found
  | finish f =>
    show accepted (Sqlite.finishAttempt f rows) = accepted (Postgres.finishAttempt f rows) ↔ _
    cases found : rows.find? (isAttempt f.taskId f.executionEpoch) with
    | none =>
      have missed : accepted (Sqlite.finishAttempt f rows) = (none,rows) := bothMiss found
      have refused : accepted (Postgres.finishAttempt f rows) = (none,rows) := by
        unfold Postgres.finishAttempt
        rw [found]
        split <;> rfl
      simp [Merges,found,missed,refused]
    | some row =>
      simp only [Merges,found,Option.some.injEq,forall_eq']
      exact finishFound held found

theorem heldUpdate {updated : Attempt} (held : Held rows) : Held (updateAttemptRow updated rows).2 := by
  unfold updateAttemptRow
  split
  · rename_i taken
    constructor
    · refine updateUnique (fun row _ here => ?_) held.unique
      obtain ⟨task,epoch⟩ := isAttemptIff.mp here
      rw [task,epoch]
    · intro row member
      obtain ⟨old,there,rfl⟩ := memUpdate.mp member
      split
      · exact taken
      · exact held.storable old there
  · exact held

theorem heldPerform (operation : Operation) (held : Held rows) : Held (Postgres.perform operation rows).2 := by
  cases operation with
  | start a =>
    show Held (Postgres.startAttempt a rows).2
    unfold Postgres.startAttempt
    split
    · split
      · rename_i missing
        split
        · rename_i taken
          constructor
          · refine insertUnique (fun row member same => ?_) held.unique
            have hit : isAttempt a.taskId a.executionEpoch row = true :=
              isAttemptIff.mpr ⟨congrArg Prod.fst same,congrArg Prod.snd same⟩
            rw [findNone missing row member] at hit
            cases hit
          · intro row member
            rcases List.mem_append.mp member with old | new
            · exact held.storable row old
            · rw [List.mem_singleton.mp new]
              exact taken
        · exact held
      · exact heldUpdate held
    · exact held
  | heartbeat b =>
    show Held (Postgres.heartbeatAttempt b rows).2
    unfold Postgres.heartbeatAttempt
    split
    · split
      · exact held
      · split
        · exact heldUpdate held
        · exact held
    · exact held
  | finish f =>
    show Held (Postgres.finishAttempt f rows).2
    unfold Postgres.finishAttempt
    split
    · split
      · exact held
      · exact heldUpdate held
    · exact held

end

/- Over every run from an empty table the two stores answer alike and hold the same rows just where
every operation and the row it finds meet the condition. -/
theorem storesAgree (operations : List Operation) :
    Interleave.Parallel (fun operation rows => accepted (Postgres.perform operation rows))
        (fun operation rows => accepted (Sqlite.perform operation rows)) [] operations ↔
      Interleave.Holding (fun operation rows => (Postgres.perform operation rows).2) (fun operation rows => Merges rows operation)
        [] operations := by
  have start : Held [] := ⟨List.Pairwise.nil,fun _ none => absurd none List.not_mem_nil⟩
  exact @Interleave.parallelExact _ _ _ (fun operation rows => accepted (Postgres.perform operation rows))
    (fun operation rows => accepted (Sqlite.perform operation rows)) (fun operation rows => Merges rows operation) Held
    (fun operation _ held => heldPerform operation held) (fun operation _ held => performAgrees operation held) [] operations start

def started (provider : Option String) : Operation :=
  .start ⟨"task",1,none,none,none,none,provider,none,none,10,"running"⟩

/- An attempt that is started again with another provider. -/
theorem providersDiffer :
    ((Sqlite.perform (started (some "new")) (Sqlite.perform (started (some "old")) []).2).2.map (·.providerKey),
      (Postgres.perform (started (some "new")) (Postgres.perform (started (some "old")) []).2).2.map (·.providerKey)) =
      ([some "new"],[some "old"]) ∧
    ¬ ∀ operations, Interleave.Parallel (fun operation rows => accepted (Postgres.perform operation rows))
        (fun operation rows => accepted (Sqlite.perform operation rows)) [] operations := by
  refine ⟨by decide +kernel,fun agree => ?_⟩
  have second := agree [started (some "old"),started (some "new")] [started (some "old")] _ [] rfl
  exact absurd (congrArg (fun reply => reply.2.map (·.providerKey)) second) (by decide +kernel)

end McpMemory.Attempts
