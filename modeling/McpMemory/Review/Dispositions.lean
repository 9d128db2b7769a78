import McpMemory.Review.Commit

/-! What a batch of dispositions does to the rows, in either store: the first disposition of a
memory settles it, and a row that is no longer active is not written again. -/
namespace McpMemory.Review
open Memory Text Table Transaction
open Postgres (isJsonb itemsJsonb fieldsJsonb memoryByRef recordOf)

variable {env : Env} {request : SkillReviewCommitRequest} {backend : Backend} {before middle after : Ledger}
  {pair : Reviewed} {records : List Reviewed} {memoryId : String}

/- The listed memories as a store reads them at the beginning. -/
def chosen (backend : Backend) (request : SkillReviewCommitRequest) (t : Tables) :
    List SkillReviewDisposition → Except ReviewError (List Reviewed)
  | [] => .ok []
  | item::rest => do
    let record ← eligible backend request item.memoryId t
    let records ← chosen backend request t rest
    .ok ((item,record)::records)

theorem chosenMembers {t : Tables} {items} (given : chosen backend request t items = .ok records) :
    records.map (·.1) = items ∧ ∀ pair ∈ records, eligible backend request pair.1.memoryId t = .ok pair.2 := by
  induction items generalizing records with
  | nil =>
    cases given
    exact ⟨rfl,fun _ member => (by cases member)⟩
  | cons item rest ih =>
    obtain ⟨record,here,given⟩ := checkedOk.mp given
    obtain ⟨later,there,given⟩ := checkedOk.mp given
    cases given
    obtain ⟨items,every⟩ := ih there
    refine ⟨congrArg (item :: ·) items,fun pair member => ?_⟩
    rcases List.mem_cons.mp member with rfl | member
    · exact here
    · exact every pair member

theorem eligibleRecordsOk {items} {oracle : Oracle ReviewError} {session later}
    (run : eligibleRecords backend request items oracle session = (.ok records,later)) :
    chosen backend request session.data.tables items = .ok records ∧ later.data = session.data := by
  induction items generalizing session records later with
  | nil =>
    obtain ⟨same,ended⟩ := pureOk.mp run
    exact ⟨congrArg _ same,congrArg _ ended.symm⟩
  | cons item rest ih =>
    obtain ⟨record,first,here,run⟩ := bindOk.mp run
    obtain ⟨found,second,there,run⟩ := bindOk.mp run
    obtain ⟨same,ended⟩ := pureOk.mp run
    subst same ended
    have taken := statementOk here
    obtain ⟨_,read,kept⟩ := mappedOk.mp taken
    obtain ⟨same,still⟩ := Prod.ext_iff.mp kept
    dsimp only at same still
    subst same
    obtain ⟨rest,untouched⟩ := ih there
    rw [← still] at rest untouched
    exact ⟨checkedOk.mpr ⟨_,read,checkedOk.mpr ⟨_,rest,rfl⟩⟩,untouched⟩

theorem eligibleRecordsReturns {items} (given : chosen backend request before.tables items = .ok records) :
    Returns (eligibleRecords backend request items) before fun found after => found = records ∧ after = before := by
  induction items generalizing records with
  | nil =>
    cases given
    exact returnsPure ⟨rfl,rfl⟩
  | cons item rest ih =>
    obtain ⟨record,here,given⟩ := checkedOk.mp given
    obtain ⟨later,there,given⟩ := checkedOk.mp given
    cases given
    refine @returnsBind _ _ _ _ _ _ (fun found after => found = record ∧ after = before) _ _
      (returnsStatement (by rw [here]; rfl) ⟨rfl,rfl⟩) ?_
    rintro _ _ ⟨rfl,rfl⟩
    refine returnsBind (ih there) ?_
    rintro _ _ ⟨rfl,rfl⟩
    exact returnsPure ⟨rfl,rfl⟩

/- The columns that the UPDATE sets; the times are not fixed. -/
structure Disposing (request : SkillReviewCommitRequest) (pair : Reviewed) (set : MemoryRow → MemoryRow) : Prop where
  id : ∀ row, (set row).id = row.id
  memoryRef : ∀ row, (set row).memoryRef = row.memoryRef
  status : ∀ row, (set row).status = statusFor pair.1.outcome
  metadata : ∀ row, (set row).metadata = reviewed request pair.1 pair.2.metadata

theorem disposingSet (archivedAt : Option String) (now : String) :
    Disposing request pair (setDisposition request pair archivedAt now) :=
  ⟨fun _ => rfl,fun _ => rfl,fun _ => rfl,fun _ => rfl⟩

inductive Batch (request : SkillReviewCommitRequest) : Ledger → List Reviewed → Ledger → Prop
  | nil (l : Ledger) : Batch request l [] l
  | cons {before after pair records set} (disposing : Disposing request pair set)
      (rest : Batch request (updateActive pair.2.id set before) records after) :
      Batch request before (pair::records) after

theorem statusForSettled (outcome : ReviewOutcome) : statusFor outcome ≠ "active" := by
  cases outcome <;> decide

theorem statusForInjective {a b : ReviewOutcome} (same : statusFor a = statusFor b) : a = b := by
  cases a <;> cases b <;> first | rfl | exact absurd same (by decide)

def keyOf (row : MemoryRow) : String × Option Int := (row.id,row.memoryRef)

theorem updateActiveKeys {set} (disposing : Disposing request pair set) (l : Ledger) :
    (updateActive pair.2.id set l).tables.memories.map keyOf = l.tables.memories.map keyOf :=
  updateKeys fun row _ _ => Prod.ext (disposing.id row) (disposing.memoryRef row)

theorem updateActiveRow {set} (disposing : Disposing request pair set) (l : Ledger) :
    selectRow memoryId (updateActive pair.2.id set l).tables = (selectRow memoryId l.tables).map fun row =>
      if row.id == pair.2.id && row.status == "active" then set row else row :=
  findKept fun row => by rw [disposing.id]

/- A row that is found has the id that was asked for. -/
theorem selectRowId {t : Tables} {row} (found : selectRow memoryId t = some row) : row.id = memoryId := by
  simpa using (findSome found).2

theorem updateActiveOther {set} (disposing : Disposing request pair set) (l : Ledger) (other : pair.2.id ≠ memoryId) :
    selectRow memoryId (updateActive pair.2.id set l).tables = selectRow memoryId l.tables := by
  rw [updateActiveRow disposing]
  cases found : selectRow memoryId l.tables with
  | none => rfl
  | some row =>
    have away : row.id ≠ pair.2.id := by
      rw [selectRowId found]
      exact Ne.symm other
    simp [away]

theorem updateActiveSettled {set} (disposing : Disposing request pair set) {l : Ledger} {row}
    (found : selectRow memoryId l.tables = some row) (settled : row.status ≠ "active") :
    selectRow memoryId (updateActive pair.2.id set l).tables = some row := by
  rw [updateActiveRow disposing,found]
  simp [settled]

theorem updateActiveHere {set} (disposing : Disposing request pair set) {l : Ledger} {row}
    (found : selectRow pair.2.id l.tables = some row) (active : row.status = "active") :
    selectRow pair.2.id (updateActive pair.2.id set l).tables = some (set row) := by
  rw [updateActiveRow disposing,found]
  simp [selectRowId found,active]

theorem batchKeys (batch : Batch request before records after) :
    after.tables.memories.map keyOf = before.tables.memories.map keyOf ∧ after.commits = before.commits := by
  induction batch with
  | nil l => exact ⟨rfl,rfl⟩
  | cons disposing rest ih => exact ⟨ih.1.trans (updateActiveKeys disposing _),ih.2⟩

theorem batchOther (batch : Batch request before records after) (other : ∀ pair ∈ records, pair.2.id ≠ memoryId) :
    selectRow memoryId after.tables = selectRow memoryId before.tables := by
  induction batch with
  | nil l => rfl
  | cons disposing rest ih =>
    rw [ih fun pair member => other pair (List.mem_cons_of_mem _ member)]
    exact updateActiveOther disposing _ (other _ List.mem_cons_self)

theorem rowSettled (batch : Batch request before records after) {row}
    (found : selectRow memoryId before.tables = some row) (settled : row.status ≠ "active") :
    selectRow memoryId after.tables = some row := by
  induction batch with
  | nil l => exact found
  | cons disposing rest ih => exact ih (updateActiveSettled disposing found settled)

/- What the first disposition of a memory writes stays. -/
theorem batchFirst (batch : Batch request before records after) {row}
    (found : selectRow memoryId before.tables = some row) (active : row.status = "active")
    (first : records.find? (·.2.id == memoryId) = some pair) :
    ∃ row, selectRow memoryId after.tables = some row ∧ row.status = statusFor pair.1.outcome ∧
      row.metadata = reviewed request pair.1 pair.2.metadata := by
  induction batch generalizing row with
  | nil l => cases first
  | @cons before after head records set disposing rest ih =>
    rw [List.find?_cons] at first
    cases here : head.2.id == memoryId with
    | true =>
      simp only [here,Option.some.injEq] at first
      subst first
      cases eq_of_beq here
      have settled : (set row).status ≠ "active" := by
        rw [disposing.status]
        exact statusForSettled _
      exact ⟨set row,rowSettled rest (updateActiveHere disposing found active) settled,disposing.status row,
        disposing.metadata row⟩
    | false =>
      simp only [here] at first
      exact ih (by rw [updateActiveOther disposing _ (ne_of_beq_false here)]; exact found) active first

/- One disposition. -/

def Locks (backend : Backend) : Prop := ∀ record, Keeps id (backend.lock record)

theorem disposeOk (locks : Locks backend) {oracle : Oracle ReviewError} {session later}
    (run : dispose backend request pair oracle session = (.ok (),later)) : ∃ set locked,
      backend.lock pair.2 oracle session = (.ok (),locked) ∧ Disposing request pair set ∧
      backend.encode (.obj (reviewed request pair.1 pair.2.metadata)) = .ok () ∧
      later.data = updateActive pair.2.id set session.data := by
  obtain ⟨_,locked,here,run⟩ := bindOk.mp run
  obtain ⟨archived,first,given,run⟩ := bindOk.mp run
  obtain ⟨now,second,seen,run⟩ := bindOk.mp run
  have taken := statementOk run
  obtain ⟨_,encoded,written⟩ := mappedOk.mp taken
  have untouched : first.data = locked.data := by
    cases outcome : pair.1.outcome with
    | done =>
      rw [outcome] at given
      obtain ⟨_,_,asked,given⟩ := bindOk.mp given
      rw [← (pureOk.mp given).2,← (observeOk.mp asked).2]
    | bad =>
      rw [outcome] at given
      rw [← (pureOk.mp given).2]
  have start : second.data = session.data := by
    rw [← (observeOk.mp seen).2]
    exact untouched.trans ((locks pair.2).ok here)
  rw [start] at written
  exact ⟨setDisposition request pair archived now.text,locked,here,disposingSet _ _,encoded,
    (congrArg Prod.snd written).symm⟩

theorem archivedAtReturns (outcome : ReviewOutcome) :
    Returns (archivedAt outcome) before fun _ after => after = before := by
  cases outcome with
  | done => exact returnsBind returnsObserve fun _ _ same => returnsPure same
  | bad => exact returnsPure rfl

theorem disposeReturns (locked : Returns (backend.lock pair.2) before fun _ after => after = before)
    (encoded : backend.encode (.obj (reviewed request pair.1 pair.2.metadata)) = .ok ()) :
    Returns (dispose backend request pair) before fun _ after =>
      ∃ set, Disposing request pair set ∧ after = updateActive pair.2.id set before := by
  refine returnsBind locked ?_
  rintro _ _ rfl
  refine returnsBind (archivedAtReturns _) ?_
  rintro _ _ rfl
  refine returnsBind returnsObserve ?_
  rintro _ _ rfl
  exact returnsStatement (by rw [encoded]; rfl) ⟨_,disposingSet _ _,rfl⟩

theorem eachOk (locks : Locks backend) {oracle : Oracle ReviewError} {session later}
    (run : each (dispose backend request) records oracle session = (.ok (),later)) :
    Batch request session.data records later.data := by
  induction records generalizing session with
  | nil =>
    cases (pureOk.mp run).2
    exact .nil _
  | cons pair rest ih =>
    obtain ⟨_,middle,here,run⟩ := bindOk.mp run
    obtain ⟨set,_,_,disposing,_,written⟩ := disposeOk locks here
    have rest := ih run
    rw [written] at rest
    exact .cons disposing rest

/- SQLite updates without a look at the row. -/
theorem sqliteLocks : Locks sqlite := fun _ => keepsPure ()

theorem sqliteEach : Returns (each (dispose sqlite request) records) before fun _ after =>
    after.commits = before.commits := by
  induction records generalizing before with
  | nil => exact returnsPure rfl
  | cons pair rest ih =>
    refine returnsBind (disposeReturns (returnsPure rfl) rfl) ?_
    rintro _ _ ⟨set,_,rfl⟩
    exact ih

/- PostgreSQL looks at the row under a lock. -/

theorem postgresLocks (t : Tables) : Locks (postgres t) := by
  intro record
  refine keepsBind (keepsSelect _) fun status => ?_
  cases status with
  | none => exact keepsRaise _
  | some status =>
    dsimp only
    split
    · exact keepsRaise _
    · exact keepsPure _

theorem lockActiveOk {record : MemoryRecord} {oracle : Oracle ReviewError} {session later}
    (run : lockActive record oracle session = (.ok (),later)) :
    ∃ row, selectRow record.id session.data.tables = some row ∧ row.status = "active" := by
  obtain ⟨status,middle,read,run⟩ := bindOk.mp run
  have read := (selectOk read).1
  cases status with
  | none => exact absurd run raiseOk
  | some status =>
    dsimp only at run
    split at run
    · exact absurd run raiseOk
    · rename_i active
      obtain ⟨row,found,same⟩ := Option.map_eq_some_iff.mp read
      exact ⟨row,found,same.trans (not_not.mp active)⟩

theorem lockActiveReturns {record : MemoryRecord} {row} (found : selectRow record.id before.tables = some row)
    (active : row.status = "active") : Returns (lockActive record) before fun _ after => after = before := by
  refine @returnsBind _ _ _ _ _ _ (fun status after => status = some "active" ∧ after = before) _ _
    (returnsSelect _ ⟨by rw [found,Option.map_some,active],rfl⟩) ?_
  rintro _ _ ⟨rfl,rfl⟩
  exact returnsPure rfl

/- Each memory of the batch once, active and with metadata that `jsonb` takes. -/
structure Fit (request : SkillReviewCommitRequest) (records : List Reviewed) (l : Ledger) : Prop where
  once : (records.map (·.2.id)).Nodup
  active : ∀ pair ∈ records, ∃ row, selectRow pair.2.id l.tables = some row ∧ row.status = "active"
  stored : ∀ pair ∈ records, isJsonb (.obj (reviewed request pair.1 pair.2.metadata))

theorem jsonbOk {value : Json} : jsonb value = .ok () ↔ isJsonb value := by
  unfold jsonb
  split <;> simp_all

theorem postgresFit {t : Tables} {oracle : Oracle ReviewError} {session later}
    (run : each (dispose (postgres t) request) records oracle session = (.ok (),later)) :
    Fit request records session.data := by
  induction records generalizing session with
  | nil => exact ⟨List.nodup_nil,fun _ member => (by cases member),fun _ member => (by cases member)⟩
  | cons pair rest ih =>
    obtain ⟨_,middle,here,run⟩ := bindOk.mp run
    obtain ⟨set,locked,lock,disposing,encoded,written⟩ := disposeOk (postgresLocks t) here
    obtain ⟨row,found,active⟩ := lockActiveOk lock
    have fit := ih run
    rw [written] at fit
    -- the row of the pair is settled by now, so no later pair has its id
    have away : ∀ other ∈ rest, pair.2.id ≠ other.2.id := by
      intro other member same
      obtain ⟨again,there,still⟩ := fit.active other member
      rw [← same,updateActiveHere disposing found active] at there
      cases there
      exact statusForSettled _ ((disposing.status row).symm.trans still)
    refine ⟨?_,?_,?_⟩
    · refine List.nodup_cons.mpr ⟨fun member => ?_,fit.once⟩
      obtain ⟨other,member,same⟩ := List.mem_map.mp member
      exact away other member same.symm
    · intro other member
      rcases List.mem_cons.mp member with rfl | member
      · exact ⟨row,found,active⟩
      · have there := fit.active other member
        rwa [updateActiveOther disposing _ (away other member)] at there
    · intro other member
      rcases List.mem_cons.mp member with rfl | member
      · exact jsonbOk.mp encoded
      · exact fit.stored other member

theorem postgresEach {t : Tables} (fit : Fit request records before) :
    Returns (each (dispose (postgres t) request) records) before fun _ after => after.commits = before.commits := by
  induction records generalizing before with
  | nil => exact returnsPure rfl
  | cons pair rest ih =>
    obtain ⟨row,found,active⟩ := fit.active pair List.mem_cons_self
    have once := List.nodup_cons.mp fit.once
    refine returnsBind (disposeReturns (lockActiveReturns found active)
      (jsonbOk.mpr (fit.stored pair List.mem_cons_self))) ?_
    rintro _ _ ⟨set,disposing,rfl⟩
    refine ih ⟨once.2,fun other member => ?_,fun other member => fit.stored other (List.mem_cons_of_mem _ member)⟩
    have away : pair.2.id ≠ other.2.id := fun same => once.1 (List.mem_map.mpr ⟨other,member,same.symm⟩)
    rw [updateActiveOther disposing _ away]
    exact fit.active other (List.mem_cons_of_mem _ member)

end McpMemory.Review
