import McpMemory.Review.Dispositions

/-! A commit of dispositions is all or nothing in either store, and a repeat of it answers the
same and changes nothing. Its statuses are the stored ones where the dispositions of one memory
agree. -/
namespace McpMemory.Review
open Memory Text Table Transaction
open Postgres (isJsonb itemsJsonb fieldsJsonb memoryByRef recordOf)
open Curation (ActionError resolveMemoryId)

variable {env : Env} {request : SkillReviewCommitRequest} {backend : Backend} {l before middle after : Ledger}
  {pair : Reviewed} {records : List Reviewed} {response : SkillReviewCommitResponse}
  {resolve : Tables → String → Except ActionError (Option String)} {oracle : Oracle ReviewError}

/- How a spelling is resolved depends on the ids and the references alone. -/

theorem memoryByRefKeys {s t : Tables} (same : s.memories.map keyOf = t.memories.map keyOf) (memoryRef : Nat) :
    memoryByRef s memoryRef = memoryByRef t memoryRef := by
  have keyed : ∀ t : Tables, memoryByRef t memoryRef =
      ((t.memories.map keyOf).find? (·.2 == some (memoryRef : Int))).map (·.1) := by
    intro t
    rw [List.find?_map,Option.map_map]
    rfl
  rw [keyed,keyed,same]

theorem hasKeys {s t : Tables} (same : s.memories.map keyOf = t.memories.map keyOf) (memoryId : String) :
    s.has memoryId = t.has memoryId := by
  have keyed : ∀ t : Tables, t.has memoryId = (t.memories.map keyOf).any (·.1 == memoryId) := by
    intro t
    rw [List.any_map]
    rfl
  rw [keyed,keyed,same]

/- What a store reads with, and how it ends a repeat. -/
structure Serves (backend : Backend) (resolve : Tables → String → Except ActionError (Option String)) (t : Tables) :
    Prop where
  locks : Locks backend
  reads : backend.read t = recordOf resolve t
  stable : ∀ s, s.memories.map keyOf = t.memories.map keyOf → resolve s = resolve t
  ends : ∀ response, backend.replayed response = .commit response ∨ backend.replayed response = .rollback response

theorem sqliteServes (t : Tables) : Serves sqlite resolveMemoryId t where
  locks := sqliteLocks
  reads := rfl
  stable s same := by
    funext memoryId
    have refs : Curation.idByRef s = Curation.idByRef t := funext fun memoryRef => by
      show (if _ then _ else Except.ok (memoryByRef s memoryRef)) = if _ then _ else Except.ok (memoryByRef t memoryRef)
      rw [memoryByRefKeys same]
    unfold resolveMemoryId
    rw [hasKeys same,refs]
  ends _ := .inl rfl

theorem postgresServes (t : Tables) : Serves (postgres t) Postgres.resolveMemoryId t where
  locks := postgresLocks t
  reads := by dsimp only [postgres,Postgres.memoryOf]
  stable s same := by
    have refs : memoryByRef s = memoryByRef t := funext (memoryByRefKeys same)
    funext memoryId
    unfold Postgres.resolveMemoryId
    rw [refs]
  ends _ := .inr rfl

theorem eligibleRecordOk {found record} (given : eligibleRecord request found = .ok record) :
    found = some record ∧ record.status = "active" := by
  unfold eligibleRecord at given
  cases found with
  | none => cases given
  | some other =>
    dsimp only at given
    split at given
    · cases given
    · split at given
      · cases given
      · rename_i active
        split at given
        · cases given
          exact ⟨rfl,not_not.mp active⟩
        · cases given

theorem eligibleOk {memoryId} {t : Tables} {record} (given : eligible backend request memoryId t = .ok record) :
    backend.read t memoryId = .ok (some record) ∧ record.status = "active" := by
  obtain ⟨found,read,given⟩ := checkedOk.mp given
  obtain ⟨rfl,active⟩ := eligibleRecordOk given
  refine ⟨?_,active⟩
  cases here : backend.read t memoryId with
  | error error =>
    rw [here] at read
    cases read
  | ok found =>
    rw [here] at read
    cases read
    rfl

theorem recordOfOk {memoryId} {t : Tables} {record} (found : recordOf resolve t memoryId = .ok (some record)) :
    (∃ row, selectRow record.id t = some row ∧ row.status = record.status) ∧
      ∀ s, resolve s = resolve t → recordOf resolve s memoryId = .ok (recordById record.id s) := by
  obtain ⟨id,resolved,found⟩ := mappedOk.mp found
  obtain ⟨id,rfl,found⟩ := Option.bind_eq_some_iff.mp found
  obtain ⟨row,there,rfl⟩ := Option.map_eq_some_iff.mp found
  have same : (hydrateRecord t row).id = id := selectRowId there
  refine ⟨⟨row,by rw [same]; exact there,rfl⟩,fun s stable => ?_⟩
  unfold recordOf
  rw [stable,resolved,same]
  rfl

theorem chosenActive (serves : Serves backend resolve l.tables) {items}
    (given : chosen backend request l.tables items = .ok records) :
    ∀ pair ∈ records, ∃ row, selectRow pair.2.id l.tables = some row ∧ row.status = "active" := by
  intro pair member
  obtain ⟨read,active⟩ := eligibleOk ((chosenMembers given).2 pair member)
  rw [serves.reads] at read
  obtain ⟨row,found,same⟩ := (recordOfOk read).1
  exact ⟨row,found,same.trans active⟩

/- A commit that takes effect. -/
structure Applied (env : Env) (backend : Backend) (request : SkillReviewCommitRequest) (before : Ledger)
    (records : List Reviewed) (middle : Ledger) (row : Commit) (after : Ledger) : Prop where
  absent : storedCommit request.reviewRunId before = none
  read : chosen backend request before.tables request.dispositions = .ok records
  disposed : ∃ oracle session later, each (dispose backend request) records oracle session = (.ok (),later) ∧
    session.data = before ∧ later.data = middle
  encoded : backend.encode request.asDict = .ok ()
  runId : row.reviewRunId = request.reviewRunId
  digest : row.requestDigest = env.digest request.asDict
  response : row.response = (responseTo request).asDict
  ended : after = { middle with commits := middle.commits ++ [row] }

theorem Applied.batch {row} (applied : Applied env backend request before records middle row after)
    (locks : Locks backend) : Batch request before records middle := by
  obtain ⟨_,_,_,run,start,finish⟩ := applied.disposed
  have batch := eachOk locks run
  rwa [start,finish] at batch

theorem insertCommitOk {session later} (run : insertCommit env backend request oracle session = (.ok (),later)) :
    backend.encode request.asDict = .ok () ∧ storedCommit request.reviewRunId session.data = none ∧ ∃ row : Commit,
      row.reviewRunId = request.reviewRunId ∧ row.requestDigest = env.digest request.asDict ∧
      row.response = (responseTo request).asDict ∧
      later.data = { session.data with commits := session.data.commits ++ [row] } := by
  obtain ⟨now,middle,seen,run⟩ := bindOk.mp run
  have start : middle.data = session.data := by rw [← (observeOk.mp seen).2]
  have taken := statementOk run
  obtain ⟨_,first,taken⟩ := checkedOk.mp taken
  obtain ⟨_,_,taken⟩ := checkedOk.mp taken
  split at taken
  · cases taken
  · rename_i absent
    rw [start] at absent taken
    refine ⟨first,Option.not_isSome_iff_eq_none.mp absent,committedRow env request now.text,rfl,rfl,rfl,
      (congrArg Prod.snd (Except.ok.inj taken)).symm⟩

theorem commitFreshOk {session ending later} (absent : storedCommit request.reviewRunId session.data = none)
    (run : commitFresh env backend request oracle session = (.ok ending,later)) :
    ending = .commit (responseTo request) ∧
      ∃ records middle row, Applied env backend request session.data records middle row later.data := by
  obtain ⟨records,first,read,run⟩ := bindOk.mp run
  obtain ⟨read,still⟩ := eligibleRecordsOk read
  obtain ⟨_,second,disposed,run⟩ := bindOk.mp run
  obtain ⟨_,third,inserted,run⟩ := bindOk.mp run
  obtain ⟨same,ended⟩ := pureOk.mp run
  subst same ended
  obtain ⟨encoded,_,row,runId,digest,response,written⟩ := insertCommitOk inserted
  exact ⟨rfl,records,second.data,row,absent,read,⟨oracle,first,second,disposed,still,rfl⟩,encoded,runId,digest,response,written⟩

/- A commit that answers is a repeat or takes effect. -/
theorem commitCases (serves : Serves backend resolve l.tables)
    (run : transaction (commitBody env backend request) oracle l = (.ok response,after)) :
    (∃ existing, storedCommit request.reviewRunId l = some existing ∧ replay env request existing = .ok response ∧ after = l) ∨
    response = responseTo request ∧ ∃ records middle row, Applied env backend request l records middle row after := by
  have body : ∀ {session ending later}, session.data = l →
      commitBody env backend request oracle session = (.ok ending,later) →
      (∃ existing answer, storedCommit request.reviewRunId l = some existing ∧ replay env request existing = .ok answer ∧
        ending = backend.replayed answer ∧ later.data = l) ∨
      ending = .commit (responseTo request) ∧ ∃ records middle row, Applied env backend request l records middle row later.data := by
    intro session ending later start run
    obtain ⟨found,first,asked,run⟩ := bindOk.mp run
    obtain ⟨read,still⟩ := selectOk asked
    rw [start] at read still
    cases found with
    | some existing =>
      obtain ⟨answer,second,lifted,run⟩ := bindOk.mp run
      obtain ⟨given,same⟩ := liftOk.mp lifted
      obtain ⟨ending,ended⟩ := pureOk.mp run
      subst same ended
      exact .inl ⟨existing,answer,read,given,ending.symm,still.symm⟩
    | none =>
      rw [still] at read
      have fresh := commitFreshOk read run
      rw [← still] at fresh
      exact .inr fresh
  rcases transactionOk run with ⟨begun,session,start,ran,rfl⟩ | ⟨⟨begun,session,start,ran⟩,rfl⟩
  · rcases body start ran with ⟨existing,answer,stored,given,ending,same⟩ | ⟨ending,applied⟩
    · rcases serves.ends answer with commits | rolls
      · cases ending.trans commits
        exact .inl ⟨existing,stored,given,same⟩
      · cases ending.trans rolls
    · cases ending
      exact .inr ⟨rfl,applied⟩
  · rcases body start ran with ⟨existing,answer,stored,given,ending,same⟩ | ⟨ending,_⟩
    · rcases serves.ends answer with commits | rolls
      · cases ending.trans commits
      · cases ending.trans rolls
        exact .inl ⟨existing,stored,given,rfl⟩
    · cases ending

/- A repeat. -/

theorem storedDispositionsRead (items : List SkillReviewCommitDisposition) :
    storedDispositions env (items.map (·.asDict)) = .ok items := by
  induction items with
  | nil => rfl
  | cons item rest ih =>
    have texts : ∀ key value, Json.get [("memory_id",.str item.memoryId),("outcome",.str item.outcome),
        ("status",.str item.status)] key = some (.str value) → storedText env [("memory_id",.str item.memoryId),
        ("outcome",.str item.outcome),("status",.str item.status)] key = .ok value := by
      intro key value found
      unfold storedText
      rw [found]
    refine checkedOk.mpr ⟨item.memoryId,texts _ _ ?_,checkedOk.mpr ⟨item.outcome,texts _ _ ?_,
      checkedOk.mpr ⟨item.status,texts _ _ ?_,checkedOk.mpr ⟨rest,ih,rfl⟩⟩⟩⟩ <;>
      simp [Json.get,List.lookup_cons]

theorem responseRead (response : SkillReviewCommitResponse) (idempotent : Bool) :
    responseFromDict env response.asDict idempotent = .ok { response with idempotent := idempotent } := by
  have read := @storedDispositionsRead env response.dispositions
  unfold SkillReviewCommitResponse.asDict
  generalize same : [("protocol_version",Json.int protocolVersion),("status",.str "committed"),
    ("review_run_id",.str response.reviewRunId),("idempotent",.bool response.idempotent),
    ("dispositions",.arr (response.dispositions.map (·.asDict)))] = fields
  have status : (Json.get fields "status").bind Curation.asText = some "committed" := by
    simp [← same,Json.get,List.lookup_cons,Curation.asText]
  have runId : Json.get fields "review_run_id" = some (.str response.reviewRunId) := by
    simp [← same,Json.get,List.lookup_cons]
  have items : Json.get fields "dispositions" = some (.arr (response.dispositions.map (·.asDict))) := by
    simp [← same,Json.get,List.lookup_cons]
  unfold responseFromDict
  dsimp only
  rw [if_neg (not_not.mpr status),items]
  dsimp only
  rw [read]
  unfold storedText
  rw [runId]
  rfl

theorem replayIdempotent {existing : Commit} (given : replay env request existing = .ok response) :
    response.idempotent = true := by
  unfold replay responseFromDict at given
  split at given
  · cases given
  · split at given
    · split at given
      · cases given
      · split at given
        · obtain ⟨_,_,given⟩ := checkedOk.mp given
          obtain ⟨_,_,given⟩ := checkedOk.mp given
          cases given
          rfl
        · cases given
    · cases given

theorem repeats (serves : Serves backend resolve l.tables) {existing : Commit}
    (stored : storedCommit request.reviewRunId l = some existing) (later : Oracle ReviewError) :
    (transaction (commitBody env backend request) later l).2 = l ∧ (Quiet later →
      ∀ response, replay env request existing = .ok response →
        (transaction (commitBody env backend request) later l).1 = .ok response) := by
  have answered : ∀ answer after, transaction (commitBody env backend request) later l = (.ok answer,after) →
      replay env request existing = .ok answer ∧ after = l := by
    intro answer after run
    rcases commitCases serves run with ⟨other,found,given,same⟩ | ⟨_,_,_,_,applied⟩
    · cases stored.symm.trans found
      exact ⟨given,same⟩
    · rw [applied.absent] at stored
      cases stored
  constructor
  · cases run : transaction (commitBody env backend request) later l with
    | mk reply after =>
      cases reply with
      | error error => exact transactionError run
      | ok answer => exact (answered answer after run).2
  · intro quiet response given
    have returns : Returns (commitBody env backend request) l fun ending _ =>
        ∃ a, ending = .commit a ∨ ending = .rollback a := by
      refine @returnsBind _ _ _ _ _ _ (fun found middle => found = some existing ∧ middle = l) _ _ (returnsSelect _ ⟨stored,rfl⟩) ?_
      rintro _ _ ⟨rfl,rfl⟩
      refine @returnsBind _ _ _ _ _ _ (fun _ _ => True) _ _ (returnsLift given trivial) fun answer _ _ => ?_
      exact returnsPure ⟨answer,serves.ends answer⟩
    obtain ⟨answer,after,run⟩ := returnsTransaction quiet returns
    have same := (answered answer after run).1
    rw [run]
    exact same.symm.trans given ▸ rfl

theorem storedAfter {row} (applied : Applied env backend request before records middle row after)
    (locks : Locks backend) : storedCommit request.reviewRunId after = some row ∧
      replay env request row = .ok { responseTo request with idempotent := true } := by
  constructor
  · have kept := (batchKeys (applied.batch locks)).2
    have absent := applied.absent
    unfold storedCommit at *
    rw [applied.ended,kept,List.find?_append,absent]
    simp [applied.runId]
  · unfold replay
    rw [if_neg (not_not.mpr applied.digest),applied.response]
    exact responseRead _ _

/- A batch that nothing disturbs. -/

theorem commitFreshReturns (absent : storedCommit request.reviewRunId l = none)
    (read : chosen backend request l.tables request.dispositions = .ok records)
    (disposes : Returns (each (dispose backend request) records) l fun _ after => after.commits = l.commits)
    (encoded : backend.encode request.asDict = .ok () ∧ backend.encode (responseTo request).asDict = .ok ()) :
    Returns (commitBody env backend request) l fun ending _ => ∃ a, ending = .commit a ∨ ending = .rollback a := by
  refine @returnsBind _ _ _ _ _ _ (fun found middle => found = none ∧ middle = l) _ _ (returnsSelect _ ⟨absent,rfl⟩) ?_
  rintro _ _ ⟨rfl,rfl⟩
  refine returnsBind (eligibleRecordsReturns read) ?_
  rintro _ _ ⟨rfl,rfl⟩
  refine returnsBind disposes fun _ middle kept => ?_
  refine @returnsBind _ _ _ _ _ _ (fun _ _ => True) _ _ ?_ fun _ _ _ => returnsPure ⟨_,.inl rfl⟩
  refine returnsBind returnsObserve ?_
  rintro now middle rfl
  have still : (storedCommit request.reviewRunId middle).isSome = false := by
    unfold storedCommit at *
    rw [kept,absent]
    rfl
  refine @returnsStatement _ _ _ _ _ _ () { middle with commits := middle.commits ++ [committedRow env request now.text] }
    ?_ trivial
  rw [encoded.1,encoded.2]
  simp only [still]
  rfl

/- The rows afterwards. -/

def Agreeing (records : List Reviewed) : Prop :=
  ∀ a ∈ records, ∀ b ∈ records, a.2.id = b.2.id → a.1.outcome = b.1.outcome

theorem listedAfter (serves : Serves backend resolve before.tables) {row}
    (applied : Applied env backend request before records middle row after) (member : pair ∈ records) :
    ∃ first ∈ records, first.2.id = pair.2.id ∧ ∃ record,
      recordOf resolve after.tables pair.1.memoryId = .ok (some record) ∧ record.id = pair.2.id ∧
      record.status = statusFor first.1.outcome ∧ record.metadata = reviewed request first.1 first.2.metadata := by
  have batch := applied.batch serves.locks
  obtain ⟨old,found,active⟩ := chosenActive serves applied.read pair member
  obtain ⟨first,here⟩ : ∃ first, records.find? (·.2.id == pair.2.id) = some first :=
    Option.isSome_iff_exists.mp (List.find?_isSome.mpr ⟨pair,member,beq_self_eq_true _⟩)
  obtain ⟨row,there,status,metadata⟩ := batchFirst batch found active here
  have tables : after.tables = middle.tables := by rw [applied.ended]
  have read := (eligibleOk ((chosenMembers applied.read).2 pair member)).1
  rw [serves.reads] at read
  have later := (recordOfOk read).2 after.tables (serves.stable _ (by rw [tables]; exact (batchKeys batch).1))
  rw [tables,recordById,there] at later
  rw [tables]
  exact ⟨first,(findSome here).1,by simpa using (findSome here).2,hydrateRecord middle.tables row,later,
    selectRowId there,status,metadata⟩

theorem listedPair {t : Tables} (read : chosen backend request t request.dispositions = .ok records) {item} :
    item ∈ (responseTo request).dispositions ↔ ∃ pair ∈ records,
      item = ⟨pair.1.memoryId,pair.1.outcome.text,statusFor pair.1.outcome⟩ := by
  have items := (chosenMembers read).1
  constructor
  · intro member
    obtain ⟨listed,here,same⟩ := List.mem_map.mp member
    rw [← items] at here
    obtain ⟨pair,there,rfl⟩ := List.mem_map.mp here
    exact ⟨pair,there,same.symm⟩
  · rintro ⟨pair,member,rfl⟩
    exact List.mem_map.mpr ⟨pair.1,items ▸ List.mem_map_of_mem member,rfl⟩

theorem reviewedRunId (item : SkillReviewDisposition) (metadata : Json.Object) :
    Json.get (reviewed request item metadata) "review_run_id" = some (.str request.reviewRunId) := by
  simp [reviewed,Json.getSet]

/- An exception leaves everything as it was and so does a repeat. Otherwise the commit is recorded,
every listed memory is settled under its run and no other row is touched. -/
def AllOrNothing (read : Tables → String → Except ActionError (Option MemoryRecord)) (before : Ledger) : Outcome → Prop
  | (.error _,after) => after = before
  | (.ok response,after) => if response.idempotent then after = before else
      (∃ row, after.commits = before.commits ++ [row] ∧ row.reviewRunId = response.reviewRunId) ∧
      (∀ item ∈ response.dispositions, ∃ record, read after.tables item.memoryId = .ok (some record) ∧
        record.status ≠ "active" ∧ Json.get record.metadata "review_run_id" = some (.str response.reviewRunId)) ∧
      ∀ memoryId, (∀ item ∈ response.dispositions, ∀ record,
        read after.tables item.memoryId = .ok (some record) → record.id ≠ memoryId) →
        selectRow memoryId after.tables = selectRow memoryId before.tables

/- What one store owes for one request. The statuses are those of a commit that takes effect; a
repeat answers what that commit answered. -/
structure Sound (read : Tables → String → Except ActionError (Option MemoryRecord))
    (call : Oracle ReviewError → Ledger → Outcome) (l : Ledger) : Prop where
  whole : ∀ oracle, AllOrNothing read l (call oracle l)
  repeated : ∀ oracle response after, call oracle l = (.ok response,after) → ∀ later,
    (call later after).2 = after ∧ (Quiet later → (call later after).1 = .ok { response with idempotent := true })
  reported : ∀ oracle response after, call oracle l = (.ok response,after) → response.idempotent = false →
    ∀ item ∈ response.dispositions, ∃ record, read after.tables item.memoryId = .ok (some record) ∧
      record.status = item.status

def committing (env : Env) (backendOf : Tables → Backend) (request : SkillReviewCommitRequest)
    (oracle : Oracle ReviewError) (l : Ledger) : Outcome :=
  transaction (commitBody env (backendOf l.tables) request) oracle l

section
variable {backendOf : Tables → Backend} (serves : ∀ t, Serves (backendOf t) resolve t)
include serves

theorem wholeHolds : AllOrNothing (recordOf resolve) l (committing env backendOf request oracle l) := by
  cases run : committing env backendOf request oracle l with
  | mk reply after =>
    cases reply with
    | error error => exact transactionError run
    | ok response =>
      show if response.idempotent then _ else _
      rcases commitCases (serves l.tables) run with ⟨existing,_,given,same⟩ | ⟨rfl,records,middle,row,applied⟩
      · rw [if_pos (replayIdempotent given)]
        exact same
      · have batch := applied.batch (serves l.tables).locks
        have listed := @listedPair _ _ _ _ applied.read
        rw [if_neg (by simp [responseTo])]
        refine ⟨⟨row,?_,applied.runId⟩,fun item member => ?_,fun memoryId apart => ?_⟩
        · rw [applied.ended,(batchKeys batch).2]
        · obtain ⟨pair,here,same⟩ := listed.mp member
          obtain ⟨first,_,_,record,read,_,status,metadata⟩ := listedAfter (serves l.tables) applied here
          subst same
          refine ⟨record,read,?_,?_⟩
          · rw [status]
            exact statusForSettled _
          · rw [metadata]
            exact reviewedRunId _ _
        · have untouched : selectRow memoryId middle.tables = selectRow memoryId l.tables := by
            refine batchOther batch fun pair member => ?_
            obtain ⟨_,_,_,record,read,same,_⟩ := listedAfter (serves l.tables) applied member
            rw [← same]
            exact apart _ (listed.mpr ⟨pair,member,rfl⟩) record read
          rwa [applied.ended]

theorem repeatHolds (run : committing env backendOf request oracle l = (.ok response,after)) (later : Oracle ReviewError) :
    (committing env backendOf request later after).2 = after ∧
      (Quiet later → (committing env backendOf request later after).1 = .ok { response with idempotent := true }) := by
  rcases commitCases (serves l.tables) run with ⟨existing,stored,given,rfl⟩ | ⟨rfl,records,middle,row,applied⟩
  · obtain ⟨still,answer⟩ := @repeats env _ _ _ _ (serves after.tables) _ stored later
    refine ⟨still,fun quiet => ?_⟩
    have replayed := replayIdempotent given
    have answered := answer quiet response given
    rwa [← replayed]
  · obtain ⟨stored,given⟩ := storedAfter applied (serves l.tables).locks
    obtain ⟨still,answer⟩ := @repeats env _ _ _ _ (serves after.tables) _ stored later
    exact ⟨still,fun quiet => answer quiet _ given⟩

/- The statuses are right just when the dispositions of one memory agree. -/
theorem reportedIff {row} (applied : Applied env (backendOf l.tables) request l records middle row after) :
    (∀ item ∈ (responseTo request).dispositions, ∃ record,
      recordOf resolve after.tables item.memoryId = .ok (some record) ∧ record.status = item.status) ↔ Agreeing records := by
  have listed := @listedPair _ _ _ _ applied.read
  constructor
  · intro reported a memberA b memberB same
    have outcomes : ∀ pair ∈ records, ∃ record, recordById pair.2.id after.tables = some record ∧
        record.status = statusFor pair.1.outcome := by
      intro pair member
      obtain ⟨record,read,status⟩ := reported _ (listed.mpr ⟨pair,member,rfl⟩)
      obtain ⟨_,_,_,found,there,key,_⟩ := listedAfter (serves l.tables) applied member
      cases read.symm.trans there
      obtain ⟨id,resolved,found⟩ := mappedOk.mp read
      obtain ⟨id,rfl,found⟩ := Option.bind_eq_some_iff.mp found
      obtain ⟨row,kept,rfl⟩ := Option.map_eq_some_iff.mp found
      have named : (hydrateRecord after.tables row).id = id := selectRowId kept
      rw [← key,named]
      exact ⟨_,found,status⟩
    obtain ⟨first,here,statusA⟩ := outcomes a memberA
    obtain ⟨second,there,statusB⟩ := outcomes b memberB
    rw [same] at here
    cases here.symm.trans there
    exact statusForInjective (statusA.symm.trans statusB)
  · intro agreeing item member
    obtain ⟨pair,here,listing⟩ := listed.mp member
    obtain ⟨first,there,same,record,read,_,status,_⟩ := listedAfter (serves l.tables) applied here
    subst listing
    exact ⟨record,read,status.trans (congrArg statusFor (agreeing first there pair here same))⟩

theorem soundWhen (agree : ∀ records middle row after,
    Applied env (backendOf l.tables) request l records middle row after → Agreeing records) :
    Sound (recordOf resolve) (committing env backendOf request) l where
  whole _ := wholeHolds serves
  repeated _ _ _ run := repeatHolds serves run
  reported oracle response after run fresh := by
    rcases commitCases (serves l.tables) run with ⟨existing,_,given,_⟩ | ⟨rfl,records,middle,row,applied⟩
    · rw [replayIdempotent given] at fresh
      cases fresh
    · exact (reportedIff serves applied).mpr (agree records middle row after applied)

end

end McpMemory.Review
