import McpMemory.Review.Whole

/-! Both stores together. What fails is a memory that is listed under two spellings: SQLite lets
the second disposition pass without effect and reports it as done, PostgreSQL refuses the batch.
They also part where a text reads as an id and as a reference, and where `jsonb` refuses a text. -/
namespace McpMemory.Review
open Memory Text Table Transaction
open Postgres (isJsonb itemsJsonb fieldsJsonb memoryByRef recordOf)
open Curation (ActionError resolveMemoryId)

variable {env : Env} {request : SkillReviewCommitRequest} {l : Ledger} {records : List Reviewed}
  {oracle : Oracle ReviewError}

/- What one request owes in both stores. -/
structure Reliable (env : Env) (arguments : Json.Object) (l : Ledger) : Prop where
  sqlite : Sound getMemory (commitSkillReview (sqliteCommit env) arguments) l
  postgres : Sound Postgres.memoryOf (commitSkillReview (postgresCommit env) arguments) l
  parity : ∀ oracle other, Quiet oracle → Quiet other →
    ((∃ response, (commitSkillReview (sqliteCommit env) arguments oracle l).1 = .ok response) ↔
      ∃ response, (commitSkillReview (postgresCommit env) arguments other l).1 = .ok response)

/- No memory twice. -/
def Once (records : List Reviewed) : Prop := (records.map (·.2.id)).Nodup

/- `jsonb` takes the request and the metadata that it leads to. -/
def Storable (request : SkillReviewCommitRequest) (records : List Reviewed) : Prop :=
  isJsonb request.asDict ∧ ∀ pair ∈ records, isJsonb (.obj (reviewed request pair.1 pair.2.metadata))

/- The memories that SQLite finds eligible agree where one is listed twice, and they are all
eligible just when they are for PostgreSQL, which wants each of them once. -/
structure Clean (request : SkillReviewCommitRequest) (t : Tables) : Prop where
  agreeing : ∀ records, chosen sqlite request t request.dispositions = .ok records → Agreeing records
  eligible : (∃ records, chosen sqlite request t request.dispositions = .ok records) ↔
    ∃ records, chosen (postgres t) request t request.dispositions = .ok records ∧ Once records ∧ Storable request records

theorem onceAgreeing (once : Once records) : Agreeing records := by
  intro a memberA b memberB same
  rw [List.inj_on_of_nodup_map once memberA memberB same]

/- Who accepts. -/

theorem itemsJsonbAll (items : List Json) : itemsJsonb items = items.all isJsonb := by
  induction items with
  | nil => rfl
  | cons item rest ih =>
    unfold itemsJsonb
    rw [ih]
    rfl

theorem fieldJsonb {key : String} {value : Json} {rest} (plain : key.toList.contains (Char.ofNat 0) = false) :
    fieldsJsonb ((key,value)::rest) = (isJsonb value && fieldsJsonb rest) := by
  conv => lhs; unfold fieldsJsonb
  rw [plain,Bool.not_false,Bool.true_and]

theorem itemJsonb {item : SkillReviewDisposition} (storable : isJsonb item.asDict) :
    isJsonb (SkillReviewCommitDisposition.asDict ⟨item.memoryId,item.outcome.text,statusFor item.outcome⟩) := by
  have outcome : isJsonb (.str item.outcome.text) ∧ isJsonb (.str (statusFor item.outcome)) := by
    cases item.outcome <;> decide
  have memoryId : isJsonb (.str item.memoryId) := by
    unfold SkillReviewDisposition.asDict isJsonb at storable
    rw [fieldJsonb (by decide)] at storable
    exact (Bool.and_eq_true_iff.mp storable).1
  unfold SkillReviewCommitDisposition.asDict isJsonb
  rw [fieldJsonb (by decide),fieldJsonb (by decide),fieldJsonb (by decide),memoryId,outcome.1,outcome.2]
  rfl

/- The response repeats texts of the request. -/
theorem responseJsonb (storable : isJsonb request.asDict) : isJsonb (responseTo request).asDict := by
  unfold SkillReviewCommitRequest.asDict isJsonb at storable
  rw [fieldJsonb (by decide),fieldJsonb (by decide),fieldJsonb (by decide),fieldJsonb (by decide),
    fieldJsonb (by decide)] at storable
  simp only [Bool.and_eq_true] at storable
  obtain ⟨_,runId,_,_,items,_⟩ := storable
  have listed : isJsonb (.arr ((responseTo request).dispositions.map (·.asDict))) := by
    unfold isJsonb at items ⊢
    rw [itemsJsonbAll,List.all_eq_true] at *
    intro value member
    obtain ⟨item,here,rfl⟩ := List.mem_map.mp member
    obtain ⟨given,there,rfl⟩ := List.mem_map.mp here
    exact itemJsonb (items _ (List.mem_map_of_mem there))
  unfold SkillReviewCommitResponse.asDict isJsonb
  rw [fieldJsonb (by decide),fieldJsonb (by decide),fieldJsonb (by decide),fieldJsonb (by decide),
    fieldJsonb (by decide),listed]
  show (true && (isJsonb (.str "committed") && (isJsonb (.str request.reviewRunId) && (true && (true && true))))) = true
  rw [runId]
  decide

theorem accepts {resolve} {backendOf : Tables → Backend} (serves : ∀ t, Serves (backendOf t) resolve t)
    {fit : List Reviewed → Prop} (absent : storedCommit request.reviewRunId l = none) (quiet : Quiet oracle)
    (needs : ∀ records middle row after, Applied env (backendOf l.tables) request l records middle row after → fit records)
    (returns : ∀ records, chosen (backendOf l.tables) request l.tables request.dispositions = .ok records → fit records →
      Returns (commitBody env (backendOf l.tables) request) l fun ending _ => ∃ a, ending = .commit a ∨ ending = .rollback a) :
    (∃ response, (committing env backendOf request oracle l).1 = .ok response) ↔
      ∃ records, chosen (backendOf l.tables) request l.tables request.dispositions = .ok records ∧ fit records := by
  constructor
  · rintro ⟨response,answered⟩
    have run : committing env backendOf request oracle l = (.ok response,(committing env backendOf request oracle l).2) := by
      rw [← answered]
    rcases commitCases (serves l.tables) run with ⟨existing,stored,_⟩ | ⟨_,records,middle,row,applied⟩
    · cases absent.symm.trans stored
    · exact ⟨records,applied.read,needs _ _ _ _ applied⟩
  · rintro ⟨records,read,fits⟩
    obtain ⟨response,after,run⟩ := returnsTransaction quiet (returns records read fits)
    exact ⟨response,congrArg Prod.fst run⟩

theorem sqliteAccepts (absent : storedCommit request.reviewRunId l = none) (quiet : Quiet oracle) :
    (∃ response, (sqliteCommit env request oracle l).1 = .ok response) ↔
      ∃ records, chosen sqlite request l.tables request.dispositions = .ok records ∧ True :=
  @accepts _ _ _ _ _ (fun _ => sqlite) (fun t => sqliteServes t) _ absent quiet (fun _ _ _ _ _ => trivial)
    fun _ read _ => commitFreshReturns absent read sqliteEach ⟨rfl,rfl⟩

theorem postgresNeeds {middle row after} (applied : Applied env (postgres l.tables) request l records middle row after) :
    Once records ∧ Storable request records := by
  obtain ⟨_,_,_,run,start,_⟩ := applied.disposed
  have fit := postgresFit run
  exact ⟨fit.once,jsonbOk.mp applied.encoded,fit.stored⟩

theorem postgresAccepts (absent : storedCommit request.reviewRunId l = none) (quiet : Quiet oracle) :
    (∃ response, (postgresCommit env request oracle l).1 = .ok response) ↔
      ∃ records, chosen (postgres l.tables) request l.tables request.dispositions = .ok records ∧
        Once records ∧ Storable request records := by
  refine @accepts _ _ _ _ _ postgres (fun t => postgresServes t) _ absent quiet (fun _ _ _ _ => postgresNeeds) ?_
  intro records read fits
  have active := chosenActive (postgresServes l.tables) read
  exact commitFreshReturns absent read (postgresEach ⟨fits.1,active,fits.2.2⟩)
    ⟨jsonbOk.mpr fits.2.1,jsonbOk.mpr (responseJsonb fits.2.1)⟩

def calm : Oracle ReviewError := fun _ => ⟨none,"","",0⟩

theorem cleanNeeded (absent : storedCommit request.reviewRunId l = none)
    (sound : Sound getMemory (sqliteCommit env request) l)
    (parity : ∀ oracle other, Quiet oracle → Quiet other → ((∃ response, (sqliteCommit env request oracle l).1 = .ok response) ↔
      ∃ response, (postgresCommit env request other l).1 = .ok response)) : Clean request l.tables := by
  have quiet : Quiet calm := fun _ => rfl
  have accepted := @sqliteAccepts env request l calm absent quiet
  refine ⟨fun records read => ?_,?_⟩
  · obtain ⟨response,answered⟩ := accepted.mpr ⟨records,read,trivial⟩
    have run : committing env (fun _ => sqlite) request calm l = (.ok response,(sqliteCommit env request calm l).2) := by
      rw [← answered]
      rfl
    rcases commitCases (sqliteServes l.tables) run with ⟨existing,stored,_⟩ | ⟨rfl,others,middle,row,applied⟩
    · cases absent.symm.trans stored
    · cases read.symm.trans applied.read
      exact (reportedIff (fun t => sqliteServes t) applied).mp (sound.reported calm _ _ run rfl)
  · rw [← postgresAccepts absent quiet,← parity calm calm quiet quiet,accepted]
    simp only [and_true]

theorem cleanEnough (clean : storedCommit request.reviewRunId l = none → Clean request l.tables) :
    Sound getMemory (sqliteCommit env request) l ∧ Sound Postgres.memoryOf (postgresCommit env request) l ∧
      ∀ oracle other, Quiet oracle → Quiet other → ((∃ response, (sqliteCommit env request oracle l).1 = .ok response) ↔
        ∃ response, (postgresCommit env request other l).1 = .ok response) := by
  refine ⟨?_,?_,fun oracle other quiet still => ?_⟩
  · exact @soundWhen _ _ _ _ (fun _ => sqlite) (fun t => sqliteServes t) fun records middle row after applied =>
      (clean applied.absent).agreeing records applied.read
  · exact @soundWhen _ _ _ _ postgres (fun t => postgresServes t) fun records middle row after applied =>
      onceAgreeing (postgresNeeds applied).1
  · cases stored : storedCommit request.reviewRunId l with
    | none =>
      rw [sqliteAccepts stored quiet,postgresAccepts stored still,← (clean stored).eligible]
      simp only [and_true]
    | some existing =>
      have sqliteReplays := fun response => (@repeats env _ _ _ _ (sqliteServes l.tables) _ stored oracle).2 quiet response
      have postgresReplays := fun response => (@repeats env _ _ _ _ (postgresServes l.tables) _ stored other).2 still response
      constructor
      · rintro ⟨response,answered⟩
        have run : committing env (fun _ => sqlite) request oracle l = (.ok response,(sqliteCommit env request oracle l).2) := by
          rw [← answered]
          rfl
        rcases commitCases (sqliteServes l.tables) run with ⟨other,found,given,_⟩ | ⟨_,_,_,_,applied⟩
        · cases stored.symm.trans found
          exact ⟨response,postgresReplays response given⟩
        · cases applied.absent.symm.trans stored
      · rintro ⟨response,answered⟩
        have run : committing env postgres request other l = (.ok response,(postgresCommit env request other l).2) := by
          rw [← answered]
          rfl
        rcases commitCases (postgresServes l.tables) run with ⟨other,found,given,_⟩ | ⟨_,_,_,_,applied⟩
        · cases stored.symm.trans found
          exact ⟨response,sqliteReplays response given⟩
        · cases applied.absent.symm.trans stored

theorem parsedCall {arguments} (parsed : parseSkillReviewCommitRequest arguments = .ok request)
    (commit : SkillReviewCommitRequest → Oracle ReviewError → Ledger → Outcome) :
    commitSkillReview commit arguments = commit request := by
  funext oracle l
  unfold commitSkillReview
  rw [parsed]

theorem refusedCall {arguments error} (parsed : parseSkillReviewCommitRequest arguments = .error error)
    (commit : SkillReviewCommitRequest → Oracle ReviewError → Ledger → Outcome) :
    commitSkillReview commit arguments = fun _ l => (.error error,l) := by
  funext oracle l
  unfold commitSkillReview
  rw [parsed]

theorem refusedSound (read) (error : ReviewError) : Sound read (fun _ l => (.error error,l)) l where
  whole _ := rfl
  repeated _ _ _ run := by cases run
  reported _ _ _ run := by cases run

/- One observation, listed by its id and by its reference. -/
def twiceRow : MemoryRow := ⟨"b1f0a7c2-3f4e-4a53-9d61-5e0c8a7f1d20",some 1,"Retry","Retry the upload",none,"observation",
  "active","2026-01-01","2026-01-01",none,[("skill",.str "upload")]⟩

def twiceLedger : Ledger := ⟨{ Memory.empty with
  memories := [twiceRow], tags := [⟨1,"skill-observation"⟩], tagSequence := 1, memoryTags := [(twiceRow.id,1)] },[]⟩

def someHash : String := String.ofList (List.replicate 64 'a')

def twiceArguments : Json.Object := [("protocol_version",.int 2),
  ("review_run_id",.str "00000000-0000-4000-8000-000000000001"),
  ("evidence",.obj [("skills",.arr [.str "upload"]),("source_hashes",.obj [("upload",.str someHash)]),
    ("deployment_status",.str "passed"),("deployment_receipt_hash",.str someHash),("ledger_snapshot_id",.str someHash)]),
  ("dispositions",.arr [.obj [("memory_id",.str twiceRow.id),("outcome",.str "done"),("note",.str "fixed")],
    .obj [("memory_id",.str "mem-1"),("outcome",.str "bad"),("note",.str "wrong")]])]

def twiceRequest : SkillReviewCommitRequest := ⟨"00000000-0000-4000-8000-000000000001",none,
  ⟨["upload"],[("upload",someHash)],someHash,someHash⟩,[⟨twiceRow.id,.done,"fixed"⟩,⟨"mem-1",.bad,"wrong"⟩]⟩

theorem twiceParsed : parseSkillReviewCommitRequest twiceArguments = .ok twiceRequest := by decide +kernel

theorem twiceEligible {memoryId} (resolved : resolveMemoryId twiceLedger.tables memoryId = .ok (some twiceRow.id)) :
    eligible sqlite twiceRequest memoryId twiceLedger.tables = .ok (hydrateRecord twiceLedger.tables twiceRow) := by
  have read : getMemory twiceLedger.tables memoryId = .ok (some (hydrateRecord twiceLedger.tables twiceRow)) := by
    unfold getMemory recordOf
    rw [resolved]
    rfl
  have tagged : "skill-observation" ∈ (hydrateRecord twiceLedger.tables twiceRow).tags := by decide +kernel
  refine checkedOk.mpr ⟨_,congrArg (Except.mapError ReviewError.repository) read,?_⟩
  unfold eligibleRecord
  dsimp only
  have active : (hydrateRecord twiceLedger.tables twiceRow).status = "active" := rfl
  have listed : isListed twiceRequest.evidence.skills
      (Json.get (hydrateRecord twiceLedger.tables twiceRow).metadata "skill") := by decide +kernel
  rw [if_neg (by rintro (other | missing); exacts [other rfl,missing tagged]),if_neg (not_not.mpr active),if_pos listed]

end McpMemory.Review
