import McpMemory.Ingress.Runs

/-! Exactly-once ingress. A committed receipt answers every later call with its action
id, and no call that raises leaves a trace. That no entry is covered by two actions
needs more: the coverage table has one row for each text, so it needs every entry id to
come in its one spelling. Given coverage rows are compared in canonical form and stored
as they came, and numerals with leading zeros name the same journal row. -/
namespace McpMemory.Ingress
open Memory Transaction Interleave

variable (env : Env)

/- No two committed actions cover one journal entry. -/
def CoveredOnce (trace : List Emitted) : Prop :=
  ∀ first ∈ committedReceipts trace, ∀ second ∈ committedReceipts trace,
    ∀ a ∈ first.entryIds, ∀ b ∈ second.entryIds, entryRef a = entryRef b → first = second

instance (trace : List Emitted) : Decidable (CoveredOnce trace) := by
  unfold CoveredOnce; infer_instance

def StepSpelled (_ : World Call Database Emitted) : Event Op → Prop
  | .start (.execute attempt) => WellSpelled env attempt.request
  | _ => True

instance (w) : (event : Event Op) → Decidable (StepSpelled env w event)
  | .start (.execute attempt) => inferInstanceAs (Decidable (WellSpelled env attempt.request))
  | .start (.journal _) => .isTrue trivial
  | .advance _ => .isTrue trivial

/- Each entry id of a receipt is well spelled and is the text of a row of its action. -/
def RowsCover (database : Database) : Prop :=
  ∀ receipt ∈ database.ingress.receipts, ∀ entryId ∈ receipt.entryIds, Spelled env entryId ∧
    ∃ row ∈ database.ingress.coverage, row.entryId = entryId ∧ row.actionId = some receipt.actionId

structure Covered (w : World Call Database Emitted) : Prop where
  sound : Sound w.store w.trace
  asked : ∀ attempt, .execute attempt ∈ w.calls → WellSpelled env attempt.request
  rows : RowsCover env w.store

theorem committedCovers {request p before after receipt} (prepared : prepare env request = .ok p)
    (spelled : WellSpelled env request) (committed : Committed p before after receipt)
    (rows : RowsCover env before) : RowsCover env after := by
  intro row member entryId listed
  rw [committed.receipts] at member
  rcases List.mem_append.mp member with old | new
  · obtain ⟨fine,kept,present,same⟩ := rows row old entryId listed
    exact ⟨fine,kept,committed.coverage.kept kept present,same⟩
  · obtain ⟨_,_,_,_,_,shape⟩ := committed.shape
    rw [List.mem_singleton.mp new,shape] at listed
    have source := preparedSource env prepared
    obtain ⟨fine,item,asked,text⟩ := source.entries spelled entryId listed
    obtain ⟨settled,present,named,action,_⟩ := committed.coverage.settled item asked
    rw [List.mem_singleton.mp new,shape]
    exact ⟨fine,settled,present,named.trans text,action.trans (source.actions item asked)⟩

theorem stepCovers {call : Call} {database}
    (spelled : ∀ attempt, call = .execute attempt → WellSpelled env attempt.request)
    (rows : RowsCover env database) : RowsCover env (step env call database).2.1 := by
  cases call with
  | journal call => exact rows
  | answered answer => exact rows
  | execute attempt =>
    rcases run : execute env attempt database with ⟨answer,after⟩
    simp only [step,run]
    cases answer with
    | error error => cases executeError env run; exact rows
    | ok receipt =>
      obtain ⟨p,prepared,committed | ⟨_,_,rfl⟩⟩ := executeOk env run
      · exact committedCovers env prepared (spelled attempt rfl) committed rows
      · exact rows

/- A step never turns a call into one of `execute`. -/
theorem stepAsked {call : Call} {database attempt} (here : (step env call database).1 = .execute attempt) :
    False := by
  cases call with
  | journal call => cases here
  | execute attempt => cases here
  | answered answer => cases here

theorem nextCovers {w event} (spelled : StepSpelled env w event) (covered : Covered env w) :
    Covered env ((ingress env).next w event) := by
  cases event with
  | start op =>
    refine ⟨covered.sound,fun attempt member => ?_,covered.rows⟩
    rcases List.mem_append.mp member with old | new
    · exact covered.asked attempt old
    · cases op with
      | journal op => cases List.mem_singleton.mp new
      | execute other => cases List.mem_singleton.mp new; exact spelled
  | advance index =>
    cases found : w.calls[index]? with
    | none => rw [nextIdle found]; exact covered
    | some call =>
      rw [nextAdvance found]
      have member := List.mem_of_getElem? found
      refine ⟨stepSound env call covered.sound,fun attempt present => ?_,
        stepCovers env (fun attempt same => covered.asked attempt (same ▸ member)) covered.rows⟩
      rcases List.mem_or_eq_of_mem_set present with old | new
      · exact covered.asked attempt old
      · exact (stepAsked env new.symm).elim

/- Two receipts with an entry in common spell it alike, and its one row names one action. -/
theorem coversOnce {w} (covered : Covered env w) : CoveredOnce w.trace := by
  intro first here second there a inFirst b inSecond same
  rw [covered.sound.history,List.mem_reverse] at here there
  obtain ⟨fineA,rowA,presentA,textA,actionA⟩ := covered.rows first here a inFirst
  obtain ⟨fineB,rowB,presentB,textB,actionB⟩ := covered.rows second there b inSecond
  have spelling := spelledInj env fineA fineB same
  have one : rowA = rowB := Table.equalOfKey covered.sound.entries presentA presentB
    (textA.trans (spelling.trans textB.symm))
  rw [one,actionB] at actionA
  exact Table.equalOfKey covered.sound.actions here there (Option.some.inj actionA).symm

theorem receiptFound {database trace receipt} (sound : Sound database trace)
    (committed : receipt ∈ committedReceipts trace) :
    receiptForAction receipt.actionId ⟨database,[]⟩ = some receipt := by
  rw [sound.history,List.mem_reverse] at committed
  cases look : receiptForAction receipt.actionId ⟨database,[]⟩ with
  | none => simpa using Table.findNone look receipt committed
  | some row =>
    obtain ⟨present,named⟩ := Table.findSome look
    rw [Table.equalOfKey sound.actions present committed (by simpa using named)]

/- In every state of every run: the receipts of the table are those committed, one for
each action id; a call with the action id of one of them, whatever else it carries,
answers with that receipt or raises, by its digest, and changes nothing; a call that
raises changes nothing. In a run whose calls spell their entry ids well, each journal
entry is covered by one applied action at most. -/
theorem ingressExactlyOnce (database : Database) (events : Schedule) :
    (reached env database events).store.ingress.receipts =
      (committedReceipts (reached env database events).trace).reverse ∧
    Table.UniqueBy (·.actionId) (committedReceipts (reached env database events).trace) ∧
    (∀ receipt ∈ committedReceipts (reached env database events).trace, ∀ attempt p,
      prepare env attempt.request = .ok p → p.identity.actionId = receipt.actionId →
      (p.digest = receipt.canonicalPayloadDigest → Undisturbed attempt →
        execute env attempt (reached env database events).store =
          (.ok receipt,(reached env database events).store)) ∧
      (p.digest ≠ receipt.canonicalPayloadDigest → ∃ error,
        execute env attempt (reached env database events).store =
          (.error error,(reached env database events).store))) ∧
    (∀ attempt error after, execute env attempt (reached env database events).store =
      (.error error,after) → after = (reached env database events).store) ∧
    (Meets (ingress env) (StepSpelled env) (idle { database with ingress := .empty }) events →
      CoveredOnce (reached env database events).trace) := by
  have sound := reachedSound env database events
  refine ⟨by rw [sound.history,List.reverse_reverse],?_,fun receipt committed attempt p prepared named => ?_,
    fun _ _ _ => executeError env,fun spelled => ?_⟩
  · rw [sound.history]
    unfold Table.UniqueBy
    rw [List.map_reverse]
    exact List.nodup_reverse.mpr sound.actions
  · have found := receiptFound sound committed
    rw [← named] at found
    refine ⟨fun same undisturbed => executeReplay env prepared found same.symm undisturbed,fun different => ?_⟩
    obtain ⟨error,run,_⟩ := executeConflict env prepared found (Ne.symm different)
    exact ⟨error,run⟩
  · have start : Covered env (idle { database with ingress := .empty }) :=
      ⟨⟨List.nodup_nil,List.nodup_nil,rfl⟩,by simp [idle],by simp [RowsCover,idle,Evidence.empty]⟩
    exact coversOnce env (runMeets (fun _ _ => nextCovers env) spelled start)

/- Calls on ASCII text, with texts standing for their own hashes. -/

def sampleEnv : Env where
  unicode := ⟨id,String.toLower,String.toUpper,fun _ _ _ => rfl⟩
  sha256 := id
  buildSummary title _ _ := title

def sampleOracle (name : String) : Oracle IngressError := fun n =>
  ⟨none,name ++ toString n,name ++ toString n,n⟩

def answering (operation : String) (reply : Except IngressError (Option MemoryRecord)) : Callback :=
  match reply with
  | .ok (some record) => .done (some ⟨operation,[record.id]⟩)
  | .ok none => .done none
  | .error error => .fail error

def createNote (memoryId content : String) : Callback :=
  .call (.createMemory ⟨some memoryId,some "note",some content,none,none,none,some ["w"],none,none,none,none⟩)
    (answering "create")

def appendNote (memoryId content : String) : Callback :=
  .call (.appendMemory ⟨memoryId,content,none,none,none,none⟩) (answering "append")

def createFrom (entryId : String) (coverage : Option (List SourceCoverage)) (task : Option String) : Attempt :=
  ⟨⟨"default",none⟩,⟨"batch","create",[entryId],[],.str "first",coverage,none,task⟩,
    createNote "m" "first",sampleOracle "a"⟩

def appendFrom (entryId : String) (task : Option String) : Attempt :=
  ⟨⟨"default",none⟩,⟨"batch","append",[entryId],["m"],.str "second",none,none,task⟩,
    appendNote "m" "second",sampleOracle "b"⟩

def inTurn (attempts : List Attempt) : Schedule :=
  attempts.map (fun attempt => .start (.execute attempt)) ++ (List.range attempts.length).map .advance

/- A memory from entry 1 and an addition from entry 2: both commit. -/
theorem ingressExactlyOnceSample :
    CoveredOnce (reached sampleEnv .empty (inTurn [createFrom "1" none none,appendFrom "2" none])).trace ∧
    (committedReceipts (reached sampleEnv .empty
      (inTurn [createFrom "1" none none,appendFrom "2" none])).trace).map (·.entryIds) = [["2"],["1"]] :=
  ⟨(ingressExactlyOnce sampleEnv .empty _).2.2.2.2 (by decide),by decide +kernel⟩

/- Coverage given for " 1" is stored under that text, so entry 1 is covered again. -/
theorem ingressCoveredTwice : ¬ CoveredOnce (reached sampleEnv .empty
    (inTurn [createFrom "1" (some [⟨" 1",.created,none,none⟩]) none,appendFrom "1" none])).trace := by
  decide +kernel

end McpMemory.Ingress
