import McpMemory.Curation.Footprint
import McpMemory.Lib.Answers

/-! The revision tokens that a request of `execute_action` expects. `_check_tokens` looks some
of them up and passes the others over. -/
namespace McpMemory.Curation
open Memory Text Transaction

variable (env : Env)

/- What a token can be about. -/
inductive TokenObject where
  | record (memoryId : String)
  | graph (memoryId : String)
  | link (source target linkType : String)
  deriving DecidableEq, Repr

def TokenObject.keys : TokenObject → List String
  | .record memoryId => [memoryId,"record:" ++ memoryId]
  | .graph memoryId => ["graph:" ++ memoryId]
  | .link source target linkType => ["link:" ++ source ++ ":" ++ target ++ ":" ++ linkType,
      source ++ ":" ++ target ++ ":" ++ linkType]

def currentToken (t : Tables) : TokenObject → Except ActionError (Option String)
  | .record memoryId => match selectRecord memoryId t with
    | none => .ok none
    | some record => (token port env.toEnv record).map some
  | .graph memoryId => (hashed (graphToken env.toEnv memoryId (linksOf [memoryId] t))).map some
  | .link source target linkType => do
    let normalized ← normalizeLinkType env linkType
    let row := selectLink source target normalized t
    (hashed (linkToken env.toEnv source target linkType (row.map (·.context)) row.isSome)).map some

def staleMessage : TokenObject → String
  | .record memoryId => "record revision token is stale for '" ++ memoryId ++ "'"
  | .graph memoryId => "graph revision token is stale for '" ++ memoryId ++ "'"
  | .link source target linkType => "link revision token is stale for " ++ source ++ ":" ++ target ++ ":" ++ linkType

def checkToken (t : Tables) (read : TokenObject × String) : Except ActionError Unit := do
  let actual ← currentToken env t read.1
  if actual = some read.2 then .ok () else .error (.stale (staleMessage read.1))

/- The tokens that the checks look up, in their order. -/

def targetReads (p : Prepared) (memoryId : String) : List (TokenObject × String) :=
  (((p.tokens.lookup memoryId).or (p.tokens.lookup ("record:" ++ memoryId))).toList.map (.record memoryId,·)) ++
    (p.tokens.lookup ("graph:" ++ memoryId)).toList.map (.graph memoryId,·)

def linkRead (item : String × String) : Option (TokenObject × String) :=
  (linkTokenKey item.1).map fun (source,target,linkType) => (.link source target linkType,item.2)

def reads (p : Prepared) : List (TokenObject × String) :=
  p.targets.flatMap (targetReads p) ++ p.tokens.filterMap linkRead

section
variable {p : Prepared} {work : Work}

theorem answersRead {α : Type} (query : Tables → α) :
    Answers (onTables port (read query)) work (.ok (query work.database.memory)) := answersStatement rfl

theorem lookupSelected {t : Tables} {memoryId : String} {memoryIds : List String} (member : memoryId ∈ memoryIds) :
    (selectRecords memoryIds t).lookup memoryId = selectRecord memoryId t := by
  have passed {ids : List String} (absent : selectRecord memoryId t = none ∨ memoryId ∉ ids) :
      (selectRecords ids t).lookup memoryId = none := by
    rw [List.lookup_eq_none_iff]
    intro item found
    obtain ⟨other,there,same⟩ := List.mem_filterMap.mp found
    obtain ⟨record,here,rfl⟩ := Option.map_eq_some_iff.mp same
    rw [bne_iff_ne]
    rintro rfl
    rcases absent with none | away
    · rw [none] at here
      cases here
    · exact away there
  induction memoryIds with
  | nil => cases member
  | cons first rest ih =>
    by_cases own : first = memoryId
    · subst own
      cases found : selectRecord first t with
      | none => exact passed (.inl found)
      | some record => simp [selectRecords,found]
    · have later := ih ((List.mem_cons.mp member).resolve_left (Ne.symm own))
      rw [selectRecords,List.filterMap_cons]
      cases selectRecord first t with
      | none => exact later
      | some record =>
        rw [Option.map_some,List.lookup_cons,beq_false_of_ne (Ne.symm own)]
        exact later

/- The comparison that each of the three checks ends in. -/
def compared (message expected : String) (value : Except ActionError String) : Except ActionError Unit :=
  value.map some >>= fun actual => if actual = some expected then .ok () else .error (.stale message)

theorem answersCompare (message expected : String) (value : Except ActionError String) :
    Answers (do if (← lift value) = expected then pure () else raise (.stale message) : Action Unit) work
      (compared message expected value) := by
  intro oracle moment _
  refine ⟨moment,?_⟩
  cases value with
  | error error => rfl
  | ok actual =>
    by_cases fits : actual = expected
    · simp [compared,lift,fits,Except.map,bind,Except.bind,pure]
    · simp [compared,lift,fits,Except.map,bind,Except.bind,raise]

theorem recordAnswers {memoryId : String} (member : memoryId ∈ p.targets) :
    Answers (checkRecordToken env (selectRecords p.targets work.database.memory) p memoryId) work
      (allPass (checkToken env work.database.memory)
        (((p.tokens.lookup memoryId).or (p.tokens.lookup ("record:" ++ memoryId))).toList.map (TokenObject.record memoryId,·))) := by
  unfold checkRecordToken
  rw [lookupSelected member]
  cases (p.tokens.lookup memoryId).or (p.tokens.lookup ("record:" ++ memoryId)) with
  | none => exact answersPure ()
  | some expected =>
    rw [Option.toList_some,List.map_singleton,allPassOne,checkToken,currentToken]
    cases selectRecord memoryId work.database.memory with
    | none => exact answersRaise
    | some record => exact answersCompare (staleMessage (.record memoryId)) expected (token port env.toEnv record)

theorem graphAnswers (memoryId : String) :
    Answers (checkGraphToken env p memoryId) work
      (allPass (checkToken env work.database.memory)
        ((p.tokens.lookup ("graph:" ++ memoryId)).toList.map (TokenObject.graph memoryId,·))) := by
  unfold checkGraphToken
  cases p.tokens.lookup ("graph:" ++ memoryId) with
  | none => exact answersPure ()
  | some expected =>
    rw [Option.toList_some,List.map_singleton,allPassOne,checkToken,currentToken]
    exact answersBind (answersRead (linksOf [memoryId])) fun links _ =>
      answersCompare (staleMessage (.graph memoryId)) expected (hashed (graphToken env.toEnv memoryId links))

theorem linkAnswers (item : String × String) :
    Answers (checkLinkToken env item) work (allPass (checkToken env work.database.memory) (linkRead item).toList) := by
  unfold checkLinkToken linkRead
  cases linkTokenKey item.1 with
  | none => exact answersPure ()
  | some link =>
    obtain ⟨source,target,linkType⟩ := link
    rw [Option.map_some,Option.toList_some,allPassOne,checkToken,currentToken]
    dsimp only
    cases normal : normalizeLinkType env linkType with
    | error error =>
      intro oracle moment _
      exact ⟨moment,rfl⟩
    | ok normalized =>
      have compares := answersBind (@answersRead work _ (selectLink source target normalized)) fun row _ =>
        answersCompare (staleMessage (.link source target linkType)) item.2
          (hashed (linkToken env.toEnv source target linkType (row.map (·.context)) row.isSome))
      intro oracle moment quiet
      obtain ⟨later,ran⟩ := compares oracle moment quiet
      exact ⟨later,ran⟩

theorem filterMapFlat {α β : Type} (items : List α) (part : α → Option β) :
    items.filterMap part = items.flatMap fun item => (part item).toList := by
  induction items with
  | nil => rfl
  | cons item rest ih =>
    rw [List.filterMap_cons,List.flatMap_cons,← ih]
    cases part item <;> rfl

/- The checks are the comparisons of `reads`, one after the other. -/
theorem checkTokensAnswers (p : Prepared) (work : Work) :
    Answers (checkTokens env (selectRecords p.targets work.database.memory) p) work
      (allPass (checkToken env work.database.memory) (reads p)) := by
  rw [reads,allPassAppend,allPassFlat,filterMapFlat,allPassFlat]
  refine answersBind (answersEach fun memoryId member => ?_) fun _ _ => answersEach fun item _ => linkAnswers env item
  rw [targetReads,allPassAppend]
  exact answersBind (recordAnswers env member) fun _ _ => graphAnswers env memoryId

end

/- The call, with its first look on `seen` and its transaction on `database`. -/
def executeAction (attempt : Attempt) (seen database : Database) : Except ActionError ActionReceipt × Database :=
  match prepare env attempt.request with
  | .error error => (.error error,database)
  | .ok p => match fastPath env attempt p seen with
    | some answer => (answer,database)
    | none => runTransaction env attempt p database

/- A well formed request without a receipt, in a run that may go on. -/
structure FirstCall (request : Request) (p : Prepared) (seen database : Database) : Prop where
  prepared : prepare env request = .ok p
  unseen : getReceipt request.runId request.actionId seen.curation = none
  unapplied : getReceipt request.runId request.actionId database.curation = none
  running : checkRun request (selectRun request.runId database.curation) = .ok ()

/- A memory, or a path outside the store. -/
def Endpoint (memoryId : String) : Prop := startsWith memoryId "ext:" = true ∨ ':' ∉ memoryId.toList

def TokenObject.WellFormed : TokenObject → Prop
  | .record memoryId | .graph memoryId => Endpoint memoryId
  | .link source target linkType => Endpoint source ∧ Endpoint target ∧ ':' ∉ linkType.toList

/- A token that the request brings for an object, under one of the object's keys. -/
def Supplied (request : Request) (object : TokenObject) (expected : String) : Prop :=
  object.WellFormed ∧ ∃ key, (key,expected) ∈ request.expectedTokens ∧ canonicalId env key ∈ object.keys

def Differs (t : Tables) (read : TokenObject × String) : Prop :=
  ∃ actual, currentToken env t read.1 = .ok actual ∧ actual ≠ some read.2

/- Whatever else the request asks for, and whatever its callback does. -/
def Enforced (request : Request) (seen database : Database) : Prop :=
  (∃ object expected, Supplied env request object expected ∧ Differs env database.memory (object,expected)) →
    ∀ config callback preconditions oracle, Quiet oracle → ∃ message,
      executeAction env ⟨config,{ request with preconditions },callback,oracle⟩ seen database = (.error (.stale message),database)

def Unlockable (t : Tables) (memoryId : String) : Prop := startsWith memoryId "ext:" = false ∧ t.has memoryId = false

/- One of the tokens that are looked up differs, and the ones before it hold. -/
def StaleRead (t : Tables) (p : Prepared) : Prop :=
  ∃ first read last, reads p = first ++ read::last ∧ (∀ earlier ∈ first, checkToken env t earlier = .ok ()) ∧
    Differs env t read

def checkLock (t : Tables) (memoryId : String) : Except ActionError Unit :=
  if startsWith memoryId "ext:" then .ok () else if t.has memoryId then .ok () else .error (missing memoryId)

theorem checkLockError {t : Tables} {memoryId : String} {error : ActionError} :
    checkLock t memoryId = .error error ↔ Unlockable t memoryId ∧ error = missing memoryId := by
  unfold checkLock Unlockable
  split
  next outside => simp [outside]
  next inside =>
    rw [Bool.not_eq_true] at inside
    split
    next there => simp [there]
    next absent =>
      rw [Bool.not_eq_true] at absent
      simp [inside,absent,eq_comm]

theorem lockAnswers (work : Work) (memoryId : String) :
    Answers (lockTarget memoryId) work (checkLock work.database.memory memoryId) := by
  unfold lockTarget checkLock
  split
  · exact answersPure ()
  · have decides (found : Bool) : Answers (if found then pure () else raise (missing memoryId) : Action Unit) work
        (if found then .ok () else .error (missing memoryId)) := by
      cases found with
      | true => exact answersPure ()
      | false => exact answersRaise
    exact answersBind (answersRead (·.has memoryId)) fun found _ => decides found

theorem returnsRunFor {request : Request} {work : Work}
    (running : checkRun request (selectRun request.runId work.database.curation) = .ok ()) :
    Returns (runFor request) work fun run after =>
      after.database.memory = work.database.memory ∧ checkRun request run = .ok () := by
  have found : Returns (select fun work => selectRun request.runId work.database.curation : Action (Option Run)) work
    fun run after => after = work ∧ run = selectRun request.runId work.database.curation := returnsSelect _ ⟨rfl,rfl⟩
  refine returnsBind found fun run middle same => ?_
  rw [same.1]
  cases run with
  | some run => exact returnsPure ⟨rfl,by rw [same.2]; exact running⟩
  | none =>
    cases restores : request.restoresEventId with
    | none => simp [← same.2,checkRun,restores] at running
    | some event =>
      have free (run : Option Run) : checkRun request run = .ok () := by
        unfold checkRun
        split <;> simp [restores]
      refine returnsBind returnsObserve fun now _ here => ?_
      rw [here]
      have inserted (run : Run) : Returns (onLedger (insertRun run)) work fun _ after =>
        after.database.memory = work.database.memory := by
        unfold onLedger write
        exact returnsStatement rfl rfl
      exact returnsBind (inserted _) fun _ after kept => returnsSelect _ ⟨kept,free _⟩

/- No reading of a token is refused as stale. -/
theorem currentTokenError {t : Tables} {object : TokenObject} {error : ActionError}
    (failed : currentToken env t object = .error error) : ∃ message, error = .valueError message := by
  have hashFailed {value : Except String String} {error : ActionError} (bad : hashed value = .error error) :
      ∃ message, error = .valueError message := by
    cases value <;> cases bad
    exact ⟨_,rfl⟩
  have mapFailed {value : Except ActionError String} (bad : value.map some = .error error) : value = .error error := by
    cases value <;> cases bad
    rfl
  cases object with
  | record memoryId =>
    rw [currentToken] at failed
    split at failed
    · cases failed
    · exact hashFailed (mapFailed failed)
  | graph memoryId => exact hashFailed (mapFailed failed)
  | link source target linkType =>
    rw [currentToken] at failed
    rcases normal : normalizeLinkType env linkType with bad | normalized <;> rw [normal] at failed
    · cases failed
      unfold normalizeLinkType at normal
      dsimp only at normal
      split at normal <;> cases normal
      exact ⟨_,rfl⟩
    · exact hashFailed (mapFailed failed)

theorem checkTokenStale {t : Tables} {read : TokenObject × String} {message : String}
    (failed : checkToken env t read = .error (.stale message)) : Differs env t read := by
  unfold checkToken at failed
  cases found : currentToken env t read.1 with
  | error error =>
    obtain ⟨text,rfl⟩ := currentTokenError env found
    rw [found] at failed
    cases failed
  | ok actual =>
    refine ⟨actual,found,fun same => ?_⟩
    rw [found] at failed
    simp [bind,Except.bind,same] at failed

theorem checkTokenDiffers {t : Tables} {read : TokenObject × String} (differs : Differs env t read) :
    checkToken env t read = .error (.stale (staleMessage read.1)) := by
  obtain ⟨actual,found,apart⟩ := differs
  unfold checkToken
  rw [found]
  simp [bind,Except.bind,apart]

theorem staleReadIff {t : Tables} {p : Prepared} :
    StaleRead env t p ↔ ∃ message, allPass (checkToken env t) (reads p) = .error (.stale message) := by
  constructor
  · rintro ⟨first,read,last,same,fine,differs⟩
    exact ⟨_,allPassError.mpr ⟨first,read,last,same,fine,checkTokenDiffers env differs⟩⟩
  · rintro ⟨message,failed⟩
    obtain ⟨first,read,last,same,fine,stale⟩ := allPassError.mp failed
    exact ⟨first,read,last,same,fine,checkTokenStale env stale⟩

section
variable {request : Request} {p : Prepared} {seen database : Database}

theorem FirstCall.asking (fresh : FirstCall env request p seen database) (preconditions : Option Preconditions) :
    FirstCall env { request with preconditions } p seen database := ⟨fresh.prepared,fresh.unseen,fresh.unapplied,fresh.running⟩

/- What the action raises inside its transaction, the call answers with. -/
theorem freshRaises {config : Config} {callback : Callback} {preconditions : Option Preconditions}
    {oracle : Oracle ActionError} {error : ActionError} (fresh : FirstCall env request p seen database) (quiet : Quiet oracle)
    (raises : Raises (applyAction env config { request with preconditions } p callback) ⟨database,p.targets,[],[]⟩ error) :
    executeAction env ⟨config,{ request with preconditions },callback,oracle⟩ seen database =
      (.error (settled env request error),database) := by
  have prepared : prepare env { request with preconditions } = .ok p := fresh.prepared
  have whole : Raises (body env config { request with preconditions } p callback) ⟨database,p.targets,[],[]⟩ error := by
    have unapplied : Returns (select fun work => getReceipt request.runId request.actionId work.database.curation :
        Action (Option ActionReceipt)) ⟨database,p.targets,[],[]⟩
        fun receipt after => receipt = none ∧ after = ⟨database,p.targets,[],[]⟩ := returnsSelect _ ⟨fresh.unapplied,rfl⟩
    refine raisesAfter unapplied fun receipt after same => ?_
    rw [same.1,same.2]
    exact raisesFirst raises
  rw [executeAction,prepared]
  simp only [fastPath,fresh.unseen,Option.map_none,runTransaction]
  rw [transactionRaises quiet whole]
  rfl

theorem runRaises {rest : Option Run → Action ActionReceipt} {error : ActionError} (fresh : FirstCall env request p seen database)
    (later : ∀ run work, work.database.memory = database.memory → Raises (rest run) work error) :
    Raises (do let run ← runFor request
               lift (checkRun request run)
               rest run) ⟨database,p.targets,[],[]⟩ error := by
  refine raisesAfter (returnsRunFor fresh.running) fun run work began => ?_
  have checked : Answers (lift (checkRun request run) : Action Unit) work (.ok ()) := began.2 ▸ answersLift _
  refine raisesAfter (answersReturns checked) fun _ after same => ?_
  rw [same.2]
  exact later run work began.1

theorem readRaises {rest : Option Run → Records → Action ActionReceipt} {error : ActionError}
    (fresh : FirstCall env request p seen database) (locked : allPass (checkLock database.memory) p.targets = .ok ())
    (later : ∀ run work, work.database.memory = database.memory →
      Raises (rest run (selectRecords p.targets work.database.memory)) work error) :
    Raises (do let run ← runFor request
               lift (checkRun request run)
               each lockTarget p.targets
               let before ← onTables port (read (selectRecords p.targets))
               rest run before) ⟨database,p.targets,[],[]⟩ error := by
  refine runRaises env fresh fun run work same => ?_
  have locks := answersEach fun memoryId (_ : memoryId ∈ p.targets) => lockAnswers work memoryId
  rw [same,locked] at locks
  refine raisesAfter (answersReturns locks) fun _ after kept => ?_
  rw [kept.2]
  refine raisesAfter (answersReturns (answersRead (selectRecords p.targets))) fun records after kept => ?_
  rw [kept.1,kept.2]
  exact later run work same

variable {config : Config} {callback : Callback} {preconditions : Option Preconditions} {error : ActionError}

theorem lockRaises (fresh : FirstCall env request p seen database)
    (failed : allPass (checkLock database.memory) p.targets = .error error) :
    Raises (applyAction env config { request with preconditions } p callback) ⟨database,p.targets,[],[]⟩ error := by
  refine runRaises env (fresh.asking env preconditions) fun run work same => ?_
  have locks := answersEach fun memoryId (_ : memoryId ∈ p.targets) => lockAnswers work memoryId
  rw [same,failed] at locks
  exact raisesFirst (answersRaises locks)

theorem tokenRaises (fresh : FirstCall env request p seen database)
    (locked : allPass (checkLock database.memory) p.targets = .ok ())
    (failed : allPass (checkToken env database.memory) (reads p) = .error error) :
    Raises (applyAction env config { request with preconditions } p callback) ⟨database,p.targets,[],[]⟩ error := by
  refine readRaises env (fresh.asking env preconditions) locked fun run work same => ?_
  have tokens := checkTokensAnswers env p work
  rw [same,failed,← same] at tokens
  exact raisesFirst (answersRaises tokens)

theorem callbackRaises (fresh : FirstCall env request p seen database)
    (locked : allPass (checkLock database.memory) p.targets = .ok ())
    (passed : allPass (checkToken env database.memory) (reads p) = .ok ()) :
    Raises (applyAction env config { request with preconditions := none } p (.fail error))
      ⟨database,p.targets,[],[]⟩ error := by
  refine readRaises env (fresh.asking env none) locked fun run work same => ?_
  have tokens := checkTokensAnswers env p work
  rw [same,passed,← same] at tokens
  refine raisesAfter (answersReturns tokens) fun _ after kept => ?_
  rw [kept.2]
  refine raisesAfter (answersReturns (answersPure ())) fun _ after kept => ?_
  rw [kept.2]
  refine raisesAfter (answersReturns (answersRead (linksOf p.targets))) fun _ after _ => ?_
  exact raisesFirst (answersRaises answersRaise)

theorem settledStale {error : ActionError} {message : String}
    (same : settled env request error = .stale message) : error = .stale message := by
  cases error with
  | stale => exact same
  | operational =>
    rw [settled] at same
    split at same <;> cases same
  | transient => cases same
  | fatal => cases same
  | contract => cases same
  | injected => cases same
  | integrity => cases same
  | valueError => cases same
  | other => cases same

/- Every supplied token is enforced exactly where a supplied token that differs comes with a target
that is gone or with a difference that the checks see. -/
theorem tokensEnforced (fresh : FirstCall env request p seen database) :
    Enforced env request seen database ↔
      ((∃ object expected, Supplied env request object expected ∧ Differs env database.memory (object,expected)) →
        (∃ memoryId ∈ p.targets, Unlockable database.memory memoryId) ∨ StaleRead env database.memory p) := by
  constructor
  · intro enforced differing
    by_contra unseen
    rw [not_or,staleReadIff] at unseen
    have locked : allPass (checkLock database.memory) p.targets = .ok () := by
      cases locks : allPass (checkLock database.memory) p.targets with
      | ok => rfl
      | error error =>
        obtain ⟨first,memoryId,last,same,_,failed⟩ := allPassError.mp locks
        exact absurd ⟨memoryId,by simp [same],(checkLockError.mp failed).1⟩ unseen.1
    let plain : Oracle ActionError := fun _ => ⟨none,"","",0⟩
    have quiet : Quiet plain := fun _ => rfl
    obtain ⟨message,ran⟩ := enforced differing ⟨"",none⟩ (.fail (.other "")) none plain quiet
    cases tokens : allPass (checkToken env database.memory) (reads p) with
    | ok =>
      rw [freshRaises env fresh quiet (callbackRaises env fresh locked tokens)] at ran
      cases ran
    | error error =>
      rw [freshRaises env fresh quiet (tokenRaises env fresh locked tokens),Prod.mk.injEq,Except.error.injEq] at ran
      exact unseen.2 ⟨message,by rw [tokens,settledStale env ran.1]⟩
  · intro seenDifference differing config callback preconditions oracle quiet
    cases locks : allPass (checkLock database.memory) p.targets with
    | error error =>
      obtain ⟨first,memoryId,last,_,_,failed⟩ := allPassError.mp locks
      rw [freshRaises env fresh quiet (lockRaises env fresh locks),(checkLockError.mp failed).2]
      exact ⟨_,rfl⟩
    | ok =>
      rcases seenDifference differing with ⟨memoryId,member,gone⟩ | stale
      · have failed := checkLockError.mpr ⟨gone,rfl⟩
        rw [allPassOk.mp locks memoryId member] at failed
        cases failed
      · obtain ⟨message,tokens⟩ := (staleReadIff env).mp stale
        exact ⟨message,freshRaises env fresh quiet (tokenRaises env fresh locks tokens)⟩

end

/- The first of two linked memories is to be deleted, on an old token. -/
def forgettingWith (tokens : List (String × String)) : Request := { forgetting.request with expectedTokens := tokens }

theorem forgetFresh {tokens : List (String × String)} (filled : (normalizedTokens asciiEnv tokens).any (·.2 == "") = false) :
    FirstCall asciiEnv (forgettingWith tokens) ⟨[firstId],normalizedTokens asciiEnv tokens,"forget"⟩ linkedNotes linkedNotes := by
  have targets : canonicalTargetIds asciiEnv (forgettingWith tokens).targetIds = .ok [firstId] :=
    show canonicalTargetIds asciiEnv [firstId] = .ok [firstId] by decide +kernel
  have named : strip "forget" = "forget" := by decide +kernel
  have prepared := prepareGiven asciiEnv targets (List.cons_ne_nil _ _) filled
    (show (forgettingWith tokens).operation = some "forget" from rfl) (by decide +kernel)
  rw [named] at prepared
  exact ⟨prepared,rfl,rfl,rfl⟩

theorem tokensEnforcedSample : Enforced asciiEnv (forgettingWith [(firstId,"old")]) linkedNotes linkedNotes := by
  have differs : Differs asciiEnv linkedNotes.memory (.record firstId,"old") :=
    @checkTokenStale _ _ _ (staleMessage (.record firstId)) (by decide +kernel)
  exact (tokensEnforced asciiEnv (forgetFresh (by decide +kernel))).mpr fun _ =>
    .inr ⟨[],(.record firstId,"old"),[],by decide +kernel,fun _ member => absurd member List.not_mem_nil,differs⟩

def outsideKey : String := "link:" ++ firstId ++ ":ext:a.md:NEXT"

def outsideRequest : Request := forgettingWith [(outsideKey,"old")]

/- The token is that of a link to a path, and the memory is gone all the same. -/
theorem outsideTokenIgnored :
    (∃ p, FirstCall asciiEnv outsideRequest p linkedNotes linkedNotes) ∧
    ¬ Enforced asciiEnv outsideRequest linkedNotes linkedNotes := by
  refine ⟨⟨_,forgetFresh (by decide +kernel)⟩,fun enforced => ?_⟩
  have supplied : Supplied asciiEnv outsideRequest (.link firstId "ext:a.md" "NEXT") "old" :=
    ⟨⟨.inr (by decide +kernel),.inl (by decide +kernel),by decide +kernel⟩,outsideKey,List.mem_singleton_self _,by decide +kernel⟩
  have differs : Differs asciiEnv linkedNotes.memory (.link firstId "ext:a.md" "NEXT","old") :=
    @checkTokenStale _ _ _ (staleMessage (.link firstId "ext:a.md" "NEXT")) (by decide +kernel)
  obtain ⟨message,refused⟩ := enforced ⟨_,_,supplied,differs⟩ ⟨"",none⟩ forget none forgetting.oracle fun _ => rfl
  have kept : _ = linkedNotes := congrArg Prod.snd refused
  exact absurd (congrArg (fun database => database.memory.memories.map (·.id)) kept) (by decide +kernel)

end McpMemory.Curation
