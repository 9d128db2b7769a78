import McpMemory.Ingress.Evidence
import McpMemory.Lib.Transaction
import McpMemory.Memory.Identity

/-! What `execute` checks before it opens a connection: the identity of the action, the
digest of its payload, the journal ids and the coverage it will assign
(`core/ingress_identity.py` and the pure half of `storage/ingress_mutation_uow.py`). -/
namespace McpMemory.Ingress
open Memory Text Transaction

inductive IngressError where
  | valueError (message : String)
  | typeError (message : String)
  | injectedFailure (stage : String)
  | identityConflict (actionId storedDigest requestedDigest : String)
  | coverageConflict (entryId : String) (storedActionId : Option String)
      (storedOutcome : CoverageOutcome) (requestedActionId : Option String)
      (requestedOutcome : CoverageOutcome)
  | overflowError
  | atomicService (error : String) (detail : Option String)
  | integrity (error : Memory.IntegrityError)
  | other (name : String)
  deriving DecidableEq, Repr

structure Env extends Canonical.Env where
  buildSummary : (title content memoryType : String) → String

variable (env : Env)

/- The constructor strips the embedding model and refuses an empty one. -/
structure Config where
  embeddingModel : String
  faultStage : Option String

structure Request where
  batchId : String
  operation : String
  entryIds : List String
  targetIds : List String
  payload : Json
  sourceCoverage : Option (List SourceCoverage)
  mutationEvidenceId : Option String
  journalTaskId : Option String

def normalized (value : String) : String := strip (env.unicode.nfc value)

def identifier (value name : String) : Except IngressError String :=
  if normalized env value = "" then .error (.valueError (name ++ " must be non-empty"))
  else .ok (normalized env value)

def identities : List String → Except IngressError (List String)
  | [] => .ok []
  | value::rest => do
    let value ← identifier env value "identity"
    .ok (value :: (← identities rest))

def canonicalIds (values : List String) : Except IngressError (List String) :=
  (identities env values).map sortedSet

def duplicateKey (key : String) : IngressError :=
  .valueError ("duplicate canonical JSON key: '" ++ key ++ "'")

def hashed (value : Json) : Except IngressError String :=
  (Canonical.stableHash env.toEnv value).mapError duplicateKey

structure ActionIdentity where
  actionId : String
  operation : String
  entryIds : List String
  targetIds : List String
  deriving DecidableEq, Repr

def actionIdentity (operation : String) (entryIds targetIds : List String) :
    Except IngressError ActionIdentity := do
  let operation ← identifier env operation "operation"
  let entryIds ← canonicalIds env entryIds
  let targetIds ← canonicalIds env targetIds
  let actionId ← hashed env (.obj [("schema_version",.int 1),("operation",.str operation),
    ("entry_ids",.arr (entryIds.map .str)),("target_ids",.arr (targetIds.map .str))])
  .ok ⟨actionId,operation,entryIds,targetIds⟩

def canonicalPayloadDigest (payload : Json) : Except IngressError String :=
  hashed env (.obj [("schema_version",.int 1),("payload",payload)])

/- The number that `int` reads in a text that `isdigit` passes, when it is positive. -/
def journalNumber (value : String) : Option Nat :=
  if isDigitText (strip value) then
    match parseInt (strip value) with
    | some (n + 1) => some (n + 1)
    | _ => none
  else none

def journalNumbers : List String → Except IngressError (List Nat)
  | [] => .ok []
  | value::rest => match journalNumber value with
    | none => .error (.valueError "journal entry IDs must be positive integer IDs")
    | some n => do .ok (n :: (← journalNumbers rest))

def journalEntryIds (values : List String) : Except IngressError (List Nat) :=
  if values.isEmpty then
    .error (.valueError "journal entry IDs must contain only positive integer IDs")
  else journalNumbers values

def assigned (actionId : String) : List SourceCoverage → Except IngressError (List SourceCoverage)
  | [] => .ok []
  | item::rest =>
    if item.actionId ≠ none ∧ item.actionId ≠ some actionId then
      .error (.valueError "source coverage action ID does not match the mutation")
    else if item.outcome = .unobserved then
      .error (.valueError "create and append require terminal handled source coverage")
    else do .ok ({ item with actionId := some actionId } :: (← assigned actionId rest))

/- With given coverage the ids are compared in canonical form, but each item keeps the
entry id as it was given. -/
def coverageForAction (coverage : Option (List SourceCoverage)) (entryIds : List String)
    (actionId operation : String) : Except IngressError (List SourceCoverage) :=
  match coverage with
  | none =>
    let outcome := if operation = "create" then CoverageOutcome.created else .appended
    .ok (entryIds.map fun entryId => ⟨entryId,outcome,some actionId,none⟩)
  | some items => do
    let given ← canonicalIds env (items.map (·.entryId))
    let wanted ← canonicalIds env entryIds
    if given ≠ wanted then
      .error (.valueError "source coverage must contain exactly the action entry IDs")
    else do
      let result ← assigned actionId items
      .ok (result.insertionSort fun a b => a.entryId ≤ b.entryId)

structure Prepared where
  batchId : String
  identity : ActionIdentity
  digest : String
  mutationEvidenceId : Option String
  journalTask : Option String
  journalIds : List Nat
  coverage : List SourceCoverage
  deriving DecidableEq, Repr

def optionalIdentifier (value : Option String) (name : String) : Except IngressError (Option String) :=
  match value with
  | none => .ok none
  | some value => (identifier env value name).map some

def requestedJournalIds (journalTask : Option String) (entryIds : List String) :
    Except IngressError (List Nat) :=
  match journalTask with
  | none => .ok []
  | some _ => journalEntryIds entryIds

def prepare (request : Request) : Except IngressError Prepared := do
  let batchId ← identifier env request.batchId "batch_id"
  let operation ← identifier env request.operation "operation"
  if operation ≠ "create" ∧ operation ≠ "append" then
    .error (.valueError "ingress operation must be create or append")
  else do
    let identity ← actionIdentity env operation request.entryIds request.targetIds
    let digest ← canonicalPayloadDigest env request.payload
    let journalTask ← optionalIdentifier env request.journalTaskId "journal_task_id"
    let journalIds ← requestedJournalIds journalTask identity.entryIds
    let coverage ← coverageForAction env request.sourceCoverage identity.entryIds identity.actionId operation
    .ok ⟨batchId,identity,digest,request.mutationEvidenceId,journalTask,journalIds,coverage⟩

/- The journal entry that an entry id stands for: by number where it is a numeral. -/
inductive EntryRef where
  | number (n : Nat)
  | text (entryId : String)
  deriving DecidableEq, Repr

def entryRef (entryId : String) : EntryRef :=
  match journalNumber entryId with
  | some n => .number n
  | none => .text entryId

/- An entry id in its only spelling: a fixed point of normalisation and, where it is a
numeral, the decimal one. -/
def Spelled (entryId : String) : Prop :=
  normalized env entryId = entryId ∧ (journalNumber entryId).all (toString · = entryId)

instance (entryId : String) : Decidable (Spelled env entryId) := by unfold Spelled; infer_instance

/- The entry ids that the coverage rows of a request will carry. -/
def coverageTexts (request : Request) : List String :=
  match request.sourceCoverage with
  | none => request.entryIds.map (normalized env)
  | some items => items.map (·.entryId)

def WellSpelled (request : Request) : Prop := ∀ entryId ∈ coverageTexts env request, Spelled env entryId

instance (request : Request) : Decidable (WellSpelled env request) := by
  unfold WellSpelled; infer_instance

theorem spelledInj {a b : String} (left : Spelled env a) (right : Spelled env b)
    (same : entryRef a = entryRef b) : a = b := by
  have first := left.2
  have second := right.2
  unfold entryRef at same
  cases ofA : journalNumber a with
  | none => cases ofB : journalNumber b with
    | none => simpa [ofA,ofB] using same
    | some k => simp [ofA,ofB] at same
  | some n => cases ofB : journalNumber b with
    | none => simp [ofA,ofB] at same
    | some k =>
      simp only [ofA,ofB,EntryRef.number.injEq] at same
      simp only [ofA,Option.all_some,decide_eq_true_eq] at first
      simp only [ofB,Option.all_some,decide_eq_true_eq] at second
      rw [← first,← second,same]

/- Normal forms are fixed points of normalisation. -/
theorem normalizedIdem (value : String) : normalized env (normalized env value) = normalized env value := by
  unfold normalized
  rw [env.unicode.nfcPart value _ (stripInfix _),stripIdem]

theorem identifierSource {value name result} (ok : identifier env value name = .ok result) :
    result = normalized env value := by
  unfold identifier at ok
  split at ok <;> cases ok
  rfl

theorem identitiesSource {values result} (ok : identities env values = .ok result) :
    result = values.map (normalized env) := by
  induction values generalizing result with
  | nil => cases ok; rfl
  | cons value rest ih =>
    simp only [identities] at ok
    obtain ⟨head,first,ok⟩ := checkedOk.mp ok
    obtain ⟨tail,others,ok⟩ := checkedOk.mp ok
    cases ok
    rw [identifierSource env first,ih others,List.map_cons]

theorem memCanonicalIds {values result} (ok : canonicalIds env values = .ok result) {value} :
    value ∈ result ↔ ∃ raw ∈ values, normalized env raw = value := by
  obtain ⟨found,read,rfl⟩ := mappedOk.mp ok
  rw [memSortedSet,identitiesSource env read,List.mem_map]

theorem canonicalIdsFixed {values result} (ok : canonicalIds env values = .ok result) {value}
    (member : value ∈ result) : normalized env value = value := by
  obtain ⟨raw,_,rfl⟩ := (memCanonicalIds env ok).mp member
  exact normalizedIdem env raw

theorem assignedIds {actionId items result} (ok : assigned actionId items = .ok result) :
    result.map (·.entryId) = items.map (·.entryId) ∧ ∀ item ∈ result, item.actionId = some actionId := by
  induction items generalizing result with
  | nil => cases ok; simp
  | cons item rest ih =>
    simp only [assigned] at ok
    split at ok
    · cases ok
    · split at ok
      · cases ok
      · obtain ⟨tail,others,ok⟩ := checkedOk.mp ok
        cases ok
        obtain ⟨ids,actions⟩ := ih others
        exact ⟨by simp [ids],by simpa using actions⟩

theorem actionIdentitySource {operation entryIds targetIds identity}
    (ok : actionIdentity env operation entryIds targetIds = .ok identity) :
    canonicalIds env entryIds = .ok identity.entryIds ∧
    canonicalIds env targetIds = .ok identity.targetIds := by
  unfold actionIdentity at ok
  obtain ⟨_,_,ok⟩ := checkedOk.mp ok
  obtain ⟨entries,first,ok⟩ := checkedOk.mp ok
  obtain ⟨targets,second,ok⟩ := checkedOk.mp ok
  obtain ⟨_,_,ok⟩ := checkedOk.mp ok
  cases ok
  exact ⟨first,second⟩

/- Where the entry ids of the rows come from. -/
def Covers (entryIds : List String) (result : List SourceCoverage) : Option (List SourceCoverage) → Prop
  | none => result.map (·.entryId) = entryIds
  | some items =>
    (∀ entryId, (∃ item ∈ result, item.entryId = entryId) ↔ ∃ item ∈ items, item.entryId = entryId) ∧
    ∃ given, canonicalIds env (items.map (·.entryId)) = .ok given ∧ canonicalIds env entryIds = .ok given

theorem coverageSource {coverage entryIds actionId operation result}
    (ok : coverageForAction env coverage entryIds actionId operation = .ok result) :
    (∀ item ∈ result, item.actionId = some actionId) ∧ Covers env entryIds result coverage := by
  unfold coverageForAction at ok
  cases coverage with
  | none =>
    cases ok
    simp [Covers,Function.comp_def]
  | some items =>
    obtain ⟨given,first,ok⟩ := checkedOk.mp ok
    obtain ⟨wanted,second,ok⟩ := checkedOk.mp ok
    split at ok
    · cases ok
    · rename_i same
      obtain ⟨result,made,ok⟩ := checkedOk.mp ok
      cases ok
      obtain ⟨ids,actions⟩ := assignedIds made
      refine ⟨by simpa [List.mem_insertionSort] using actions,fun entryId => ?_,given,first,?_⟩
      · have texts : (∃ item ∈ result, item.entryId = entryId) ↔ ∃ item ∈ items, item.entryId = entryId := by
          rw [← List.mem_map,← List.mem_map,ids]
        simpa [List.mem_insertionSort] using texts
      · rw [second,not_not.mp same]

theorem journalNumbersSource {values result} (ok : journalNumbers values = .ok result) (n : Nat) :
    n ∈ result ↔ ∃ value ∈ values, journalNumber value = some n := by
  induction values generalizing result with
  | nil => cases ok; simp
  | cons value rest ih =>
    unfold journalNumbers at ok
    cases read : journalNumber value with
    | none => simp [read] at ok
    | some k =>
      rw [read] at ok
      obtain ⟨tail,others,same⟩ := checkedOk.mp ok
      cases same
      rw [List.mem_cons,ih others]
      simp [read,eq_comm]

/- Where the coverage and the journal ids of a prepared request come from. -/
structure PreparedSource (request : Request) (p : Prepared) : Prop where
  actions : ∀ item ∈ p.coverage, item.actionId = some p.identity.actionId
  covered : ∀ entryId ∈ p.identity.entryIds, ∃ item ∈ p.coverage, normalized env item.entryId = entryId
  numbers : ∀ task, p.journalTask = some task → ∀ n,
    n ∈ p.journalIds ↔ ∃ entryId ∈ p.identity.entryIds, journalNumber entryId = some n
  entries : WellSpelled env request → ∀ entryId ∈ p.identity.entryIds,
    Spelled env entryId ∧ ∃ item ∈ p.coverage, item.entryId = entryId

theorem coverageTextSource {request : Request} {identity result}
    (own : canonicalIds env request.entryIds = .ok identity)
    (shape : Covers env identity result request.sourceCoverage) {entryId} (member : entryId ∈ identity) :
    ∃ item ∈ result, normalized env item.entryId = entryId ∧ item.entryId ∈ coverageTexts env request := by
  have canonical := canonicalIdsFixed env own member
  unfold coverageTexts
  cases given : request.sourceCoverage with
  | none =>
    rw [given] at shape
    obtain ⟨raw,asked,same⟩ := (memCanonicalIds env own).mp member
    rw [← show result.map (·.entryId) = identity from shape] at member
    obtain ⟨item,present,text⟩ := List.mem_map.mp member
    refine ⟨item,present,by rw [text,canonical],?_⟩
    exact List.mem_map.mpr ⟨raw,asked,same.trans text.symm⟩
  | some items =>
    rw [given] at shape
    obtain ⟨texts,ids,asked,wanted⟩ := shape
    -- The two lists of canonical ids agree, and the identity's ids are canonical already.
    obtain ⟨raw,present,same⟩ := (memCanonicalIds env asked).mp
      ((memCanonicalIds env wanted).mpr ⟨entryId,member,canonical⟩)
    obtain ⟨item,made,text⟩ := (texts raw).mpr (List.mem_map.mp present)
    exact ⟨item,made,by rw [text,same],text ▸ present⟩

theorem preparedSource {request p} (ok : prepare env request = .ok p) : PreparedSource env request p := by
  unfold prepare at ok
  obtain ⟨batchId,_,ok⟩ := checkedOk.mp ok
  obtain ⟨operation,_,ok⟩ := checkedOk.mp ok
  split at ok
  · cases ok
  obtain ⟨identity,found,ok⟩ := checkedOk.mp ok
  obtain ⟨digest,_,ok⟩ := checkedOk.mp ok
  obtain ⟨task,_,ok⟩ := checkedOk.mp ok
  obtain ⟨ids,read,ok⟩ := checkedOk.mp ok
  obtain ⟨coverage,made,ok⟩ := checkedOk.mp ok
  cases ok
  have own := (actionIdentitySource env found).1
  obtain ⟨actions,shape⟩ := coverageSource env made
  refine ⟨actions,fun entryId member => ?_,?_,fun spelled entryId member => ?_⟩
  · obtain ⟨item,present,same,_⟩ := coverageTextSource env own shape member
    exact ⟨item,present,same⟩
  · rintro task rfl n
    unfold requestedJournalIds journalEntryIds at read
    dsimp only at read
    split at read
    · cases read
    · exact journalNumbersSource read n
  · obtain ⟨item,present,same,listed⟩ := coverageTextSource env own shape member
    have fine := spelled item.entryId listed
    rw [fine.1] at same
    exact ⟨same ▸ fine,item,present,same⟩

end McpMemory.Ingress
