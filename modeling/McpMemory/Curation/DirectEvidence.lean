import McpMemory.Lib.Json
import McpMemory.Memory.Tables

/-! `core/direct_mutation_evidence.py`: the evidence of one call of an internal mutation tool, and
how `mcp/transport.py` comes to the entry of the ledger. Payloads are values of `json.loads`, so
that `_json_safe` leaves them as they are. -/
namespace McpMemory.DirectEvidence

inductive DirectMutationOutcome where
  | appliedVerified
  | appliedUnverified
  | ledgerInvalid
  | mutationEvidenceInvalid
  | noOp
  deriving DecidableEq, Repr

inductive Transition where
  | created
  | updated
  | archived
  | deleted
  deriving DecidableEq, Repr

structure EntityDelta where
  kind : String
  entityId : String
  beforeRevision : Option String
  afterRevision : Option String
  beforeExists : Bool
  afterExists : Bool
  transition : Transition
  snapshot : Json.Object

/- The fields that the classification reads or sets. -/
structure DirectMutationEvidence where
  taskId : Option String
  executionEpoch : Option Int
  callId : Option String
  toolName : String
  payload : Json
  ledgerEntry : Json
  deltas : List EntityDelta
  outcome : Option DirectMutationOutcome
  errorCode : Option String
  finalizedAt : Option String

def textAt (object : Json.Object) (key : String) : Option String :=
  match Json.get object key with
  | some (.str text) => some text
  | _ => none

/- `isinstance(result, dict)` with a status other than "error". -/
def succeeded : Json → Bool
  | .obj fields => textAt fields "status" != some "error"
  | _ => false

/- `value or other`. -/
def orText (value other : Option String) : Option String :=
  match value with
  | some "" | none => other
  | some text => some text

def reconcileDirectMutationEvidence (now : String) (evidence : DirectMutationEvidence) (ledgerEntry payload : Option Json)
    (_semanticPostcondition : Option Bool) : DirectMutationEvidence :=
  let result := payload.getD evidence.payload
  { evidence with
    payload := result
    ledgerEntry := ledgerEntry.getD evidence.ledgerEntry
    outcome := some (if succeeded result then .appliedVerified else .noOp)
    errorCode := if succeeded result then none else some "mutation_not_applied"
    finalizedAt := orText evidence.finalizedAt (some now) }

/- The entry of the ledger with the call's id that came last. -/
def ledgerEntryFor (callId : Option String) (toolCallLedger : List Json.Object) : Json :=
  .obj ((toolCallLedger.reverse.find? fun item => match Json.get item "call_id" with
    | none | some .null => callId.isNone
    | some (.str text) => callId == some text
    | _ => false).getD [])

def isEpoch (epoch : Int) : Option Json → Bool
  | some (.int value) => value == epoch
  | some (.bool value) => (if value then 1 else 0) == epoch
  | _ => false

/- `_ledger_matches` -/
def ledgerMatches (evidence : DirectMutationEvidence) : Json → Bool
  | .obj ledger =>
    textAt ledger "status" == some "success" && textAt ledger "tool_name" == some evidence.toolName &&
    (evidence.callId.isNone || textAt ledger "call_id" == evidence.callId) &&
    (evidence.taskId.isNone || textAt ledger "task_id" == evidence.taskId) &&
    evidence.executionEpoch.all fun epoch => isEpoch epoch (Json.get ledger "execution_epoch")
  | _ => false

/- What `_valid_deltas` asks of each delta. -/
def validDelta (item : EntityDelta) : Bool :=
  let named := (item.kind == "record" || item.kind == "link") && item.entityId != ""
  named && item.beforeExists != item.afterExists || named && item.beforeRevision != item.afterRevision

/- What a memory was before, as `_before_entity_snapshots` or the repository has it. -/
structure Before where
  updatedAt : Option String
  status : Option String

def recordPayloads (payload : Json.Object) : List (String × Json.Object) := payload.flatMap fun
  | (key,.obj value) => if (textAt value "id").isSome then [(key,value)] else []
  | (key,.arr items) => items.filterMap fun
    | .obj item => if (textAt item "id").isSome then some (key,item) else none
    | _ => none
  | _ => []

/- Each entity once, under the key and with the record where it comes first. -/
def unseen (seen : List String) : List (String × Json.Object) → List (String × String × Json.Object)
  | [] => []
  | (key,record)::rest => match textAt record "id" with
    | none => unseen seen rest
    | some entityId =>
      if seen.contains entityId then unseen seen rest else (key,entityId,record)::unseen (entityId::seen) rest

section
variable (repository : String → Option Before) (beforeEntities : List (String × Before))

/- The repository is asked only where there is no snapshot. -/
def recordDelta (key entityId : String) (record : Json.Object) : EntityDelta :=
  let beforePayload := beforeEntities.lookup entityId
  let before := if beforePayload.isNone then repository entityId else none
  let deleted := key == "deleted"
  let archived := textAt record "status" == some "archived" && before.bind (·.status) != some "archived"
  { kind := "record"
    entityId := entityId
    beforeRevision := orText (beforePayload.bind (·.updatedAt)) (before.bind (·.updatedAt))
    afterRevision := if deleted then none else textAt record "updated_at"
    beforeExists := beforePayload.isSome || before.isSome
    afterExists := !deleted
    transition :=
      if deleted then .deleted else if archived then .archived else if before.isNone then .created else .updated
    snapshot := record }

/- The response's link, else the one that the arguments name. -/
def linkOf (payload arguments : Json.Object) : Json.Object :=
  match Json.get payload "link" with
  | some (.obj link) => link
  | _ => ["source_id","target_id","link_type"].filterMap fun key => (Json.get arguments key).map (key,·)

def linkDelta (payload arguments : Json.Object) : List EntityDelta :=
  let link := linkOf payload arguments
  match textAt link "source_id",textAt link "target_id",textAt link "link_type" with
  | some sourceId,some targetId,some linkType =>
    if sourceId = "" ∨ targetId = "" ∨ linkType = "" then []
    else
      let created := (Json.get payload "link").isSome
      [{ kind := "link"
         entityId := sourceId ++ ":" ++ targetId ++ ":" ++ linkType
         beforeRevision := none
         afterRevision := none
         beforeExists := !created
         afterExists := created
         transition := if created then .created else .deleted
         snapshot := link }]
  | _,_,_ => []

def entityDeltasForPayload (payload arguments : Json.Object) : List EntityDelta :=
  (unseen [] (recordPayloads payload)).map (fun item => recordDelta repository beforeEntities item.1 item.2.1 item.2.2) ++
    linkDelta payload arguments

end

/- A matching call in the ledger, a well-formed success, a valid delta and a postcondition. -/
structure Supported (evidence : DirectMutationEvidence) (toolCallLedger : List Json.Object) (payload : Json)
    (semanticPostcondition : Option Bool) : Prop where
  ledger : ∃ item ∈ toolCallLedger, ledgerMatches evidence (.obj item)
  success : succeeded payload
  delta : ∃ item ∈ evidence.deltas, validDelta item
  postcondition : semanticPostcondition = some true

def Sound (outcome : Option DirectMutationOutcome) (evidence : DirectMutationEvidence) (toolCallLedger : List Json.Object)
    (payload : Json) (semanticPostcondition : Option Bool) : Prop :=
  outcome = some .appliedVerified → Supported evidence toolCallLedger payload semanticPostcondition

def CreatedExact (deltas : List EntityDelta) : Prop := ∀ item ∈ deltas, item.transition = .created ↔ item.beforeExists = false

/- One that is known from before its call comes as deleted or archived, and one that is not known
at all does not. -/
def Told (repository : String → Option Before) (beforeEntities : List (String × Before)) (key entityId : String)
    (record : Json.Object) : Prop :=
  let gone := key = "deleted" ∨ textAt record "status" = some "archived"
  if (beforeEntities.lookup entityId).isSome then gone else (repository entityId).isSome ∨ ¬ gone

section
variable {repository : String → Option Before} {beforeEntities : List (String × Before)}

theorem recordExact {key entityId : String} {record : Json.Object} :
    ((recordDelta repository beforeEntities key entityId record).transition = .created ↔
      (recordDelta repository beforeEntities key entityId record).beforeExists = false) ↔
    Told repository beforeEntities key entityId record := by
  unfold recordDelta Told
  cases snapshot : beforeEntities.lookup entityId with
  | some before =>
    -- the repository is not asked, so that nothing seems to have been there
    by_cases deleted : key = "deleted" <;> by_cases archived : textAt record "status" = some "archived" <;>
      simp [deleted,archived]
  | none =>
    cases stored : repository entityId with
    | some before =>
      by_cases deleted : key = "deleted" <;> by_cases archived : textAt record "status" = some "archived" <;>
        by_cases already : before.status = some "archived" <;> simp [deleted,archived,already]
    | none =>
      by_cases deleted : key = "deleted" <;> by_cases archived : textAt record "status" = some "archived" <;>
        simp [deleted,archived]

theorem linkExact (payload arguments : Json.Object) : CreatedExact (linkDelta payload arguments) := by
  intro item member
  unfold linkDelta at member
  dsimp only at member
  split at member
  · split at member
    · cases member
    · cases List.mem_singleton.mp member
      cases (Json.get payload "link").isSome <;> simp
  · cases member

theorem deltasExact {payload arguments : Json.Object} :
    CreatedExact (entityDeltasForPayload repository beforeEntities payload arguments) ↔
      ∀ item ∈ unseen [] (recordPayloads payload), Told repository beforeEntities item.1 item.2.1 item.2.2 := by
  unfold CreatedExact entityDeltasForPayload
  constructor
  · intro exact_ item member
    exact recordExact.mp (exact_ _ (List.mem_append_left _ (List.mem_map.mpr ⟨item,member,rfl⟩)))
  · intro told delta member
    rcases List.mem_append.mp member with listed | linked
    · obtain ⟨item,there,rfl⟩ := List.mem_map.mp listed
      exact recordExact.mpr (told item there)
    · exact linkExact _ _ delta linked

end

theorem verdictSound {now : String} {evidence : DirectMutationEvidence} {toolCallLedger : List Json.Object} {payload : Json}
    {semanticPostcondition : Option Bool} :
    Sound (reconcileDirectMutationEvidence now evidence (some (ledgerEntryFor evidence.callId toolCallLedger)) (some payload)
        semanticPostcondition).outcome evidence toolCallLedger payload semanticPostcondition ↔
      (succeeded payload → (∃ item ∈ toolCallLedger, ledgerMatches evidence (.obj item)) ∧
        (∃ item ∈ evidence.deltas, validDelta item) ∧ semanticPostcondition = some true) := by
  unfold Sound reconcileDirectMutationEvidence
  cases success : succeeded payload with
  | false => simp [success]
  | true =>
    simp only [Option.getD_some,success,if_true,forall_const]
    exact ⟨fun supported => ⟨supported.ledger,supported.delta,supported.postcondition⟩,
      fun ⟨ledger,delta,postcondition⟩ => ⟨ledger,success,delta,postcondition⟩⟩

/- The verdict looks at the payload alone, and a snapshot taken before the call keeps the
repository from being asked. -/
theorem directEvidenceSound (now : String) (evidence : DirectMutationEvidence) (toolCallLedger : List Json.Object)
    (payload : Json) (semanticPostcondition : Option Bool) (response arguments : Json.Object)
    (repository : String → Option Before) (beforeEntities : List (String × Before)) :
    (Sound (reconcileDirectMutationEvidence now evidence (some (ledgerEntryFor evidence.callId toolCallLedger)) (some payload)
        semanticPostcondition).outcome evidence toolCallLedger payload semanticPostcondition ∧
      CreatedExact (entityDeltasForPayload repository beforeEntities response arguments)) ↔
    (succeeded payload → (∃ item ∈ toolCallLedger, ledgerMatches evidence (.obj item)) ∧
      (∃ item ∈ evidence.deltas, validDelta item) ∧ semanticPostcondition = some true) ∧
    ∀ item ∈ unseen [] (recordPayloads response), Told repository beforeEntities item.1 item.2.1 item.2.2 :=
  and_congr verdictSound deltasExact

/- An update whose call no ledger has, of a memory that a snapshot was taken of. -/

def updateEvidence : DirectMutationEvidence :=
  ⟨some "task",some 2,some "call","internal_update_memory_record",.obj [],.obj [],[],none,none,none⟩

def updateResponse : Json.Object := [("status",.str "ok"),("record",.obj [("id",.str "m"),("updated_at",.str "after")])]

theorem unsupportedVerified :
    ¬ Sound (reconcileDirectMutationEvidence "now" updateEvidence (some (ledgerEntryFor updateEvidence.callId []))
      (some (.obj updateResponse)) none).outcome updateEvidence [] (.obj updateResponse) none ∧
    ¬ CreatedExact (entityDeltasForPayload (fun _ => some ⟨some "after",some "active"⟩) [("m",⟨some "before",some "active"⟩)]
      updateResponse []) := by
  refine ⟨fun sound => ?_,fun exact_ => ?_⟩
  · obtain ⟨item,member,_⟩ := (sound (by decide)).ledger
    cases member
  · cases (exact_ _ List.mem_cons_self).mp rfl

end McpMemory.DirectEvidence
