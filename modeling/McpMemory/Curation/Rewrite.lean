import McpMemory.Curation.Targets
import McpMemory.Memory.Tidy

/-! A call that goes through: on any memory that a curator can reach at all, and whatever
else the database holds, a rewrite that gives every field commits when nothing fails
around it. -/
namespace McpMemory.Curation
open Memory Text Transaction Table

theorem uuidChars {text memoryId : String} (read : uuid text = .ok memoryId) :
    (∀ c ∈ memoryId.toList, isHex c ∨ c = '-') ∧ '-' ∈ memoryId.toList := by
  unfold uuid at read
  generalize (hexDigits text).map Char.toLower = digits at read
  dsimp only at read
  split at read
  · rename_i shape
    rw [← Except.ok.inj read,String.toList_ofList]
    refine ⟨fun c member => ?_,by simp⟩
    have hex := List.all_eq_true.mp shape.2 c
    simp only [List.append_assoc,List.mem_append,List.mem_cons,List.not_mem_nil,or_false] at member
    rcases member with here | here | here | here | here | here | here | here | here
    · exact .inl (hex (List.mem_of_mem_take here))
    · exact .inr here
    · exact .inl (hex (List.mem_of_mem_drop (List.mem_of_mem_take here)))
    · exact .inr here
    · exact .inl (hex (List.mem_of_mem_drop (List.mem_of_mem_take here)))
    · exact .inr here
    · exact .inl (hex (List.mem_of_mem_drop (List.mem_of_mem_take here)))
    · exact .inr here
    · exact .inl (hex (List.mem_of_mem_drop here))
  · cases read

theorem hexRange {c : Char} (hex : isHex c ∨ c = '-') : c.toNat = 45 ∨ 48 ≤ c.toNat ∧ c.toNat ≤ 57 ∨
    65 ≤ c.toNat ∧ c.toNat ≤ 70 ∨ 97 ≤ c.toNat ∧ c.toNat ≤ 102 := by
  have order (a b : Char) : a ≤ b ↔ a.toNat ≤ b.toNat := UInt32.le_iff_toNat_le
  rcases hex with hex | rfl
  · simp only [isHex,Char.isDigit,Bool.or_eq_true,Bool.and_eq_true,decide_eq_true_eq,order,ge_iff_le,
      UInt32.le_iff_toNat_le] at hex
    simp at hex
    omega
  · exact .inl rfl

/- An id that every layer reads as it stands. -/
structure Named (env : Env) (memoryId : String) : Prop where
  plain : isPlain memoryId
  stripped : strip memoryId = memoryId
  canonical : canonicalId env memoryId = memoryId
  nonempty : memoryId ≠ ""
  colonless : ':' ∉ memoryId.toList
  internal : startsWith memoryId "ext:" = false

theorem uuidPlain {text memoryId : String} (read : uuid text = .ok memoryId) : isPlain memoryId := by
  refine List.all_eq_true.mpr fun c member => ?_
  have here := hexRange ((uuidChars read).1 c member)
  have away : c ≠ '\r' := fun same => by rw [same] at here; revert here; decide
  simp only [Bool.and_eq_true,decide_eq_true_eq,bne_iff_ne]
  exact ⟨by omega,away⟩

theorem uuidStripped {text memoryId : String} (read : uuid text = .ok memoryId) : strip memoryId = memoryId := by
  refine stripClear fun c member => ?_
  have here := hexRange ((uuidChars read).1 c member)
  simp only [isSpace,Bool.or_eq_false_iff,Bool.and_eq_false_iff,decide_eq_false_iff_not,beq_eq_false_iff_ne]
  omega

theorem uuidNamed {env : Env} (plain : env.unicode.Plain) {memoryId} (read : uuid memoryId = .ok memoryId) :
    Named env memoryId := by
  obtain ⟨chars,hyphen⟩ := uuidChars read
  have fine := uuidPlain read
  have clear := uuidStripped read
  have colonless : ':' ∉ memoryId.toList := fun member => by
    have here := hexRange (chars ':' member)
    revert here
    decide
  refine ⟨fine,clear,by rw [canonicalId,plain.nfc memoryId fine,clear],?_,colonless,?_⟩
  · rintro rfl
    simp at hyphen
  · by_contra external
    have start := List.isPrefixOf_iff_prefix.mp (Bool.of_not_eq_false external)
    exact colonless (start.subset (by decide))

variable {env : Env} {config : Config} {memoryId : String}

section
variable {now : Moment ActionError} (quiet : now.fault = none)
include quiet

theorem givesRead {α : Type} (query : Tables → α) (work : Work) :
    Gives now (onTables port (read query)) work (query work.database.memory) work :=
  givesOnTables quiet rfl

theorem givesFailStage (calm : config.faultStage = none) (stage : String) (work : Work) :
    Gives now (failStage config stage) work () work :=
  givesBind (givesHook quiet) (by rw [calm]; exact givesPure)

omit quiet in
theorem givesAccess (named : Named env memoryId) {work} (held : locked memoryId work) :
    Gives now (requireAccess env memoryId) work memoryId work := by
  unfold requireAccess
  rw [named.canonical]
  exact givesBind (givesInspect _) (by rw [if_pos held]; exact givesPure)

theorem givesGetMemory (named : Named env memoryId) {work} (held : locked memoryId work) :
    Gives now (getMemory env memoryId) work (selectRecord memoryId work.database.memory) work :=
  givesBind (givesAccess named held) (givesRead quiet _ work)

end

/- The tables after an update that leaves one workspace and no tag. -/
def rewritten (memoryId : String) (set : MemoryRow → MemoryRow) (workspaceId : String)
    (document : SearchDocument) (t : Tables) : Tables := { t with
  memories := update (·.id == memoryId) set t.memories
  workspaces := t.workspaces.filter (·.1 != memoryId) ++ [(memoryId,workspaceId)]
  memoryTags := t.memoryTags.filter (·.1 != memoryId)
  searchDocuments := t.searchDocuments.filter (·.memoryId != memoryId) ++ [document] }

/- The row of a memory with the mappings that `rewritten` leaves. -/
def rewrittenRecord (set : MemoryRow → MemoryRow) (workspaceId : String) (row : MemoryRow) : MemoryRecord :=
  { set row with workspaceIds := [workspaceId], tags := [], archivedAt := none }

theorem selectRewritten {set : MemoryRow → MemoryRow} (same : ∀ row, (set row).id = row.id) {t : Tables} {row}
    (found : selectRow memoryId t = some row) (workspaceId document) :
    selectRecord memoryId (rewritten memoryId set workspaceId document t) =
      some (rewrittenRecord set workspaceId row) := by
  have id : row.id = memoryId := by simpa using (findSome found).2
  have looked : selectRow memoryId (rewritten memoryId set workspaceId document t) = some (set row) :=
    findUpdated (fun row => by rw [same]) found
  have tagless (tagId : Int) : (t.memoryTags.filter (·.1 != memoryId)).contains (memoryId,tagId) = false := by
    simp
  have mapped : ((t.workspaces.filter (·.1 != memoryId) ++ [(memoryId,workspaceId)]).filter
      (·.1 == memoryId)).map (·.2) = [workspaceId] := by
    rw [List.filter_append,List.filter_filter]
    have none : t.workspaces.filter (fun pair => pair.1 == memoryId && pair.1 != memoryId) = [] := by
      simp
    rw [none]
    simp
  rw [selectRecord,recordById,looked]
  simp only [Option.map_some,hydrateRecord,rewrittenRecord,same,id,rewritten,mapped,tagless,Bool.false_eq_true,
    if_false,List.filterMap_none]
  rfl

/- What an update sets at one moment. -/
def rewriting (now : Moment ActionError) (prepared : PreparedUpdate) (row : MemoryRow) : MemoryRow := { row with
  title := prepared.title, content := prepared.content, summary := prepared.summary
  type := prepared.memoryType, status := prepared.status, metadata := prepared.metadata
  updatedAt := now.text }

theorem rewritingId (now : Moment ActionError) (prepared : PreparedUpdate) (row : MemoryRow) :
    (rewriting now prepared row).id = row.id := rfl

def documentOf (memoryId : String) (prepared : PreparedUpdate) : SearchDocument :=
  ⟨memoryId,prepared.title,prepared.summary.getD "",prepared.content,String.intercalate " " prepared.tags⟩

def rewrittenWork (now : Moment ActionError) (memoryId : String) (prepared : PreparedUpdate) (workspaceId : String)
    (work : Work) : Work :=
  let after := rewritten memoryId (rewriting now prepared) workspaceId (documentOf memoryId prepared)
    work.database.memory
  { port.put after work with touched := work.touched ++ [memoryId] }

section
variable {now : Moment ActionError} (quiet : now.fault = none)
include quiet

theorem givesMappings {work : Work} (there : work.database.memory.has memoryId) (workspaceId : String) :
    Gives now (replaceWorkspaces port memoryId [workspaceId]) work () (port.put { work.database.memory with
      workspaces := work.database.memory.workspaces.filter (·.1 != memoryId) ++ [(memoryId,workspaceId)] } work) := by
  have inserted : insertWorkspace memoryId workspaceId { work.database.memory with
      workspaces := work.database.memory.workspaces.filter (·.1 != memoryId) } = .ok ((),
      { work.database.memory with workspaces :=
        work.database.memory.workspaces.filter (·.1 != memoryId) ++ [(memoryId,workspaceId)] }) := by
    unfold insertWorkspace
    rw [if_neg (by simp),if_neg (by simpa [Tables.has] using there)]
  exact givesBind (givesOnTables quiet rfl) (givesBind (givesOnTables quiet inserted) givesPure)

theorem givesUntagged {tags : List String} (none : tags = []) (work : Work) :
    Gives now (replaceTags port memoryId tags) work () (port.put { work.database.memory with
      memoryTags := work.database.memory.memoryTags.filter (·.1 != memoryId) } work) := by
  rw [none]
  exact givesBind (givesOnTables quiet rfl) givesPure

theorem givesUpdate (named : Named env memoryId) (calm : config.faultStage = none) {work : Work} {row changes}
    {prepared : PreparedUpdate} {workspaceId} (held : locked memoryId work)
    (found : selectRow memoryId work.database.memory = some row)
    (readied : ∀ existing, selectRecord memoryId work.database.memory = some existing →
      prepareMemoryUpdate env existing changes = .ok prepared)
    (workspaces : prepared.workspaceIds = [workspaceId]) (tags : prepared.tags = []) :
    Gives now (updateMemory env config memoryId changes) work
      (some (rewrittenRecord (rewriting now prepared) workspaceId row))
      (rewrittenWork now memoryId prepared workspaceId work) := by
  have after : selectRecord memoryId (rewrittenWork now memoryId prepared workspaceId work).database.memory =
      some (rewrittenRecord (rewriting now prepared) workspaceId row) :=
    selectRewritten (rewritingId now prepared) found _ _
  have there : (update (·.id == memoryId) (rewriting now prepared) work.database.memory.memories).any
      (·.id == memoryId) := by
    have updated := findUpdated (fun row => by rw [rewritingId now prepared row]) found
    exact List.any_eq_true.mpr ⟨_,(findSome updated).1,(findSome updated).2⟩
  rw [← after]
  cases look : selectRecord memoryId work.database.memory with
  | none => simp [selectRecord,recordById,found] at look
  | some existing =>
    refine givesBind (givesAccess named held) (givesBind (givesGetMemory quiet named held) ?_)
    rw [look]
    refine givesBind (givesLift (readied existing look)) (givesBind givesObserve
      (givesBind (givesOnTables quiet rfl) ?_))
    rw [workspaces]
    refine givesBind (givesMappings quiet ?_ workspaceId) ?_
    · exact there
    refine givesBind (givesUntagged quiet tags _) ?_
    refine givesBind (givesAdjust _) (givesBind (givesFailStage quiet calm _ _) ?_)
    refine givesBind (givesBind (givesOnTables quiet rfl) (givesOnTables quiet rfl)) ?_
    exact givesBind (givesFailStage quiet calm _ _) (givesGetMemory quiet named held)

end

/- The rewrite gives every field, so nothing of the old row matters. -/

def rewriteArguments (memoryId title : String) : Json.Object := [("memory_id",.str memoryId),
  ("title",.str title),("content",.str "text"),("summary",.str "summary"),("memory_type",.str "fact"),
  ("status",.str "active"),("workspace_ids",.arr [.str "w"]),("tags",.arr []),("metadata",.obj [])]

def rewriteCall (memoryId title runId evidenceId idempotencyKey : String) : ToolCall :=
  ⟨.updateMemoryRecord,rewriteArguments memoryId title,runId,evidenceId,idempotencyKey,""⟩

def rewriteChanges (title : String) : UpdateValues := ⟨some (some title),some (some "text"),some "fact",none,
  some "active",some (some "summary"),some ["w"],some [],some []⟩

def rewriteUpdate (title : String) : PreparedUpdate := ⟨title,"text","fact","active",some "summary",["w"],[],[]⟩

/- Titles that no check objects to. -/
structure Unremarkable (title : String) : Prop where
  stripped : strip title = title
  nonempty : title ≠ ""
  small : isSmall title
  flat : collapseSpaces false title.toList = title.toList
  noTrace : (startsWith title "task_complete" || startsWith title "task complete") = false

theorem qualityPlain {env : ToolEnv} (plain : env.unicode.Plain) {text : String} (stripped : strip text = text)
    (small : isSmall text) (flat : collapseSpaces false text.toList = text.toList) :
    normalizeQualityText env text = text := by
  rw [normalizeQualityText,stripped,plain.lower text small,flat,String.ofList_toList]

theorem rewriteQuality {env : ToolEnv} (plain : env.unicode.Plain) {title : String} (fine : Unremarkable title) :
    memoryWriteQualityError env title "text" (some "summary") = none := by
  have text : normalizeQualityText env "text" = "text" :=
    qualityPlain plain (by decide) (by decide) (by decide)
  have summary : normalizeQualityText env "summary" = "summary" :=
    qualityPlain plain (by decide) (by decide) (by decide)
  unfold memoryWriteQualityError
  rw [qualityPlain plain fine.stripped fine.small fine.flat,text,Option.getD_some,summary]
  simp only [fine.noTrace]
  decide

theorem rewriteReadied {env : Env} {title : String} (fine : Unremarkable title) (existing : MemoryRecord) :
    prepareMemoryUpdate env existing (rewriteChanges title) = .ok (rewriteUpdate title) := by
  have content : strip "text" = "text" := by decide
  have workspaces : normalizedValues ["w"] = ["w"] := by decide
  simp only [prepareMemoryUpdate,rewriteChanges,textOr,fine.stripped,content,fine.nonempty,Option.getD_some,workspaces]
  rfl

theorem requireGiven {arguments : Json.Object} {field text : String}
    (found : Json.get arguments field = some (.str text)) (stripped : strip text = text) (nonempty : text ≠ "") :
    requireString arguments field = .ok text := by
  rw [requireString,found]
  simp only [stripped,nonempty,if_false]

theorem optionalGiven {arguments : Json.Object} {field text : String}
    (found : Json.get arguments field = some (.str text)) (stripped : strip text = text) (nonempty : text ≠ "") :
    optionalString arguments field = .ok (some text) := by
  rw [optionalString,found]
  simp only [stripped,nonempty,if_false]

theorem visitTexts (texts : List String) : visitItems (texts.map .str) = [] := by
  induction texts with
  | nil => rfl
  | cons text rest ih => rw [List.map_cons,visitItems,ih]; rfl

theorem visitOptional (text : Option String) : visit (Memory.optional text) = [] := by cases text <;> rfl

theorem payloadGiven {record : MemoryRecord} (positive : ∀ memoryRef, record.memoryRef = some memoryRef →
    1 ≤ memoryRef) : ∃ payload, internalMutationRecordPayload record = .ok payload ∧ visit payload = [record.id] := by
  have formatted : ∃ memoryRef, formatMemoryRef record.memoryRef = .ok memoryRef ∧ visit memoryRef = [] := by
    cases here : record.memoryRef with
    | none => exact ⟨.null,rfl,rfl⟩
    | some memoryRef =>
      refine ⟨.str ("mem-" ++ toString memoryRef),?_,rfl⟩
      rw [formatMemoryRef,if_neg (Int.not_lt.mpr (positive memoryRef here))]
  obtain ⟨memoryRef,ok,silent⟩ := formatted
  refine ⟨_,by rw [internalMutationRecordPayload,ok]; rfl,?_⟩
  simp only [visit,visitFields,visitTexts,visitOptional,silent,ownId,Json.get,List.lookup_cons,asText]
  rfl

def rewriteAnswer (env : ToolEnv) (payload : Json) : Answer :=
  let warnings := memoryWriteQualityWarnings env (some "summary") "fact" [] "text"
  accepted ([("record",payload)] ++ if warnings.isEmpty then [] else [("warnings",.arr (warnings.map .str))])

theorem rewriteAnswered (env : ToolEnv) (payload : Json) :
    textField (rewriteAnswer env payload) "status" = some "ok" ∧
    visit (.obj (rewriteAnswer env payload)) = visit payload := by
  unfold rewriteAnswer
  dsimp only
  split <;> simp [accepted,textField,Json.get,List.lookup_cons,asText,visit,visitFields,ownId,visitTexts]

section
variable {env : ToolEnv} {now : Moment ActionError} (quiet : now.fault = none)
include quiet

theorem givesRewrite (plain : env.unicode.Plain) (named : Named env.actions memoryId)
    (calm : config.faultStage = none) {title} (fine : Unremarkable title) {work : Work} {row}
    (held : locked memoryId work) (found : selectRow memoryId work.database.memory = some row) {payload}
    (serialised : internalMutationRecordPayload (rewrittenRecord (rewriting now (rewriteUpdate title)) "w" row) =
      .ok payload) :
    Gives now ((updateMemoryRecord env (rewriteArguments memoryId title)).play (perform env.actions config))
      work (rewriteAnswer env payload) (rewrittenWork now memoryId (rewriteUpdate title) "w" work) := by
  have updated := givesUpdate quiet named calm held found (fun existing _ => rewriteReadied fine existing) rfl rfl
  refine givesThen (givesCheck (requireGiven rfl named.stripped named.nonempty))
    (givesThen (givesAsk (givesGetMemory quiet named held)) ?_)
  cases look : selectRecord memoryId work.database.memory with
  | none => simp [selectRecord,recordById,found] at look
  | some existing =>
    have quality : memoryWriteQualityError env (orText (some title) existing.title)
        (orText (some "text") existing.content) (if given (rewriteArguments memoryId title) "summary" then
          some "summary" else existing.summary) = none := rewriteQuality plain fine
    dsimp only
    rw [if_neg (by simp [updatableFields,given,rewriteArguments,Json.get,List.lookup_cons])]
    refine givesThen (givesCheck (optionalGiven rfl fine.stripped fine.nonempty))
      (givesThen (givesCheck (optionalGiven rfl (by decide) (by decide)))
      (givesThen (givesCheck (optionalGiven rfl (by decide) (by decide)))
      (givesThen (givesCheck (optionalGiven rfl (by decide) (by decide))) (givesThen (givesCheck rfl) ?_))))
    rw [quality]
    exact givesThen (givesCheck (optionalGiven rfl (by decide) (by decide))) (givesThen (givesCheck rfl)
      (givesThen (givesCheck rfl) (givesThen (givesAsk updated) (givesThen (givesThen (givesCheck rfl) givesDone)
      (givesThen (givesCheck serialised) givesDone)))))

end

end McpMemory.Curation
