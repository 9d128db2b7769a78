import McpMemory.Curation.Rewrite

/-! The rewrite as a whole call: the tokens hold, the history takes its event, the receipt
goes in and the transaction commits. -/
namespace McpMemory.Curation
open Memory Text Transaction Table Canonical

variable {memoryId : String}

/- A record whose snapshot and token can be made. -/
structure Tokened (env : Canonical.Env) (record : MemoryRecord) (token : String) : Prop where
  snapshot : ∃ snapshot, recordSnapshot env record = .ok snapshot ∧ Normal env snapshot
  token : recordToken env record = .ok token

theorem tokenedOf {env : Canonical.Env} {record token} (made : recordToken env record = .ok token) :
    Tokened env record token := by
  obtain ⟨snapshot,snapped,hashed⟩ := checkedOk.mp made
  obtain ⟨text,canonical,_⟩ := mappedOk.mp hashed
  obtain ⟨value,normal,_⟩ := mappedOk.mp canonical
  exact ⟨⟨snapshot,snapped,value,normal⟩,made⟩

theorem tokenNonempty {env : Canonical.Env} {record token} (made : recordToken env record = .ok token) :
    token ≠ "" := by
  obtain ⟨snapshot,_,hashed⟩ := checkedOk.mp made
  obtain ⟨text,_,rfl⟩ := mappedOk.mp hashed
  intro empty
  simpa using congrArg String.toList empty

/- A record without metadata always has a token. -/
theorem tokenedBare {env : Canonical.Env} (plain : env.unicode.Plain) {record : MemoryRecord}
    (bare : record.metadata = []) : ∃ token, Tokened env record token := by
  have durable (name) : durableMetadataValue record.metadata name = .obj [] := by rw [bare]; rfl
  have snapped : ∃ snapshot, recordSnapshot env record = .ok snapshot ∧ Tidy snapshot := by
    refine ⟨_,by rw [recordSnapshot,durable,durable]; rfl,?_⟩
    have texts (values : List String) : TidyItems (setValues env values) := tidyItemsEach.mpr fun item member => by
      obtain ⟨_,_,rfl⟩ := List.mem_map.mp member
      trivial
    have summary : Tidy (Memory.optional (record.summary.map (normalizeText env))) := by
      cases record.summary <;> trivial
    have empty : Tidy (.obj []) := ⟨List.nodup_nil,trivial⟩
    exact ⟨by simp,by decide,trivial,by decide,⟨by simp,by decide,trivial,by decide,trivial,by decide,trivial,
      by decide,summary,by decide,trivial,by decide,trivial,by decide,texts _,by decide,texts _,by decide,empty,
      by decide,empty,trivial⟩,trivial⟩
  obtain ⟨snapshot,made,tidy⟩ := snapped
  have normal := tidyNormal plain snapshot tidy
  obtain ⟨hash,hashed⟩ := normalHash normal
  exact ⟨hash,⟨snapshot,made,normal⟩,by rw [recordToken,made]; exact hashed⟩

theorem sortedSetOne (value : String) : sortedSet [value] = [value] := by simp [sortedSet,sorted]

theorem sortedSetTwice (value : String) : sortedSet [value,value] = [value] := by simp [sortedSet,sorted]

variable {env : Env}

theorem stateTokenGiven (plain : env.unicode.Plain) (fine : isPlain memoryId) {record token}
    (tokened : Tokened env.toEnv record token) (ids : List String) :
    ∃ hash, stateToken env [(memoryId,record)] ids = .ok hash := by
  obtain ⟨snapshot,made,normal⟩ := tokened.snapshot
  have nested : Normal env.toEnv (.obj [(memoryId,snapshot)]) :=
    normalFields plain (fun field member => by rw [List.mem_singleton.mp member]; exact ⟨fine,normal⟩) (by simp)
  have targets : isPlain "targets" ∧ Normal env.toEnv (.arr (ids.map .str)) := ⟨by decide,normalStrings ids⟩
  have records : isPlain "records" ∧ Normal env.toEnv (.obj [(memoryId,snapshot)]) := ⟨by decide,nested⟩
  have whole : Normal env.toEnv (.obj [("targets",.arr (ids.map .str)),("records",.obj [(memoryId,snapshot)])]) := by
    refine normalFields plain (fun field member => ?_) (by simp)
    simp only [List.mem_cons,List.not_mem_nil,or_false] at member
    rcases member with rfl | rfl
    · exact targets
    · exact records
  obtain ⟨hash,hashed⟩ := normalHash whole
  refine ⟨some hash,?_⟩
  simp only [stateToken,snapshots,made,List.isEmpty_cons,Bool.false_eq_true,if_false,bind,Except.bind,Except.mapError,
    Curation.hashed,hashed]

/- The call's own parts. -/

theorem rewriteTargets (memoryId title runId evidenceId idempotencyKey : String) :
    targetIds (rewriteCall memoryId title runId evidenceId idempotencyKey) = [memoryId] := by
  simp [targetIds,rewriteCall,targetKeys,rewriteArguments,Json.get,List.lookup_cons,asText,List.eraseDups_cons]

theorem rewriteOperation (memoryId title runId evidenceId idempotencyKey : String) :
    operation (rewriteCall memoryId title runId evidenceId idempotencyKey) = "rewrite_memory" := rfl

theorem affectedOne {answer : Answer} (visited : visit (.obj answer) = [memoryId])
    (internal : startsWith memoryId "ext:" = false) : affectedIds answer [memoryId] = [memoryId] := by
  rw [affectedIds,visited]
  simp [List.eraseDups_cons,internal]

section
variable {toolEnv : ToolEnv} {config : Config} {now : Moment ActionError} (quiet : now.fault = none)
include quiet

theorem givesApply (plain : toolEnv.unicode.Plain) (named : Named toolEnv.actions memoryId)
    (calm : config.faultStage = none) {title} (fine : Unremarkable title) {work : Work} {row}
    (held : locked memoryId work) (found : selectRow memoryId work.database.memory = some row)
    (positive : ∀ memoryRef, row.memoryRef = some memoryRef → 1 ≤ memoryRef) (runId evidenceId key : String) :
    Gives now ((apply toolEnv (rewriteCall memoryId title runId evidenceId key)).play
      (perform toolEnv.actions config)) work (some ⟨"rewrite_memory",[memoryId],none⟩)
      (rewrittenWork now memoryId (rewriteUpdate title) "w" work) := by
  have id : row.id = memoryId := by simpa using (findSome found).2
  obtain ⟨payload,serialised,visited⟩ :=
    @payloadGiven (rewrittenRecord (rewriting now (rewriteUpdate title)) "w" row) positive
  obtain ⟨status,seen⟩ := rewriteAnswered toolEnv payload
  refine givesThen (givesRewrite quiet plain named calm fine held found serialised) ?_
  rw [if_neg (by rw [status]; decide),rewriteTargets,rewriteOperation,
    affectedOne (seen.trans (visited.trans (congrArg (fun id => [id]) id))) named.internal]
  exact givesDone

end

theorem linkKeyNone {env : Env} (named : Named env memoryId) : linkTokenKey memoryId = none := by
  have bare : startsWith memoryId "link:" = false := by
    by_contra linked
    have start := List.isPrefixOf_iff_prefix.mp (Bool.of_not_eq_false linked)
    exact named.colonless (start.subset (by decide))
  have whole : memoryId.toList.splitOn ':' = [memoryId.toList] :=
    List.splitOn_eq_singleton fun member => named.colonless member
  simp only [linkTokenKey,bare,Bool.false_eq_true,if_false,whole]

theorem prefixed (mark : String) (long : mark ≠ "") : (mark ++ memoryId == memoryId) = false := by
  rw [beq_eq_false_iff_ne]
  intro same
  have length := congrArg (fun text => text.toList.length) same
  simp only [String.toList_append,List.length_append] at length
  refine long (String.toList_eq_nil_iff.mp (List.length_eq_zero_iff.mp ?_))
  omega

theorem selectOne {t : Tables} {record} (found : selectRecord memoryId t = some record) :
    selectRecords [memoryId] t = [(memoryId,record)] := by
  simp [selectRecords,found]

theorem givesCheckTokens {env : Env} {now : Moment ActionError} (named : Named env memoryId) {record token} (tokened : Tokened env.toEnv record token)
    (operation : String) (work : Work) :
    Gives now (checkTokens env [(memoryId,record)] ⟨[memoryId],[(memoryId,token)],operation⟩) work () work := by
  have graphless : List.lookup ("graph:" ++ memoryId) [(memoryId,token)] = none := by
    rw [List.lookup_cons,prefixed "graph:" (by decide)]
    rfl
  have ownToken : Gives now (checkRecordToken env [(memoryId,record)] ⟨[memoryId],[(memoryId,token)],operation⟩ memoryId)
      work () work := by
    unfold checkRecordToken
    simp only [List.lookup_cons,beq_self_eq_true,Option.some_or]
    refine givesBind (givesLift (by rw [Memory.token,tokened.token]; rfl)) ?_
    rw [if_pos rfl]
    exact givesPure
  have graph : Gives now (checkGraphToken env ⟨[memoryId],[(memoryId,token)],operation⟩ memoryId) work () work := by
    unfold checkGraphToken
    simp only [graphless]
    exact givesPure
  have link : Gives now (checkLinkToken env (memoryId,token)) work () work := by
    unfold checkLinkToken
    simp only [linkKeyNone named]
    exact givesPure
  exact givesBind (givesBind (givesBind ownToken graph) givesPure) (givesBind link givesPure)

variable {env : Env} {now : Moment ActionError} {before after : MemoryRecord} {previous current : String}

theorem tokensKnown (earlier : Tokened env.toEnv before previous) (later : Tokened env.toEnv after current) :
    sameTokens port env.toEnv (some before) (some after) = .ok (previous == current) := by
  simp only [sameTokens,Memory.token,earlier.token,later.token,Except.mapError,bind,Except.bind]

section
variable (quiet : now.fault = none) (earlier : Tokened env.toEnv before previous)
  (later : Tokened env.toEnv after current)
include quiet earlier later

theorem givesRepairIntents (modelName : String) (work : Work) : ∃ queue,
    Gives now (writeRepairIntents port env.toEnv modelName [(memoryId,before)] [(memoryId,after)]) work ()
      (port.put { work.database.memory with repairQueue := queue } work) := by
  have known := tokensKnown earlier later
  have look : List.lookup memoryId [(memoryId,before)] = some before := by simp
  cases same : previous == current with
  | true =>
    refine ⟨work.database.memory.repairQueue,givesBind givesObserve (givesOne ?_)⟩
    refine givesBind (givesLift (by rw [look,known,same])) ?_
    exact givesPure
  | false =>
    have inserted (intent : RepairIntent) : ∃ queue, insertRepairIntent intent work.database.memory =
        .ok ((),{ work.database.memory with repairQueue := queue }) := by
      unfold insertRepairIntent run
      by_cases held : work.database.memory.repairQueue.any (sameIntent intent)
      · exact ⟨work.database.memory.repairQueue,by simp only [held,if_true]⟩
      · exact ⟨work.database.memory.repairQueue ++ [intent],by simp only [held,Bool.false_eq_true,if_false]⟩
    obtain ⟨queue,inserted⟩ := inserted ⟨now.uuid,memoryId,after.workspaceIds.head?,modelName,after.updatedAt,"pending",0,now.time,
      now.time,now.time⟩
    refine ⟨queue,givesBind givesObserve (givesOne ?_)⟩
    refine givesBind (givesLift (by rw [look,known,same])) ?_
    exact givesBind givesObserve (givesOnTables quiet inserted)

theorem givesRecordRevision (eventId : String) {work : Work}
    (there : work.database.memory.events.any (·.id == eventId))
    (fresh : ∀ revision ∈ work.database.memory.recordRevisions, revision.eventId ≠ eventId) : ∃ revisions,
    Gives now (writeRecordRevision port env.toEnv Canonical.spaced eventId [(memoryId,before)] [(memoryId,after)]
      memoryId) work () (port.put { work.database.memory with recordRevisions := revisions } work) := by
  have known := tokensKnown earlier later
  have look (record : MemoryRecord) : List.lookup memoryId [(memoryId,record)] = some record := by simp
  have text {record token} (tokened : Tokened env.toEnv record token) :
      ∃ text, optionally (snapshotText port env.toEnv Canonical.spaced) (some record) = .ok text := by
    obtain ⟨snapshot,made,_⟩ := tokened.snapshot
    exact ⟨_,by rw [optionally,snapshotText,made]; rfl⟩
  have hash {record token} (tokened : Tokened env.toEnv record token) :
      optionally (Memory.token port env.toEnv) (some record) = .ok (some token) := by
    rw [optionally,Memory.token,tokened.token]
    rfl
  unfold writeRecordRevision
  rw [look,look]
  cases same : previous == current with
  | true =>
    refine ⟨work.database.memory.recordRevisions,givesBind (givesLift (known.trans (congrArg _ same))) ?_⟩
    exact givesPure
  | false =>
    obtain ⟨beforeText,beforeMade⟩ := text earlier
    obtain ⟨afterText,afterMade⟩ := text later
    have absent (revision : RecordRevision) (named : revision.eventId = eventId) :
        insertRecordRevision revision work.database.memory = .ok ((),{ work.database.memory with
          recordRevisions := work.database.memory.recordRevisions ++ [revision] }) := by
      unfold insertRecordRevision
      rw [if_neg,if_neg]
      · rw [named]; simp [there]
      · simp only [List.any_eq_true,not_exists,not_and,Bool.and_eq_true,beq_iff_eq,named]
        exact fun row member same => absurd same.1 (fresh row member)
    refine ⟨_,givesBind (givesLift (known.trans (congrArg _ same))) (givesBind (givesLift beforeMade)
      (givesBind (givesLift afterMade) (givesBind (givesLift (hash earlier)) (givesBind (givesLift (hash later))
      (givesOnTables quiet (absent _ rfl))))))⟩

end

/- Links that stayed as they were take no revision. -/
theorem givesLinkRevisions (eventId : String) (links : List MemoryLink) (work : Work) :
    Gives now (each (writeLinkRevision eventId links links)
      (((links ++ links).map keyOf).dedup.insertionSort (keyLe · ·))) work () work := by
  have present : ∀ key ∈ ((links ++ links).map keyOf).dedup.insertionSort (keyLe · ·),
      (links.find? (keyOf · == key)).isSome := by
    intro key member
    rw [List.mem_insertionSort,List.mem_dedup,List.mem_map] at member
    obtain ⟨link,here,rfl⟩ := member
    rw [List.mem_append,or_self] at here
    exact List.find?_isSome.mpr ⟨link,here,beq_self_eq_true _⟩
  generalize ((links ++ links).map keyOf).dedup.insertionSort (keyLe · ·) = keys at present ⊢
  induction keys with
  | nil => exact givesPure
  | cons key rest ih =>
    refine givesEach ?_ (ih fun other member => present other (List.mem_cons_of_mem _ member))
    unfold writeLinkRevision
    rw [if_pos (by simp [present key List.mem_cons_self])]
    exact givesPure

/- The ledger takes the action: its run is open, and no receipt and no event has its identity. -/
structure Open (database : Database) (runId actionId key : String) : Prop where
  run : ∃ run, selectRun runId database.curation = some run ∧ run.state ≠ .terminal ∧
    (∃ taskId, optionally uuid run.taskId = .ok taskId) ∧ ∃ planId, optionally uuid run.planId = .ok planId
  unreceived : getReceipt runId actionId database.curation = none
  unrecorded : ∀ event ∈ database.memory.events, ¬ (event.curationRunId = some runId ∧ event.actionId = some actionId)
  keyed : key ≠ ""
  unkeyed : ∀ event ∈ database.memory.events, event.idempotencyKey ≠ some key

/- An event id that the history has not seen. -/
def Fresh (eventId : String) (t : Tables) : Prop :=
  (∀ event ∈ t.events, event.id ≠ eventId) ∧ ∀ revision ∈ t.recordRevisions, revision.eventId ≠ eventId

theorem eventInserted {database : Database} {t : Tables} {runId actionId key} (opened : Open database runId actionId key)
    (events : t.events = database.memory.events) (event : MutationEvent) (fresh : Fresh event.id t)
    (run : event.curationRunId = some runId) (action : event.actionId = some actionId)
    (idempotent : event.idempotencyKey = some key) (plain : event.restoresEventId = none) :
    insertEvent event t = .ok ((),{ t with events := t.events ++ [event] }) := by
  unfold insertEvent
  rw [if_neg,if_neg,if_neg,if_neg]
  · simp [plain]
  · simp only [idempotent,Bool.and_eq_true,List.any_eq_true,not_and,not_exists,beq_iff_eq]
    exact fun _ other member same => opened.unkeyed other (events ▸ member) same
  · simp only [run,action,Bool.and_eq_true,List.any_eq_true,not_and,not_exists,beq_iff_eq]
    exact fun _ other member same => fun acted => opened.unrecorded other (events ▸ member) ⟨same,acted⟩
  · simp only [List.any_eq_true,not_exists,not_and,beq_iff_eq]
    exact fun other member => fresh.1 other member

theorem givesWriteHistory (quiet : now.fault = none) (earlier : Tokened env.toEnv before previous)
    (later : Tokened env.toEnv after current) {database : Database} {request : Request} {run : Run}
    {operation : String} {links : List MemoryLink} {work : Work} {key : String}
    (opened : Open database request.runId request.actionId key) (found : selectRun request.runId database.curation = some run)
    (events : work.database.memory.events = database.memory.events) (fresh : Fresh now.uuid work.database.memory)
    (keyed : request.idempotencyKey = some key) (plain : request.restoresEventId = none) :
    ∃ event revisions, event.id = now.uuid ∧
      Gives now (writeHistory env now.uuid request (some run) operation [(memoryId,before)] [(memoryId,after)]
        links links) work () (port.put { work.database.memory with
          events := work.database.memory.events ++ [event], recordRevisions := revisions } work) := by
  obtain ⟨owner,selected,_,⟨taskId,task⟩,planId,plan⟩ := opened.run
  obtain rfl : owner = run := Option.some.inj (selected.symm.trans found)
  have named : eventKey request = key := by
    simp only [eventKey,summaryOr,keyed,opened.keyed,if_false]
  let event : MutationEvent := ⟨now.uuid,operation,request.actorKind,some "curation",taskId,some request.runId,
    planId,some request.actionId,owner.policyVersion,"applied",request.restoresEventId,some (eventKey request),
    now.text⟩
  have inserted := eventInserted opened events event fresh rfl rfl (congrArg some named) plain
  have there : (work.database.memory.events ++ [event]).any (·.id == now.uuid) := by simp [event]
  obtain ⟨revisions,revised⟩ := @givesRecordRevision memoryId env now before after previous current quiet earlier later
    now.uuid (port.put { work.database.memory with events := work.database.memory.events ++ [event] } work) there fresh.2
  have wrote := givesOne revised
  rw [← sortedSetTwice memoryId] at wrote
  exact ⟨event,revisions,rfl,givesBind (givesLift task) (givesBind (givesLift plan) (givesBind givesObserve
    (givesBind (givesOnTables quiet inserted) (givesBind wrote (givesLinkRevisions now.uuid links _)))))⟩

/- A memory that a curator can reach: its row is there, with a positive reference, if any, and
a token. -/
structure Live (env : Canonical.Env) (t : Tables) (memoryId : String) (row : MemoryRow) : Prop where
  named : uuid memoryId = .ok memoryId
  found : selectRow memoryId t = some row
  referenced : ∀ memoryRef, row.memoryRef = some memoryRef → 1 ≤ memoryRef
  token : ∃ token, recordToken env (hydrateRecord t row) = .ok token

theorem givesLockTarget (quiet : now.fault = none) {work : Work} (there : work.database.memory.has memoryId) :
    Gives now (each lockTarget [memoryId]) work () work := by
  refine givesOne ?_
  unfold lockTarget
  split
  · exact givesPure
  · refine givesBind (givesRead quiet _ work) ?_
    rw [if_pos there]
    exact givesPure

theorem givesRunFor (quiet : now.fault = none) {work : Work} {request : Request} {run}
    (found : selectRun request.runId work.database.curation = some run) :
    Gives now (runFor request) work (some run) work := by
  refine givesBind (givesSelect quiet _) ?_
  rw [found]
  exact givesPure

theorem targetsOne (named : Named env memoryId) (values : List String) (ids : values = [memoryId] ∨
    values = [memoryId,memoryId]) : canonicalTargetIds env values = .ok [memoryId] := by
  rcases ids with rfl | rfl
  · simp [canonicalTargetIds,named.canonical,named.nonempty,sortedSetOne]
  · simp [canonicalTargetIds,named.canonical,named.nonempty,sortedSetTwice]

section
variable {toolEnv : ToolEnv} {database : Database} {title runId evidenceId key token : String} {row : MemoryRow}
  {config : Config}

theorem rewriteTidy (memoryId title : String) : Tidy (.obj (rewriteArguments memoryId title)) :=
  ⟨by simp [rewriteArguments],by decide,trivial,by decide,trivial,by decide,trivial,by decide,trivial,by decide,trivial,by decide,
    trivial,by decide,⟨trivial,trivial⟩,by decide,trivial,by decide,⟨List.nodup_nil,trivial⟩,trivial⟩

def rewriteRequest (env : ToolEnv) (memoryId title runId evidenceId key token : String) : Request :=
  requestOf env (rewriteCall memoryId title runId evidenceId key) [(memoryId,token)]

def rewriteReady (memoryId token : String) : Prepared := ⟨[memoryId],[(memoryId,token)],"rewrite_memory"⟩

/- Everything before the receipt, when nothing fails. -/
theorem givesApplyAction (quiet : now.fault = none) (plain : toolEnv.unicode.Plain) (calm : config.faultStage = none)
    (fine : Unremarkable title) (live : Live toolEnv.toEnv database.memory memoryId row)
    (made : recordToken toolEnv.toEnv (hydrateRecord database.memory row) = .ok token)
    (opened : Open database runId (toolEnv.directActionId evidenceId) key) (fresh : Fresh now.uuid database.memory) :
    ∃ receipt work, Gives now (applyAction toolEnv.actions config
        (rewriteRequest toolEnv memoryId title runId evidenceId key token) (rewriteReady memoryId token)
        (apply toolEnv (rewriteCall memoryId title runId evidenceId key))) ⟨database,[memoryId],[],[]⟩ receipt work ∧
      (receipt.runId = runId ∧ receipt.actionId = toolEnv.directActionId evidenceId ∧
        receipt.mutationEventId = some now.uuid) ∧
      work.database.curation = database.curation ∧ work.database.memory.events.any (·.id == now.uuid) ∧
      selectRow memoryId work.database.memory = some (rewriting now (rewriteUpdate title) row) := by
  have named : Named toolEnv.actions memoryId := uuidNamed plain live.named
  obtain ⟨run,found,state,_⟩ := opened.run
  let asked := rewriteRequest toolEnv memoryId title runId evidenceId key token
  let ready := rewriteReady memoryId token
  let work : Work := ⟨database,[memoryId],[],[]⟩
  let changed := rewrittenWork now memoryId (rewriteUpdate title) "w" work
  have held : locked memoryId work := by simp [locked,work]
  have there : database.memory.has memoryId := hasIff.mpr (by simp [portrait,live.found])
  -- the record before and after, with their tokens
  let before : MemoryRecord := { hydrateRecord database.memory row with archivedAt := none }
  let after := rewrittenRecord (rewriting now (rewriteUpdate title)) "w" row
  have earlier : Tokened toolEnv.toEnv before token := tokenedOf made
  obtain ⟨current,later⟩ := @tokenedBare toolEnv.toEnv plain after rfl
  have selected : selectRecord memoryId database.memory = some before := by
    simp [selectRecord,recordById,live.found,before]
  have reselected : selectRecord memoryId changed.database.memory = some after :=
    selectRewritten (rewritingId now _) live.found _ _
  obtain ⟨beforeToken,hashedBefore⟩ := @stateTokenGiven memoryId toolEnv.actions plain named.plain _ _ earlier [memoryId]
  obtain ⟨afterToken,hashedAfter⟩ := @stateTokenGiven memoryId toolEnv.actions plain named.plain _ _ later [memoryId]
  -- the rows beside the memory
  obtain ⟨queue,repaired⟩ := @givesRepairIntents memoryId toolEnv.actions now _ _ _ _ quiet earlier later
    config.embeddingModel changed
  let queued := port.put { changed.database.memory with repairQueue := queue } changed
  obtain ⟨event,revisions,recordedId,wrote⟩ := @givesWriteHistory memoryId toolEnv.actions now _ _ _ _ quiet earlier
    later database asked run "rewrite_memory" (linksOf [memoryId] database.memory) queued key opened found rfl fresh
    rfl rfl
  obtain ⟨intentHash,hashed⟩ := @tidyIntent toolEnv.toEnv plain (intentOf asked ready) (rewriteTidy memoryId title)
    trivial (List.nodup_singleton _) fun item member => by rw [List.mem_singleton.mp member]; exact named.plain
  have checked : checkRun asked (some run) = .ok () := by rw [checkRun,if_neg fun ended => state ended.1]
  have localOne : localMemoryIds toolEnv.actions [memoryId] = .ok [memoryId] := by
    rw [localMemoryIds,targetsOne named _ (.inl rfl)]
    simp [Except.map,named.internal]
  have uuidOne : uuids [memoryId] = .ok [memoryId] := by simp only [uuids,live.named,bind,Except.bind]
  have intent : actionIntentHash toolEnv.actions (intentOf asked ready) = .ok intentHash := by
    rw [actionIntentHash,hashed]
    rfl
  have matched : strip "rewrite_memory" = (rewriteReady memoryId token).operation :=
    show strip "rewrite_memory" = "rewrite_memory" by decide
  refine ⟨executed asked ready intentHash [memoryId] beforeToken afterToken now.uuid now.text none,
    port.put { queued.database.memory with
      events := queued.database.memory.events ++ [event], recordRevisions := revisions } queued,
    givesBind (givesRunFor quiet found) (givesBind (givesLift checked)
    (givesBind (givesLockTarget quiet there) (givesBind (givesRead quiet _ _) ?_))),⟨rfl,rfl,rfl⟩,rfl,?_,?_⟩
  · rw [show ready.targets = [memoryId] from rfl,selectOne selected]
    refine givesBind (givesCheckTokens named earlier _ _) (givesBind givesPure (givesBind (givesRead quiet _ _)
      (givesBind (givesApply quiet plain named calm fine held live.found live.referenced runId evidenceId key) ?_)))
    dsimp only
    rw [if_neg (by decide),if_neg (not_not_intro matched)]
    refine givesBind (givesFailStage quiet calm _ _) (givesBind (givesInspect _)
      (givesBind (givesLift (targetsOne named _ (.inr rfl))) (givesBind (givesRead quiet _ _) ?_)))
    rw [selectOne reselected]
    exact givesBind (givesRead quiet _ _) (givesBind givesObserve (givesBind (givesLift hashedBefore)
      (givesBind (givesLift hashedAfter) (givesBind repaired (givesBind (givesFailStage quiet calm _ _)
      (givesBind wrote (givesBind (givesFailStage quiet calm _ _) (givesBind (givesLift localOne)
      (givesBind (givesLift uuidOne) (givesBind (givesLift intent) (givesBind givesObserve givesPure)))))))))))
  · simp [port,recordedId]
  · exact findUpdated (fun row => by rw [rewritingId now _ row]) live.found

theorem rewritePrepared (named : Named toolEnv.actions memoryId) (filled : token ≠ "") :
    prepare toolEnv.actions (rewriteRequest toolEnv memoryId title runId evidenceId key token) =
      .ok (rewriteReady memoryId token) := by
  have targets : (rewriteRequest toolEnv memoryId title runId evidenceId key token).targetIds = [memoryId] :=
    rewriteTargets memoryId title runId evidenceId key
  have tokens : normalizedTokens toolEnv.actions [(memoryId,token)] = [(memoryId,token)] := by
    simp [normalizedTokens,putToken,named.canonical]
  have whole : strip (operation (rewriteCall memoryId title runId evidenceId key)) = "rewrite_memory" := by
    rw [rewriteOperation]
    decide
  have prepared := @prepareGiven toolEnv.actions (rewriteRequest toolEnv memoryId title runId evidenceId key token) _ _
    (targets ▸ targetsOne named _ (.inl rfl)) (List.cons_ne_nil _ _) (tokens ▸ by simpa using filled) rfl
    (by rw [whole]; decide)
  rw [prepared,whole]
  exact congrArg (fun tokens => Except.ok (Prepared.mk [memoryId] tokens "rewrite_memory")) tokens

theorem rewriteTokens (named : Named toolEnv.actions memoryId) {t : Tables} (found : selectRow memoryId t = some row)
    (made : recordToken toolEnv.toEnv (hydrateRecord t row) = .ok token) :
    expectedTokens toolEnv t [memoryId] = .ok [(memoryId,token)] := by
  have there : t.has memoryId := hasIff.mpr (by simp [portrait,found])
  have looked : repositoryMemory t memoryId = .ok (some (hydrateRecord t row)) := by
    rw [repositoryOwn there,recordById,found]
    rfl
  have hashed : (Memory.token port toolEnv.toEnv (hydrateRecord t row) : Except ActionError String) = .ok token := by
    rw [Memory.token,made]
    rfl
  rw [expectedTokens,named.internal,looked]
  simp [hashed,expectedTokens,bind,Except.bind]

theorem givesInsertReceipt (quiet : now.fault = none) {receipt : ActionReceipt} {work : Work} {eventId}
    (absent : getReceipt receipt.runId receipt.actionId work.database.curation = none)
    (run : work.database.curation.runs.any (·.runId == receipt.runId))
    (event : receipt.mutationEventId = some eventId) (there : work.database.memory.events.any (·.id == eventId)) :
    Gives now (insertReceipt receipt) work () { work with database := { work.database with
      curation := { work.database.curation with receipts := work.database.curation.receipts ++ [receipt] } } } := by
  have fresh : work.database.curation.receipts.any (isReceipt receipt.runId receipt.actionId) = false := by
    simpa [getReceipt] using absent
  refine givesStatement quiet ?_
  dsimp only
  rw [if_neg (by simp [fresh]),if_neg (by simp [run,event,there])]

theorem givesBody (quiet : now.fault = none) (calm : config.faultStage = none) {request p callback receipt}
    {start work stored : Work} (absent : getReceipt request.runId request.actionId start.database.curation = none)
    (applied : Gives now (applyAction env config request p callback) start receipt work)
    (inserted : Gives now (insertReceipt receipt) work () stored) :
    Gives now (body env config request p callback) start (.commit receipt) stored := by
  refine givesBind (givesSelect quiet _) ?_
  rw [absent]
  exact givesBind applied (givesBind inserted (givesBind (givesFailStage quiet calm "receipt_preparation" _) givesPure))

/- The adapter's calls around a transaction that commits. -/
theorem executeGiven {oracle : Oracle ActionError} {call : ToolCall} {tokens p receipt} {work : Work}
    (absent : getReceipt call.runId (actionId toolEnv call) database.curation = none)
    (expected : expectedTokens toolEnv database.memory (targetIds call) = .ok tokens)
    (prepared : prepare toolEnv.actions (requestOf toolEnv call tokens) = .ok p)
    (committed : transaction (body toolEnv.actions config (requestOf toolEnv call tokens) p (apply toolEnv call)) oracle
      ⟨database,p.targets,[],[]⟩ = (.ok receipt,work)) :
    executeCuratorMutation toolEnv config oracle call database database = (.ok receipt,work.database) := by
  have looked : fastPath toolEnv.actions (attemptOf toolEnv config oracle call tokens) p database = none := by
    rw [fastPath]
    exact congrArg _ absent
  simp only [executeCuratorMutation,absent,expected]
  rw [show (attemptOf toolEnv config oracle call tokens).request = requestOf toolEnv call tokens from rfl,prepared]
  dsimp only
  rw [looked]
  simp only [runTransaction,attemptOf,committed,Except.mapError]

/- Whatever else the database holds, the rewrite commits. -/
theorem rewriteCommits (quiet : now.fault = none) (plain : toolEnv.unicode.Plain) (calm : config.faultStage = none)
    (fine : Unremarkable title) (live : Live toolEnv.toEnv database.memory memoryId row)
    (opened : Open database runId (toolEnv.directActionId evidenceId) key) (fresh : Fresh now.uuid database.memory) :
    ∃ receipt after, executeCuratorMutation toolEnv config (fun _ => now)
        (rewriteCall memoryId title runId evidenceId key) database database = (.ok receipt,after) ∧
      selectRow memoryId after.memory = some (rewriting now (rewriteUpdate title) row) := by
  have named : Named toolEnv.actions memoryId := uuidNamed plain live.named
  obtain ⟨token,made⟩ := live.token
  obtain ⟨receipt,work,applied,⟨owned,acted,caused⟩,ledger,there,rewrote⟩ :=
    @givesApplyAction memoryId now toolEnv database title runId evidenceId key token row config quiet plain calm fine
      live made opened fresh
  obtain ⟨run,found,_⟩ := opened.run
  have owner : work.database.curation.runs.any (·.runId == receipt.runId) := by
    rw [ledger,owned]
    exact List.any_eq_true.mpr ⟨run,findSome found⟩
  have absent : getReceipt receipt.runId receipt.actionId work.database.curation = none := by
    rw [owned,acted,ledger]
    exact opened.unreceived
  have tokens : expectedTokens toolEnv database.memory (targetIds (rewriteCall memoryId title runId evidenceId key)) =
      .ok [(memoryId,token)] := by
    rw [rewriteTargets]
    exact rewriteTokens named live.found made
  have committed := givesTransaction quiet (givesBody quiet calm opened.unreceived applied
    (givesInsertReceipt quiet absent owner caused there))
  exact ⟨receipt,_,executeGiven opened.unreceived tokens (rewritePrepared named (tokenNonempty made)) committed,
    rewrote⟩

end

end McpMemory.Curation
