import McpMemory.Ingress.Postgres
import McpMemory.Ingress.Runs
import McpMemory.Lib.Mirrors
import McpMemory.Memory.ActionValues
import McpMemory.Memory.Documents

/-! The steps of the ingress transaction of PostgreSQL mirror those of SQLite, up to the callback
and what is recorded of it. Both read one clock, which gives the fresh ids as well. -/
namespace McpMemory.Ingress
open Memory Text Transaction

variable {env : Env} {config : Config} {now : Moment IngressError} {α β : Type}

/- Whatever the two stores can both raise. -/
def Shared (error : IngressError) : Prop := error ≠ Postgres.unknownBatch

def Shares (value : Except IngressError α) : Prop := ∀ error, value = .error error → Shared error

theorem sharedValue (message : String) : Shared (.valueError message) := fun same => IngressError.noConfusion same

theorem sharesValue (message : String) : Shares (.error (.valueError message) : Except IngressError α) :=
  oneError (sharedValue message)

theorem sharesBind {x : Except IngressError β} {next : β → Except IngressError α} (first : Shares x)
    (rest : ∀ b, Shares (next b)) : Shares (x >>= next) := by
  cases x with
  | error error => exact oneError (first error rfl)
  | ok b => exact rest b

theorem sharesMap {x : Except IngressError β} (f : β → α) (first : Shares x) : Shares (x.map f) := by
  cases x with
  | error error => exact oneError (first error rfl)
  | ok b => exact noError (f b)

theorem sharesKey (x : Except String α) : Shares (x.mapError duplicateKey) := by
  cases x with
  | error key => exact sharesValue _
  | ok a => exact noError a

theorem sharesIdentifier (value name : String) : Shares (identifier env value name) := by
  unfold identifier
  split
  · exact sharesValue _
  · exact noError _

theorem sharesIdentities (values : List String) : Shares (identities env values) := by
  induction values with
  | nil => exact noError []
  | cons value rest ih => exact sharesBind (sharesIdentifier _ _) fun _ => sharesBind ih fun _ => noError _

theorem sharesCanonicalIds (values : List String) : Shares (canonicalIds env values) := sharesMap _ (sharesIdentities values)

theorem sharesRequired (value : Option String) (name : String) : Shares (requiredText value name) := by
  unfold requiredText
  dsimp only
  split
  · exact sharesValue _
  · exact noError _

theorem sharesPrepareCreate (values : CreateValues) : Shares (prepareCreate env now values) := by
  refine sharesBind (sharesIdentifier _ _) fun _ => sharesBind (sharesRequired _ _) fun _ =>
    sharesBind (sharesRequired _ _) fun _ => ?_
  dsimp only
  split
  · exact sharesValue _
  · exact noError _

theorem sharesPrepareAppend (existing : MemoryRecord) (values : AppendValues) : Shares (prepareAppend env existing values) :=
  sharesBind (sharesRequired _ _) fun _ => noError _

theorem sharesToken (record : MemoryRecord) : Shares (Memory.token port env.toEnv record) := sharesKey _

theorem sharesTokens (records : Records) : Shares (tokens port env.toEnv records) := by
  induction records with
  | nil => exact noError []
  | cons record rest ih => exact sharesBind (sharesToken _) fun _ => sharesBind ih fun _ => noError _

theorem sharesSameTokens (previous current : Option MemoryRecord) : Shares (sameTokens port env.toEnv previous current) := by
  cases previous with
  | none => exact noError false
  | some previous => cases current with
    | none => exact noError false
    | some current => exact sharesBind (sharesToken _) fun _ => sharesBind (sharesToken _) fun _ => noError _

theorem sharesOptionally {make : β → Except IngressError α} (made : ∀ b, Shares (make b)) (value : Option β) :
    Shares (optionally make value) := by
  cases value with
  | none => exact noError none
  | some b => exact sharesMap _ (made b)

theorem coveragePresent (item : SourceCoverage) (evidence : Evidence) :
    ∃ stored, coverageFor item.entryId (insertCoverage item evidence) = some stored := by
  refine Option.isSome_iff_exists.mp (List.find?_isSome.mpr ?_)
  unfold insertCoverage
  split
  · rename_i there
    exact List.any_eq_true.mp there
  · exact ⟨item,List.mem_append_right _ (List.mem_singleton_self item),beq_self_eq_true _⟩

/- The steps of the transactions. -/

section
variable (quiet : now.fault = none) {before : Work}
include quiet

theorem stageSteady (stage : String) : Steady now (· = .injectedFailure stage) (failStage config stage) before := by
  refine steadyBind (steadyHook quiet) fun _ _ _ => ?_
  cases config.faultStage.map (replaceChar '-' '_') with
  | none => exact steadyPure ()
  | some fault =>
    dsimp only
    split
    · exact steadyRaise rfl
    · exact steadyPure ()

theorem steadyFailStage (stage : String) : Steady now Shared (failStage config stage) before :=
  steadyMono (stageSteady quiet stage) fun _ injected => injected ▸ fun same => IngressError.noConfusion same

theorem steadyOnTables (sql : Statement α) : Steady now Shared (onTables port sql) before :=
  steadyStatement quiet fun error refused => by
    split at refused <;> cases refused
    exact fun same => IngressError.noConfusion same

theorem steadyGetMemory (memoryId : String) : Steady now Shared (getMemory env memoryId) before :=
  steadyBind (steadyLift (sharesIdentifier _ _)) fun _ _ _ => steadyOnTables quiet _

theorem steadyReplaceWorkspaces (memoryId : String) (workspaceIds : List String) :
    Steady now Shared (replaceWorkspaces port memoryId workspaceIds) before :=
  steadyBind (steadyOnTables quiet _) fun _ _ _ => steadyEach fun _ _ _ => steadyOnTables quiet _

theorem steadyRepairIntents (modelName : String) (previous current : Records) :
    Steady now Shared (writeRepairIntents port env.toEnv modelName previous current) before := by
  refine steadyBind steadyObserve fun _ _ _ => steadyEach fun item _ _ =>
    steadyBind (steadyLift (sharesSameTokens _ _)) fun same _ _ => ?_
  cases same with
  | true => exact steadyPure ()
  | false => exact steadyBind steadyObserve fun _ _ _ => steadyOnTables quiet _

theorem steadyRecordRevision (eventId : String) (previous current : Records) (memoryId : String) :
    Steady now Shared (writeRecordRevision port env.toEnv Canonical.compact eventId previous current memoryId) before := by
  have text (record : MemoryRecord) : Shares (snapshotText port env.toEnv Canonical.compact record) := sharesKey _
  refine steadyBind (steadyLift (sharesSameTokens _ _)) fun same _ _ => ?_
  cases same with
  | true => exact steadyPure ()
  | false =>
    exact steadyBind (steadyLift (sharesOptionally text _)) fun _ _ _ =>
      steadyBind (steadyLift (sharesOptionally text _)) fun _ _ _ =>
      steadyBind (steadyLift (sharesOptionally sharesToken _)) fun _ _ _ =>
      steadyBind (steadyLift (sharesOptionally sharesToken _)) fun _ _ _ => steadyOnTables quiet _

theorem steadyHistory (eventId actionId operation : String) (previous current : Records) :
    Steady now Shared (writeHistory env eventId actionId operation previous current) before :=
  steadyBind steadyObserve fun _ _ _ => steadyBind (steadyOnTables quiet _) fun _ _ _ =>
    steadyBind (steadyLift (sharesCanonicalIds _)) fun _ _ _ => steadyEach fun _ _ _ => steadyRecordRevision quiet _ _ _ _

theorem steadyRecord (p : Prepared) (createdAt : String) (previous : Records) (result : Option MutationResult) :
    Steady now Shared (Postgres.recordMutation env config p createdAt previous result) before := by
  cases result with
  | none => exact steadyRaise fun same => IngressError.noConfusion same
  | some result =>
    unfold Postgres.recordMutation
    dsimp only
    split
    · exact steadyRaise (sharedValue _)
    · exact steadyBind (steadyFailStage quiet _) fun _ _ _ => steadyBind (steadyInspect _) fun _ _ _ =>
        steadyBind (steadyLift (sharesCanonicalIds _)) fun _ _ _ => steadyBind (steadyOnTables quiet _) fun _ _ _ =>
        steadyBind steadyObserve fun _ _ _ => steadyBind (steadyRepairIntents quiet _ _ _) fun _ _ _ =>
        steadyBind (steadyFailStage quiet _) fun _ _ _ => steadyBind (steadyHistory quiet _ _ _ _ _) fun _ _ _ =>
        steadyBind (steadyFailStage quiet _) fun _ _ _ => steadyBind steadyObserve fun _ _ _ =>
        steadyBind (steadyLift (sharesTokens _)) fun _ _ _ => steadyBind (steadyLift (sharesTokens _)) fun _ _ _ =>
        steadyBind (steadyFailStage quiet _) fun _ _ _ => steadyPure _

/- The row is there, so neither misses it. -/
theorem mirrorsAssign (item : SourceCoverage) :
    Mirrors now Shared id (Postgres.assignCoverage item) (assignCoverage item) before := by
  refine mirrorsThen (steadyMirrors (steadyWrite quiet _)) fun _ state written =>
    mirrorsThen (steadyMirrors (steadySelect quiet _)) fun stored _ selected => ?_
  have wrote := (endsUnique (endsWrite quiet _) written).2
  have found := (endsUnique (endsSelect quiet _) selected).1
  obtain ⟨row,present⟩ := coveragePresent item before.database.ingress
  have value : stored = some row := (Except.ok.inj found).symm.trans
    ((congrArg (fun work : Work => coverageFor item.entryId work.database.ingress) wrote).symm.trans present)
  subst value
  dsimp only
  split
  · exact mirrorsRaise fun same => IngressError.noConfusion same
  · exact mirrorsPure ()

theorem mirrorsTables {sql other : Statement α} (same : sql before.database.memory = other before.database.memory) :
    Mirrors now Shared id (onTables port sql) (onTables port other) before := by
  refine mirrorsStatement quiet ?_ fun error refused => ?_
  · rw [show sql (port.tables before) = other (port.tables before) from same]
  · split at refused <;> cases refused
    exact fun same => IngressError.noConfusion same

end

variable {memoryId : String} {before after : Work} {start : Page → Prop}

theorem tablesEnded {sql : Statement α} {a} (ends : Ends now (onTables port sql) before (.ok a) after) :
    ∃ changed, sql before.database.memory = .ok (a,changed) ∧ after = port.put changed before := by
  obtain ⟨later,ran⟩ := ends 0
  exact onTablesOk ran

theorem turned {x : Action α} {finish : α → Page → Prop} {a} (turns : Turns port memoryId start x finish)
    (ends : Ends now x before (.ok a) after) (labelled : Labelled before.database.memory)
    (begun : start (page before.database.memory memoryId)) :
    Labelled after.database.memory ∧ finish a (page after.database.memory memoryId) := by
  obtain ⟨later,ran⟩ := ends 0
  obtain ⟨kept,reached,_⟩ := turns _ _ _ _ ran labelled begun
  exact ⟨kept,reached⟩

theorem lawfulPort (changed : Tables) (work : Work) : port.tables (port.put changed work) = changed := rfl

theorem bareTag {t : Tables} {tag : Tag} (there : tag ∈ t.tags) (bare : tag.name ∉ (page t memoryId).tags) :
    t.memoryTags.contains (memoryId,tag.id) = false := by
  refine Bool.eq_false_iff.mpr fun worn => bare (List.mem_filterMap.mpr ⟨tag,there,?_⟩)
  rw [if_pos worn]

section
variable (quiet : now.fault = none)
include quiet

/- A name that the memory does not have yet. -/
theorem mirrorsTag {name : String} (labelled : Labelled before.database.memory)
    (bare : name ∉ (page before.database.memory memoryId).tags) :
    Mirrors now Shared id (Postgres.mapTag memoryId name) (insertTagged port memoryId name) before := by
  refine mirrorsThen (steadyMirrors (steadyOnTables quiet _)) fun _ state inserted =>
    mirrorsThen (steadyMirrors (steadyOnTables quiet _)) fun found next selected => ?_
  obtain ⟨changed,ran,rfl⟩ := tablesEnded inserted
  obtain ⟨_,looked,same⟩ := tablesEnded selected
  obtain ⟨kept,pages,tagId,there⟩ := insertedTag labelled ran
  have value : selectTagId name changed = found := congrArg (·.1) (Except.ok.inj looked)
  have still : changed = _ := congrArg (·.2) (Except.ok.inj looked)
  rw [there] at value
  subst value still
  obtain ⟨tag,present,rfl⟩ := Option.map_eq_some_iff.mp there
  obtain ⟨listed,named⟩ := Table.findSome present
  refine mirrorsTables quiet ?_
  have fresh := @bareTag memoryId changed tag listed (by rw [beq_iff_eq.mp named,congrFun pages]; exact bare)
  rw [show next.database.memory = changed from congrArg (·.database.memory) same]
  rw [McpMemory.Postgres.insertMemoryTagOnce,fresh]
  rfl

theorem mirrorsEachTag {names : List String} (apart : names.Nodup) (labelled : Labelled before.database.memory)
    (bare : ∀ name ∈ names, name ∉ (page before.database.memory memoryId).tags) :
    Mirrors now Shared id (each (Postgres.mapTag memoryId) names) (each (insertTagged port memoryId) names) before := by
  induction names generalizing before with
  | nil => exact steadyMirrors (steadyPure ())
  | cons name rest ih =>
    obtain ⟨missing,apart⟩ := List.nodup_cons.mp apart
    refine mirrorsThen (mirrorsTag quiet labelled (bare name List.mem_cons_self)) fun _ state ends => ?_
    obtain ⟨kept,tags,named,here⟩ := turned (turnsGiveTag lawfulPort fun _ => rfl) ends labelled rfl
    refine ih apart kept fun other member worn => ?_
    rw [show (page state.database.memory memoryId).tags = tags from congrArg (·.tags) here] at worn
    rcases List.mem_cons.mp (named.subset worn) with rfl | old
    · exact missing member
    · exact bare other (List.mem_cons_of_mem _ member) old

theorem mirrorsReplaceMappings {tags : List String} (apart : tags.Nodup) (labelled : Labelled before.database.memory)
    (workspaceIds : List String) : Mirrors now Shared id (Postgres.replaceMappings memoryId workspaceIds tags)
      (replaceMappings memoryId workspaceIds tags) before := by
  refine mirrorsThen (steadyMirrors (steadyReplaceWorkspaces quiet _ _)) fun _ state replaced =>
    mirrorsThen (steadyMirrors (steadyOnTables quiet _)) fun _ next deleted => ?_
  have keeps : Turns port memoryId (fun _ => True) (replaceWorkspaces port memoryId workspaceIds) fun _ _ => True :=
    turnsReplaceWorkspaces lawfulPort _
  have kept := (turned keeps replaced labelled trivial).1
  obtain ⟨kept,bare⟩ := turned (turnsDeleteMemoryTags lawfulPort) deleted kept rfl
  refine mirrorsEachTag quiet apart kept fun name _ worn => ?_
  rw [show (page next.database.memory memoryId).tags = [] from congrArg (·.tags) bare] at worn
  exact absurd worn List.not_mem_nil

omit quiet in
theorem rowsHas {t : Tables} (there : (page t memoryId).rows ≠ []) : t.has memoryId = true := by
  obtain ⟨row,member⟩ := List.exists_mem_of_ne_nil _ there
  obtain ⟨listed,here⟩ := List.mem_filter.mp member
  exact List.any_eq_true.mpr ⟨row,listed,here⟩

omit quiet in
theorem rowsRecord {t : Tables} : (page t memoryId).rows ≠ [] ↔ ∃ record, recordById memoryId t = some record := by
  unfold recordById selectRow page
  rw [← List.head?_filter]
  cases t.memories.filter (·.id == memoryId) <;> simp

theorem mirrorsReplaceDocument (there : (page before.database.memory memoryId).rows ≠ []) (title summary content : String)
    (tags : List String) : Mirrors now Shared id (Postgres.replaceSearchDocument memoryId title summary content tags)
      (replaceFts port memoryId title summary content tags) before := by
  have has : before.database.memory.has memoryId = true := rowsHas there
  have taken (document : SearchDocument) (named : document.memoryId = memoryId) :
      Postgres.upsertDocument document before.database.memory = .ok ((),{ before.database.memory with
        searchDocuments := before.database.memory.searchDocuments.filter (·.memoryId != document.memoryId) ++ [document] }) := by
    rw [Postgres.upsertDocument,named,has]
    rfl
  have first : Ends now (onTables port (deleteSearchDocuments memoryId)) before (.ok ()) _ := givesOnTables quiet rfl
  exact mirrorsEnds (givesOnTables quiet (taken _ rfl)) (endsBind first (givesOnTables quiet rfl)) (noError ())

theorem mirrorsReadBack (canonical : identifier env memoryId "memory_id" = .ok memoryId)
    (there : (page before.database.memory memoryId).rows ≠ []) :
    Mirrors now Shared id (Postgres.readBack env memoryId) (getMemory env memoryId) before := by
  obtain ⟨record,found⟩ := rowsRecord.mp there
  have ends : Ends now (getMemory env memoryId) before (.ok (some record)) before := by
    rw [← found]
    exact endsBind (fun moment => ⟨moment,by rw [canonical]; rfl⟩) (givesOnTables quiet rfl)
  exact mirrorsEnds (endsBind ends fun moment => ⟨moment,rfl⟩) ends (noError _)

theorem mirrorsWritten {tags : List String} (apart : tags.Nodup) (canonical : identifier env memoryId "memory_id" = .ok memoryId)
    (labelled : Labelled before.database.memory) (there : (page before.database.memory memoryId).rows ≠ [])
    (workspaceIds : List String) (title summary content : String) :
    Mirrors now Shared id (do
      Postgres.replaceMappings memoryId workspaceIds tags
      Postgres.replaceSearchDocument memoryId title summary content tags
      touch memoryId
      Postgres.readBack env memoryId) (do
      replaceMappings memoryId workspaceIds tags
      replaceFts port memoryId title summary content tags
      touch memoryId
      getMemory env memoryId) before := by
  have mapped (p : Page) : Turns port memoryId (· = p) (replaceMappings memoryId workspaceIds tags) fun _ q =>
      q.rows = p.rows := turnsBind (turnsReplaceWorkspaces lawfulPort _) fun _ =>
    turnsMono (turnsReplaceTags lawfulPort _) fun _ q reached => by obtain ⟨_,_,rfl⟩ := reached; rfl
  refine mirrorsThen (mirrorsReplaceMappings quiet apart labelled workspaceIds) fun _ state replaced => ?_
  obtain ⟨kept,rows⟩ := turned (mapped _) replaced labelled rfl
  have there : (page state.database.memory memoryId).rows ≠ [] := rows ▸ there
  refine mirrorsThen (mirrorsReplaceDocument quiet there title summary content tags) fun _ next described => ?_
  obtain ⟨kept,rows⟩ := turned (turnsReplaceFts lawfulPort _ _ _ _) described kept rfl
  have there : (page next.database.memory memoryId).rows ≠ [] := (congrArg (·.rows) rows).symm ▸ there
  refine mirrorsThen (steadyMirrors (steadyAdjust _)) fun _ last touched => ?_
  have touching : Turns port memoryId (·.rows ≠ []) (touch memoryId) fun _ => (·.rows ≠ []) := turnsKeeps (keepsAdjust fun _ => rfl)
  exact mirrorsReadBack quiet canonical (turned touching touched kept there).2

omit quiet in
theorem identifierCanonical {value name result : String} (ok : identifier env value name = .ok result) :
    identifier env result name = .ok result := by
  unfold identifier at ok ⊢
  split at ok
  · cases ok
  · rename_i full
    cases ok
    rw [normalizedIdem,if_neg full]

omit quiet in
theorem prepareCreateSource {values : CreateValues} {prepared : PreparedCreate}
    (ok : prepareCreate env now values = .ok prepared) :
    identifier env prepared.memoryId "memory_id" = .ok prepared.memoryId ∧ prepared.tags.Nodup := by
  obtain ⟨memoryId,named,ok⟩ := checkedOk.mp ok
  obtain ⟨title,_,ok⟩ := checkedOk.mp ok
  obtain ⟨content,_,ok⟩ := checkedOk.mp ok
  dsimp only at ok
  split at ok
  · cases ok
  · rw [← Except.ok.inj ok]
    exact ⟨identifierCanonical named,sortedSetNodup _⟩

theorem mirrorsAppend (labelled : Labelled before.database.memory) (values : AppendValues) :
    Mirrors now Shared id (Postgres.appendMemory env values) (appendMemory env values) before := by
  refine mirrorsThen (mirrorsLift (sharesIdentifier _ _)) fun target state lifted => ?_
  obtain ⟨named,rfl⟩ := liftEnds lifted
  have canonical := identifierCanonical named
  have read : Ends now (getMemory env target) before (.ok (recordById target before.database.memory)) before :=
    endsBind (fun moment => ⟨moment,by rw [canonical]; rfl⟩) (givesOnTables quiet rfl)
  refine mirrorsThen (steadyMirrors (steadyGetMemory quiet _)) fun existing state looked => ?_
  obtain ⟨found,rfl⟩ := endsUnique read looked
  cases existing with
  | none => exact mirrorsRaise (sharedValue _)
  | some existing =>
    have there := rowsRecord.mpr ⟨existing,Except.ok.inj found⟩
    refine mirrorsThen (mirrorsLift (sharesPrepareAppend _ _)) fun prepared state lifted => ?_
    obtain ⟨made,rfl⟩ := liftEnds lifted
    have apart : prepared.tags.Nodup := by
      obtain ⟨_,_,same⟩ := checkedOk.mp made
      rw [← Except.ok.inj same]
      exact sortedSetNodup _
    refine mirrorsThen mirrorsObserve fun moment state observed => ?_
    obtain ⟨_,rfl⟩ := observeEnds observed
    refine mirrorsThen (steadyMirrors (steadyOnTables quiet _)) fun _ next updated => ?_
    obtain ⟨kept,rows⟩ := turned (turnsUpdateMemory lawfulPort fun _ => by rfl) updated labelled rfl
    refine mirrorsWritten quiet apart canonical kept ?_ _ _ _ _
    rw [show (page next.database.memory target).rows = _ from congrArg (·.rows) rows]
    simpa using there

end

/- PostgreSQL's work, of which SQLite sees the part that the two hold in common. -/

abbrev seen (work : Postgres.Work) : Work := work.shared

theorem mirrorsCommon {x y : Action α} {before : Postgres.Work} (mirrors : Mirrors now Shared id x y before.shared) :
    Mirrors now Shared seen (Postgres.common x) y before := mirrorsZoom (fun _ _ => rfl) mirrors

theorem commonKept {x : Action α} {before : Postgres.Work} {moment a state later}
    (ran : Postgres.common x (fun _ => now) ⟨before,moment⟩ = (.ok a,⟨state,later⟩)) :
    state.memoryRefSeq = before.memoryRefSeq ∧ state.batches = before.batches := by
  have same := congrArg (·.2.data) ran
  dsimp only [Postgres.common,zoom] at same
  rw [← same]
  exact ⟨rfl,rfl⟩

/- The tags are as the schema holds them, and the sequence stands where SQLite counts on. -/
structure Twins (before : Postgres.Work) : Prop where
  labelled : Labelled before.shared.database.memory
  sequence : before.memoryRefSeq = nextMemoryRef before.shared.database.memory

section
variable (quiet : now.fault = none) {before : Postgres.Work}
include quiet

theorem mirrorsNextval (twins : Twins before) :
    Mirrors now Shared seen Postgres.nextval (onTables port (read nextMemoryRef)) before :=
  ⟨.ok (nextMemoryRef before.shared.database.memory),before.shared,givesOnTables quiet rfl,noError _,fun moment =>
    ⟨{ before with memoryRefSeq := before.memoryRefSeq + 1 },moment,rfl,by rw [← twins.sequence]; rfl⟩⟩

theorem mirrorsInsertCreated {before : Work} (labelled : Labelled before.database.memory) {prepared : PreparedCreate}
    (canonical : identifier env prepared.memoryId "memory_id" = .ok prepared.memoryId) (apart : prepared.tags.Nodup)
    (memoryRef : Int) : Mirrors now Shared id (Postgres.insertCreated env prepared memoryRef) (do
      onTables port (insertMemory ⟨prepared.memoryId,some memoryRef,prepared.title,prepared.content,
        some prepared.summary,prepared.memoryType,prepared.status,prepared.createdAt,prepared.createdAt,
        none,prepared.metadata⟩)
      replaceMappings prepared.memoryId prepared.workspaceIds prepared.tags
      replaceFts port prepared.memoryId prepared.title prepared.summary prepared.content prepared.tags
      touch prepared.memoryId
      getMemory env prepared.memoryId) before := by
  refine mirrorsThen (steadyMirrors (steadyOnTables quiet _)) fun _ state inserted => ?_
  obtain ⟨kept,_,rows⟩ := turned (turnsInsertMemory lawfulPort rfl) inserted labelled rfl
  refine mirrorsWritten quiet apart canonical kept ?_ _ _ _ _
  rw [show (page state.database.memory prepared.memoryId).rows = _ from congrArg (·.rows) rows]
  exact List.cons_ne_nil _ _

theorem mirrorsCreate (twins : Twins before) (values : CreateValues) :
    Mirrors now Shared seen (Postgres.createMemory env values) (createMemory env values) before := by
  refine mirrorsBind mirrorsObserve fun moment state reached observed => ?_
  obtain ⟨_,_,ran⟩ := reached
  obtain ⟨rfl,same⟩ := observeOk.mp ran
  obtain rfl : before = state := congrArg (·.data) same
  refine mirrorsBind (mirrorsLift (sharesPrepareCreate _)) fun prepared state reached lifted => ?_
  obtain ⟨_,_,ran⟩ := reached
  obtain ⟨made,same⟩ := liftOk.mp ran
  obtain rfl : before = state := congrArg (·.data) same
  obtain ⟨canonical,apart⟩ := prepareCreateSource made
  refine mirrorsBind (mirrorsNextval quiet twins) fun memoryRef state _ counted => mirrorsCommon ?_
  have same : before.shared = state.shared := (endsUnique (givesOnTables quiet rfl) counted).2
  exact mirrorsInsertCreated quiet (same ▸ twins.labelled) canonical apart memoryRef

variable {senv : ServiceEnv}

/- The callbacks of the service let every exception pass. -/
theorem mirrorsApplyAppend (twins : Twins before) (arguments : AppendArguments) : Mirrors now Shared seen
    ((applyAppend senv arguments).play (Postgres.perform senv.store))
    ((applyAppend senv arguments).play (perform senv.store)) before := by
  simp only [applyAppend,playBind,playAsk]
  refine mirrorsBind (mirrorsCommon (steadyMirrors (steadyGetMemory quiet _))) fun record state _ looked => ?_
  obtain ⟨_,ran⟩ := looked 0
  have kept : before.shared.database.memory = state.shared.database.memory :=
    ((keepsBind (keepsLift _) fun _ => keepsRead lawfulPort _ : Keeps port.tables (getMemory _ _)).ok ran).symm
  cases record with
  | none => exact mirrorsRaise fun same => IngressError.noConfusion same
  | some record =>
    unfold appendTo
    dsimp only
    split
    · exact mirrorsRaise fun same => IngressError.noConfusion same
    · split
      · exact mirrorsRaise fun same => IngressError.noConfusion same
      · simp only [playBind,playAsk]
        refine mirrorsBind (mirrorsCommon (mirrorsAppend quiet (kept ▸ twins.labelled) _)) fun updated _ _ _ => ?_
        cases updated with
        | none => exact mirrorsRaise fun same => absurd (IngressError.other.inj same) (by decide)
        | some updated => exact mirrorsPure _

theorem mirrorsApplyCreate (twins : Twins before) (arguments : CreateArguments) : Mirrors now Shared seen
    ((applyCreate senv arguments).play (Postgres.perform senv.store))
    ((applyCreate senv arguments).play (perform senv.store)) before := by
  simp only [applyCreate,playBind,playAsk]
  refine mirrorsBind (mirrorsCreate quiet twins _) fun record _ _ _ => ?_
  cases record with
  | none => exact mirrorsRaise fun same => absurd (IngressError.other.inj same) (by decide)
  | some record => exact mirrorsPure _

theorem mirrorsCallback (twins : Twins before) (call : IngestCall) : Mirrors now Shared seen
    ((call.callback senv).play (Postgres.perform senv.store)) ((call.callback senv).play (perform senv.store)) before := by
  cases call with
  | append arguments => exact mirrorsApplyAppend quiet twins arguments
  | create arguments => exact mirrorsApplyCreate quiet twins arguments

theorem mirrorsMutation (twins : Twins before) (call : IngestCall) (p : Prepared) (createdAt : String) :
    Mirrors now Shared seen (Postgres.applyMutation senv.store config p (call.callback senv) createdAt)
      (applyMutation senv.store config p (call.callback senv) createdAt) before := by
  show Mirrors now Shared seen _ (failStage config "action_reserved" >>= fun _ =>
    onTables port (read (readRecords p.identity.targetIds)) >>= fun previous =>
    (call.callback senv).play (perform senv.store) >>= fun result =>
    Postgres.recordMutation senv.store config p createdAt previous result) before
  refine mirrorsBind (mirrorsCommon (steadyMirrors (steadyFailStage quiet _))) fun _ state reached staged =>
    mirrorsBind (mirrorsCommon (steadyMirrors (steadyOnTables quiet _))) fun previous next later looked =>
    mirrorsBind (mirrorsCallback quiet ?_ call) fun result _ _ _ => mirrorsCommon (steadyMirrors (steadyRecord quiet _ _ _ _))
  obtain ⟨_,_,ran⟩ := reached
  obtain ⟨_,_,rerun⟩ := later
  obtain ⟨_,first⟩ := staged 0
  obtain ⟨_,second⟩ := looked 0
  have unstaged : state.shared.database.memory = before.shared.database.memory :=
    (keepsFailStage config "action_reserved" : Keeps port.tables _).ok first
  have kept : before.shared.database.memory = next.shared.database.memory :=
    (((keepsRead lawfulPort _).ok second : next.shared.database.memory = _).trans unstaged).symm
  refine ⟨kept ▸ twins.labelled,?_⟩
  rw [← kept,(commonKept rerun).1,(commonKept ran).1]
  exact twins.sequence

end

end McpMemory.Ingress
