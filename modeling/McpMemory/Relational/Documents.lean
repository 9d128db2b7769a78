import McpMemory.Memory.Documents
import McpMemory.Relational.Writes

/-! Every writer of the SQLite database leaves each memory in step with its search document. -/
namespace McpMemory
open Memory Transaction Text

namespace Curation

section
variable {env : Env} {config : Config}

theorem keepsAccess (memoryId : String) : Keeps port.tables (requireAccess env memoryId) := by
  refine keepsBind (keepsInspect _) fun held => ?_
  cases held with
  | true => exact keepsPure _
  | false =>
    refine keepsBind (keepsRead lawful _) fun there => ?_
    cases there with
    | true => exact keepsRaise _
    | false => exact keepsPure _

theorem keepsEndpoint (memoryId : String) : Keeps port.tables (requireEndpoint env memoryId) := by
  unfold requireEndpoint
  dsimp only
  split
  · exact keepsPure _
  · refine keepsBind (keepsInspect _) fun held => ?_
    cases held with
    | true => exact keepsPure _
    | false =>
      refine keepsBind (keepsRead lawful _) fun there => ?_
      cases there <;> exact keepsRaise _

theorem keepsFound (memoryId : String) : Keeps port.tables (getMemory env memoryId) :=
  keepsBind (keepsAccess memoryId) fun _ => keepsRead lawful _

theorem keepsTouched (memoryIds : List String) : Keeps port.tables (touch memoryIds) := keepsAdjust fun _ => rfl

theorem keepsStage (stage : String) : Keeps port.tables (failStage config stage) := by
  refine keepsBind keepsHook fun _ => ?_
  cases config.faultStage.map (replaceChar '-' '_') with
  | none => exact keepsPure _
  | some fault =>
    dsimp only
    split
    · exact keepsRaise _
    · exact keepsPure _

theorem turnsAccess {other : String} {start : Page → Prop} (memoryId : String) :
    Turns port other start (requireAccess env memoryId) fun named p => start p ∧ named = canonicalId env memoryId := by
  intro oracle session named after run labelled begun
  obtain ⟨same,read⟩ := (beginsAccess env memoryId).kept run rfl
  rw [show port.tables after.data = port.tables session.data from same]
  exact ⟨labelled,⟨begun,read⟩,fun _ _ => rfl⟩

theorem preparedSummary {now values prepared} (given : prepareMemoryCreate env now values = .ok prepared) :
    prepared.row.summary = some prepared.summary := by
  unfold prepareMemoryCreate at given
  dsimp only at given
  repeat' split at given
  all_goals first | cases given; done | cases given; rfl

/- The memory that is found is that of the page. -/
theorem turnsGetMemory {memoryId other p} (named : canonicalId env memoryId = other) :
    Turns port other (· = p) (getMemory env memoryId) fun record q =>
      q = p ∧ ∀ found, record = some found → ∃ row, p.rows.head? = some row := by
  subst named
  intro oracle session record after run labelled begun
  obtain ⟨same,read⟩ := (beginsGetMemory env memoryId).kept run rfl
  rw [show port.tables after.data = port.tables session.data from same]
  refine ⟨labelled,⟨begun,fun found there => ?_⟩,fun _ _ => rfl⟩
  obtain ⟨record,here,_⟩ := Option.map_eq_some_iff.mp (read.symm.trans there)
  exact ⟨_,begun ▸ (pageRecord here).1⟩

theorem turnsUpdateMemory (memoryId : String) (changes : UpdateValues) :
    Turns port (canonicalId env memoryId) Synced (updateMemory env config memoryId changes) fun _ => Synced := by
  refine turnsBind (turnsAccess memoryId) fun named => turnsFrom fun p begun => ?_
  obtain ⟨synced,rfl⟩ := begun
  refine turnsBind (turnsGetMemory (canonicalIdem env memoryId)) fun found => ?_
  cases found with
  | none => exact turnsRaise
  | some existing =>
    refine turnsFrom fun q begun => ?_
    obtain ⟨rfl,there⟩ := begun
    obtain ⟨row,first⟩ := there existing rfl
    have rows := syncedRow synced first
    refine turnsBind turnsLift fun prepared => turnsBind (turnsKeeps keepsObserve) fun now => turnsFrom fun q begun => ?_
    obtain ⟨rfl,_⟩ := begun
    refine turnsBind (Memory.turnsUpdateMemory lawful fun _ => rfl) fun _ =>
      turnsBind (turnsReplaceWorkspaces lawful _) fun _ => turnsFrom fun q begun =>
      turnsBind (turnsReplaceTags lawful _) fun _ => turnsBind (turnsKeeps (keepsTouched _)) fun _ =>
      turnsBind (turnsKeeps (keepsStage _)) fun _ => turnsFrom fun last reached =>
      turnsBind (turnsReplaceFts lawful _ _ _ _) fun _ => turnsBind (turnsKeeps (keepsStage _)) fun _ =>
      turnsMono (turnsKeeps (keepsFound _)) fun _ ending ended => ?_
    obtain ⟨tags,named,rfl⟩ := reached
    subst begun ended
    simp only [rows,List.map_cons,List.map_nil]
    exact .described ⟨rfl,rfl,rfl,_,named.symm,rfl⟩

theorem indexesCreateMemory (values : CreateValues) : Indexes port (createMemory env config values) := by
  refine indexesBind (indexesKeeps keepsObserve) fun now => indexesGiven fun prepared given =>
    indexesBind (indexesKeeps (keepsRead lawful _)) fun taken => ?_
  cases taken with
  | true => exact indexesRaise
  | false =>
    have summary := preparedSummary given
    refine indexesBind (indexesKeeps (keepsRead lawful _)) fun nextRef =>
      @indexesTurns prepared.row.id _ _ _ _ _ (turnsFrom fun p synced => ?_)
    refine turnsBind (turnsInsertMemory lawful rfl) fun _ => turnsFrom fun q begun =>
      turnsBind (turnsReplaceWorkspaces lawful _) fun _ => turnsBind (turnsReplaceTags lawful _) fun _ =>
      turnsBind (turnsKeeps (keepsTouched _)) fun _ => turnsBind (turnsKeeps (keepsAdjust fun _ => rfl)) fun _ =>
      turnsBind (turnsKeeps (keepsStage _)) fun _ => turnsFrom fun last reached =>
      turnsBind (turnsReplaceFts lawful _ _ _ _) fun _ => turnsBind (turnsKeeps (keepsStage _)) fun _ =>
      turnsBind (turnsKeeps (keepsFound _)) fun found => ?_
    cases found with
    | none => exact turnsRaise
    | some record =>
      refine turnsPure fun ending ended => ?_
      obtain ⟨tags,named,rfl⟩ := reached
      obtain ⟨_,rfl⟩ := begun
      subst ended
      exact .described ⟨rfl,by rw [summary]; rfl,rfl,_,named.symm,rfl⟩

theorem turnsDeleteMemory (memoryId : String) :
    Turns port (canonicalId env memoryId) Synced (deleteMemory env config memoryId) fun _ => Synced := by
  refine turnsBind (turnsAccess memoryId) fun named => turnsFrom fun p begun => ?_
  obtain ⟨synced,rfl⟩ := begun
  refine turnsBind (turnsKeeps (keepsFound _)) fun found => ?_
  cases found with
  | none => exact turnsRaise
  | some existing =>
    refine turnsBind (turnsDeleteDocuments lawful) fun _ => turnsFrom fun q begun =>
      turnsBind (Memory.turnsDeleteMemory lawful) fun _ => turnsBind (turnsKeeps (keepsTouched _)) fun _ =>
      turnsBind (turnsKeeps (keepsStage _)) fun _ => turnsPure fun last ended => ?_
    subst begun ended
    exact .absent []

theorem upsertLinkBeside {link : MemoryLink} {t u after} (ran : upsertLink link t = .ok (u,after)) :
    ∃ links, after = { t with links := links } := by
  unfold upsertLink at ran
  dsimp only at ran
  repeat' split at ran
  all_goals first | cases ran; done | cases ran; exact ⟨_,rfl⟩

theorem indexesAddLink (sourceId targetId linkType context : String) :
    Indexes port (addLink env config sourceId targetId linkType context) := by
  refine indexesBind (indexesKeeps (keepsAccess _)) fun source => indexesBind (indexesKeeps (keepsEndpoint _)) fun target =>
    indexesBind (indexesKeeps (keepsLift _)) fun normalized => ?_
  refine indexesBind (indexesLinks lawful fun _ _ _ => upsertLinkBeside) fun _ => ?_
  exact indexesKeeps (keepsBind (keepsTouched _) fun _ => keepsBind (keepsStage _) fun _ => keepsPure _)

theorem indexesRemoveLink (sourceId targetId linkType : String) :
    Indexes port (removeLink env config sourceId targetId linkType) := by
  refine indexesBind (indexesKeeps (keepsAccess _)) fun source => indexesBind (indexesKeeps (keepsEndpoint _)) fun target =>
    indexesBind (indexesKeeps (keepsLift _)) fun normalized => ?_
  refine indexesBind (indexesLinks lawful fun _ _ _ ran => by cases ran; exact ⟨_,rfl⟩) fun _ => ?_
  exact indexesKeeps (keepsBind (keepsTouched _) fun _ => keepsBind (keepsStage _) fun _ => keepsPure _)

theorem indexesPerform (command : Command) : Indexes port (perform env config command) := by
  cases command with
  | getMemory memoryId => exact indexesKeeps (keepsFound memoryId)
  | getLinks memoryId incoming linkType =>
    exact indexesKeeps (keepsBind (keepsAccess _) fun _ => keepsBind (keepsLift _) fun _ => keepsRead lawful _)
  | getProtections memoryId => exact indexesKeeps (keepsBind (keepsAccess _) fun _ => keepsSelect _)
  | updateMemory memoryId changes => exact indexesTurns (turnsUpdateMemory memoryId changes)
  | createMemory values => exact indexesCreateMemory values
  | deleteMemory memoryId => exact indexesTurns (turnsDeleteMemory memoryId)
  | addLink sourceId targetId linkType context => exact indexesAddLink sourceId targetId linkType context
  | removeLink sourceId targetId linkType => exact indexesRemoveLink sourceId targetId linkType
  | setLineage memoryId lineage =>
    refine indexesBind (indexesKeeps (keepsFound memoryId)) fun found => ?_
    cases found with
    | none => exact indexesRaise
    | some record => exact indexesTurns (turnsUpdateMemory memoryId _)

end

end Curation

namespace Ingress

section
variable {env : Env}

theorem keepsFound (memoryId : String) : Keeps port.tables (getMemory env memoryId) :=
  keepsBind (keepsLift _) fun _ => keepsRead lawful _

theorem keepsTouched (memoryId : String) : Keeps port.tables (touch memoryId) := keepsAdjust fun _ => rfl

theorem turnsReplaceMappings {memoryId p} (workspaceIds tags : List String) : Turns port memoryId (· = p)
    (replaceMappings memoryId workspaceIds tags) fun _ q => ∃ names, names.Perm tags ∧ q = { p with tags := names } :=
  turnsBind (turnsReplaceWorkspaces lawful _) fun _ => turnsReplaceTags lawful _

theorem indexesCreateMemory (values : CreateValues) : Indexes port (createMemory env values) := by
  refine indexesBind (indexesKeeps keepsObserve) fun now => indexesBind (indexesKeeps (keepsLift _)) fun prepared =>
    indexesBind (indexesKeeps (keepsRead lawful _)) fun nextRef =>
    @indexesTurns prepared.memoryId _ _ _ _ _ (turnsFrom fun p synced => ?_)
  refine turnsBind (turnsInsertMemory lawful rfl) fun _ => turnsFrom fun q begun =>
    turnsBind (turnsReplaceMappings _ _) fun _ => turnsFrom fun last reached =>
    turnsBind (turnsReplaceFts lawful _ _ _ _) fun _ => turnsBind (turnsKeeps (keepsTouched _)) fun _ =>
    turnsMono (turnsKeeps (keepsFound _)) fun _ ending ended => ?_
  obtain ⟨tags,named,rfl⟩ := reached
  obtain ⟨_,rfl⟩ := begun
  subst ended
  exact .described ⟨rfl,rfl,rfl,_,named.symm,rfl⟩

/- A checked identifier is checked to itself. -/
theorem identifierIdem {text name memoryId : String} (given : identifier env text name = .ok memoryId) :
    identifier env memoryId name = .ok memoryId := by
  have idem : normalized env (normalized env text) = normalized env text := by
    unfold normalized
    rw [env.unicode.nfcPart text _ (stripInfix _),stripIdem]
  unfold identifier at given ⊢
  split at given
  · cases given
  · cases given
    rw [idem,if_neg ‹_›]

/- What is found is the first row of the page, title included. -/
theorem turnsGetMemory {memoryId : String} {p} (checked : identifier env memoryId "memory_id" = .ok memoryId) :
    Turns port memoryId (· = p) (getMemory env memoryId) fun record q =>
      q = p ∧ ∀ found, record = some found → p.rows.head? = some found.toMemoryRow := by
  refine turnsBind turnsLift fun named => turnsFrom fun q begun => ?_
  obtain ⟨rfl,same⟩ := begun
  cases checked.symm.trans same
  refine turnsMono (turnsRead lawful _) fun record last reached => ⟨reached.1,fun found there => ?_⟩
  obtain ⟨t,same,read⟩ := reached.2
  exact same ▸ (pageRecord (read.symm.trans there)).1

theorem indexesAppendMemory (values : AppendValues) : Indexes port (appendMemory env values) := by
  refine indexesGiven fun memoryId given => @indexesTurns memoryId _ _ _ _ _ (turnsFrom fun p synced => ?_)
  refine turnsBind (turnsGetMemory (identifierIdem given)) fun found => ?_
  cases found with
  | none => exact turnsRaise
  | some existing =>
    refine turnsFrom fun q begun => ?_
    obtain ⟨rfl,there⟩ := begun
    have rows := syncedRow synced (there existing rfl)
    refine turnsBind turnsLift fun prepared => turnsBind (turnsKeeps keepsObserve) fun now => turnsFrom fun q begun => ?_
    obtain ⟨rfl,_⟩ := begun
    refine turnsBind (turnsUpdateMemory lawful fun _ => rfl) fun _ => turnsFrom fun q begun =>
      turnsBind (turnsReplaceMappings _ _) fun _ => turnsFrom fun last reached =>
      turnsBind (turnsReplaceFts lawful _ _ _ _) fun _ => turnsBind (turnsKeeps (keepsTouched _)) fun _ =>
      turnsMono (turnsKeeps (keepsFound _)) fun _ ending ended => ?_
    obtain ⟨tags,named,rfl⟩ := reached
    subst begun ended
    simp only [rows,List.map_cons,List.map_nil]
    exact .described ⟨rfl,rfl,rfl,_,named.symm,rfl⟩

theorem indexesPerform (command : Command) : Indexes port (perform env command) := by
  cases command with
  | getMemory memoryId => exact indexesKeeps (keepsFound memoryId)
  | createMemory values => exact indexesCreateMemory values
  | appendMemory values => exact indexesAppendMemory values

end

end Ingress

namespace Relational
open Curation (ActionError Command CreateValues UpdateValues)

section
variable {env : Curation.Env} {p : Page}

theorem turnsReplaceTagMappings {memoryId} (tags : List String) : Turns port memoryId (· = p)
    (replaceTagMappings memoryId tags) fun _ q => ∃ names, names.Perm tags ∧ q = { p with tags := names } := by
  refine turnsBind (turnsDeleteMemoryTags lawful) fun _ => turnsFrom fun q begun => turnsMono
    (turnsEachTag (fun _ name => turnsGiveTag lawful fun _ => rfl) tags) fun _ last reached => ?_
  obtain ⟨names,named,ended⟩ := reached
  subst begun
  exact ⟨names,by simpa using named,ended⟩

theorem turnsInsertFtsRow {memoryId title summary content : String} {tags} : Turns port memoryId (· = p)
    (insertFtsRow memoryId title summary content tags) fun _ q =>
      q = { p with documents := p.documents ++ [⟨memoryId,title,summary,content,String.intercalate " " tags⟩] } :=
  turnsInsertDocument lawful rfl

theorem preparedSummary {now values} {item : PreparedCreate} (given : prepareMemoryCreate env now values = .ok item) :
    item.row.summary = some item.summary := by
  unfold prepareMemoryCreate at given
  split at given
  · cases given
  · obtain ⟨memoryType,_,given⟩ := checkedOk.mp given
    obtain ⟨status,_,given⟩ := checkedOk.mp given
    obtain ⟨_,_,given⟩ := checkedOk.mp given
    obtain ⟨_,_,given⟩ := checkedOk.mp given
    split at given
    · cases given
    · cases given
      rfl

/- A new memory has no document yet, so that none has to go. -/
theorem turnsInsertPrepared {item : PreparedCreate} (summary : item.row.summary = some item.summary) (nextRef : Int) :
    Turns port item.row.id Synced (insertPrepared nextRef item) fun _ => Synced := by
  refine turnsFrom fun p synced => turnsBind (turnsInsertMemory lawful rfl) fun _ => turnsFrom fun q begun =>
    turnsBind (turnsReplaceWorkspaces lawful _) fun _ => turnsBind (turnsReplaceTagMappings _) fun _ =>
    turnsFrom fun last reached => turnsMono turnsInsertFtsRow fun _ ending ended => ?_
  obtain ⟨tags,named,rfl⟩ := reached
  obtain ⟨fresh,rfl⟩ := begun
  subst ended
  cases synced with
  | absent tags => exact .described ⟨rfl,by rw [summary]; rfl,rfl,_,named.symm,rfl⟩
  | described describes => cases fresh

/- Tags that are not given stay. -/
theorem turnsTagsGiven {memoryId} (tags : Option (List String)) : Turns port memoryId (· = p)
    (mapped (replaceTagMappings memoryId) tags) fun _ q =>
      ∃ names, names.Perm (tags.getD p.tags) ∧ q = { p with tags := names } := by
  cases tags with
  | none => exact turnsPure fun q same => ⟨_,.refl _,same⟩
  | some tags => exact turnsReplaceTagMappings tags

theorem turnsWriteUpdate (existing : MemoryRecord) (changes : UpdateValues) (revised : Revised) :
    Turns port existing.id Synced (writeUpdate env existing changes revised) fun _ => Synced := by
  refine turnsFrom fun p synced => turnsBind (turnsKeeps keepsObserve) fun now =>
    turnsBind (turnsUpdateMemory lawful fun _ => rfl) fun _ => ?_
  have workspaces : ∀ start, Turns port existing.id start
      (mapped (replaceWorkspaceMappings existing.id) revised.workspaceIds) fun _ => start := by
    intro start
    cases revised.workspaceIds with
    | none => exact turnsPure fun _ => id
    | some workspaceIds => exact turnsReplaceWorkspaces lawful workspaceIds
  refine turnsBind (workspaces _) fun _ => turnsFrom fun q begun => turnsBind (turnsTagsGiven _) fun _ =>
    turnsFrom fun tagged reached => turnsBind (turnsRead lawful _) fun found => ?_
  cases found with
  | none => exact turnsRaise
  | some current =>
    refine turnsFrom fun last read => ?_
    obtain ⟨rfl,t,same,found⟩ := read
    have here := pageRecord found.symm
    rw [same] at here
    refine turnsBind (turnsDeleteDocuments lawful) fun _ => turnsFrom fun cleared emptied =>
      turnsMono turnsInsertFtsRow fun _ ending ended => ?_
    obtain ⟨names,named,rfl⟩ := reached
    subst begun emptied ended
    -- The row that is read inside the transaction is the one just written.
    cases synced with
    | absent tags => cases here.1
    | described describes =>
      obtain ⟨first,tags⟩ := here
      have same := (Option.some.inj first).symm
      refine .described ⟨congrArg (·.title) same,congrArg (·.summary.getD "") same,congrArg (·.content) same,_,?_,rfl⟩
      cases given : revised.tags with
      | none => exact tags ▸ List.perm_insertionSort _ _
      | some tags =>
        rw [given] at named
        exact named.symm

theorem turnsDeletes (memoryId : String) : Turns port memoryId Synced (do
    onTables port (deleteLinksOf memoryId)
    onTables port (deleteSearchDocuments memoryId)
    onTables port (Memory.deleteMemory memoryId)) fun _ => Synced := by
  refine turnsBind (turnsBeside lawful fun t a after ran => by cases ran; exact ⟨rfl,rfl,rfl,rfl,rfl⟩) fun _ =>
    turnsFrom fun p synced => turnsBind (turnsDeleteDocuments lawful) fun _ => turnsFrom fun q begun =>
    turnsMono (turnsDeleteMemory lawful) fun _ last ended => ?_
  subst begun ended
  exact .absent []

theorem replaceLinkBeside {link : MemoryLink} {t u after} (ran : replaceLink link t = .ok (u,after)) :
    ∃ links, after = { t with links := links } := by
  unfold replaceLink at ran
  split at ran <;> cases ran
  exact ⟨_,rfl⟩

/- The methods keep the documents in step whether they raise or not. -/

theorem ensuresLook (seen : Option Tables) (memoryId : String) : Ensures Indexed (look seen memoryId) fun _ => True :=
  ensuresStatement fun t found after indexed taken => by
    obtain ⟨_,_,same⟩ := mappedOk.mp taken
    cases same
    exact ⟨indexed,trivial⟩

theorem ensuresIndexes {α : Type} {x : Query α} (indexes : Indexes port x) :
    Ensures Indexed (atomically x) fun _ => True := ensuresCommitted fun _ _ _ _ => indexes _ _ _ _

theorem ensuresUpdateMemory (seen : Option Tables) (memoryId : String) (changes : UpdateValues) :
    Ensures Indexed (updateMemory env seen memoryId changes) fun _ => True := by
  refine ensuresBind (ensuresLook seen memoryId) fun found _ => ?_
  cases found with
  | none => exact ensuresPure trivial
  | some existing =>
    exact ensuresBind (ensuresLift _) fun revised _ => ensuresBind (ensuresIndexes
      (indexesTurns (turnsWriteUpdate existing changes revised))) fun _ _ => ensuresLook _ _

theorem ensuresCreateMemory (request : CreateValues) :
    Ensures Indexed (createMemory env request) fun _ => True :=
  ensuresBind ensuresObserve fun _ _ => ensuresBind (ensuresGiven _) fun _ given => ensuresBind (ensuresIndexes
    (indexesBind (indexesKeeps (keepsRead lawful _)) fun nextRef => indexesTurns (turnsInsertPrepared
      (preparedSummary given) nextRef))) fun _ _ => ensuresLook _ _

theorem ensuresDeleteMemory (seen : Option Tables) (memoryId : String) :
    Ensures Indexed (deleteMemory seen memoryId) fun _ => True := by
  refine ensuresBind (ensuresLook seen memoryId) fun found _ => ?_
  cases found with
  | none => exact ensuresPure trivial
  | some existing =>
    exact ensuresBind (ensuresIndexes (indexesTurns (turnsDeletes existing.id))) fun _ _ => ensuresPure trivial

theorem ensuresGetLinks (memoryId : String) (incoming : Bool) (linkType : Option String) :
    Ensures Indexed (getLinks env memoryId incoming linkType) fun _ => True := by
  refine ensuresBind (ensuresLook _ _) fun found _ => ?_
  cases found with
  | none => exact ensuresPure trivial
  | some record =>
    exact ensuresBind (ensuresLift _) fun _ _ => ensuresStatement fun t _ after indexed taken => by
      cases taken
      exact ⟨indexed,trivial⟩

theorem ensuresPerform (seen : Option Tables) (command : Command) :
    Ensures Indexed (perform env seen command) fun _ => True := by
  cases command with
  | getMemory memoryId => exact ensuresLook _ _
  | getLinks memoryId incoming linkType => exact ensuresGetLinks memoryId incoming linkType
  | getProtections memoryId => exact ensuresRaise _
  | updateMemory memoryId changes => exact ensuresUpdateMemory seen memoryId changes
  | createMemory values => exact ensuresCreateMemory values
  | deleteMemory memoryId => exact ensuresDeleteMemory seen memoryId
  | addLink sourceId targetId linkType context =>
    exact ensuresBind (ensuresLift _) fun _ _ => ensuresBind (ensuresIndexes
      (indexesLinks lawful fun _ _ _ => replaceLinkBeside)) fun _ _ => ensuresPure trivial
  | removeLink sourceId targetId linkType =>
    exact ensuresBind (ensuresLift _) fun _ _ => ensuresBind (ensuresIndexes
      (indexesLinks lawful fun _ _ _ ran => by cases ran; exact ⟨_,rfl⟩)) fun _ _ => ensuresPure trivial
  | setLineage memoryId lineage => exact ensuresRaise _

/- A callback goes on after a command that raised only where that command changed nothing. -/
def Recovering (env : Curation.Env) (domain : Ingress.Env) : Write → Database → Prop
  | .curation attempt,database => ∀ p session, Curation.prepare env attempt.request = .ok p →
    Begun p.targets database.memory session.data → attempt.callback.Recovers (Curation.perform env attempt.config)
      Curation.port.tables attempt.oracle session
  | .ingress attempt,database => ∀ session : Session Ingress.Work, session.data.database.memory = database.memory →
    attempt.callback.Recovers (Ingress.perform domain) Ingress.port.tables attempt.oracle session
  | _,_ => True

variable {domain : Ingress.Env} {database : Database}

theorem indexedCurate {attempt : Curation.Attempt} (recovering : Recovering env domain (.curation attempt) database)
    (indexed : Indexed database.memory) : Indexed (curate env attempt database).memory := by
  unfold curate
  cases prepared : Curation.prepare env attempt.request with
  | error error => exact indexed
  | ok p =>
    have still : Curation.Still (Begun p.targets database.memory) :=
      ⟨fun _ _ begun same => ⟨same ▸ begun.memory,begun.targetIds,begun.newIds⟩,fun _ _ _ begun =>
        ⟨begun.memory,begun.targetIds,begun.newIds⟩⟩
    have aside : Curation.Aside fun work => Indexed work.database.memory :=
      ⟨fun work after start notes => indexedNotes start notes,fun _ _ _ start => start⟩
    have played : ∀ session result after, attempt.callback.play (Curation.perform env attempt.config) attempt.oracle
        session = (.ok result,after) → Begun p.targets database.memory session.data → Indexed after.data.database.memory :=
      fun session result after ran begun => recoversPlay (fun command before reply middle performed =>
        Curation.indexesPerform command _ before reply middle performed) (recovering p session prepared begun) ran
        (show Indexed session.data.database.memory from begun.memory ▸ indexed)
    rcases @Curation.framedTransaction env _ _ still aside attempt p database played ⟨rfl,rfl,rfl⟩ with
      same | ⟨work,held,same⟩
    · exact same ▸ indexed
    · exact same ▸ held

theorem indexedExecute {attempt : Ingress.Attempt} (recovering : Recovering env domain (.ingress attempt) database)
    (indexed : Indexed database.memory) : Indexed (Ingress.execute domain attempt database).2.memory := by
  have played : ∀ session result after, attempt.callback.play (Ingress.perform domain) attempt.oracle session =
      (.ok result,after) → Ingress.tablesOf session.data = database.memory → Indexed (Ingress.tablesOf after.data) :=
    fun session result after ran begun => recoversPlay (fun command before reply middle performed =>
      Ingress.indexesPerform command _ before reply middle performed) (recovering session begun) ran
      (show Indexed (Ingress.tablesOf session.data) from begun ▸ indexed)
  rcases Ingress.notedExecute domain (fun before after notes start => indexedNotes start notes) played with same | held
  · exact same ▸ indexed
  · exact held

theorem indexedSweep (sweep : Maintenance.Sweep) (indexed : Indexed database.memory) :
    Indexed (Maintenance.gcArchivedMemories sweep database).memory := by
  have each : ∀ (memoryIds : List String) (database : Database), Indexed database.memory →
      Indexed (memoryIds.foldl (Maintenance.deleteArchived sweep) database).memory := by
    intro memoryIds
    induction memoryIds with
    | nil => exact fun _ => id
    | cons memoryId rest ih =>
      refine fun database start => ih _ ?_
      unfold Maintenance.deleteArchived
      dsimp only
      split
      · exact indexedDrop start memoryId
      · exact start
  unfold Maintenance.gcArchivedMemories
  dsimp only
  split
  · exact each _ database indexed
  · exact indexed

theorem indexedStatus (sel : MemoryRow → Bool) (status : String) {t : Tables} (indexed : Indexed t) :
    Indexed { t with memories := Table.update sel (fun row => { row with status := status }) t.memories } :=
  @indexedRows t (fun row => { row with status := status }) indexed (fun _ => ⟨rfl,rfl,rfl,rfl⟩) sel

theorem indexedStatuses (memoryIds : List String) (status : String) (current : Option String) {t : Tables}
    (indexed : Indexed t) : Indexed (Maintenance.updateMemoryStatuses memoryIds status current t) := by
  unfold Maintenance.updateMemoryStatuses
  dsimp only
  split
  · exact indexed
  · exact indexedStatus _ status indexed

theorem indexedApply {write : Write} (recovering : Recovering env domain write database)
    (indexed : Indexed database.memory) : Indexed (apply env domain write database).memory := by
  cases write with
  | repository seen script oracle =>
    exact (ensuresPlay (ensuresPerform seen) script oracle ⟨database.memory,0⟩ indexed).1
  | curation attempt => exact indexedCurate recovering indexed
  | ingress attempt => exact @indexedExecute env _ _ _ recovering indexed
  | staleness cutoff workspaceId => exact indexedStatus _ "stale" indexed
  | factCheck present => exact indexedStatuses _ _ _ (indexedStatuses _ _ _ indexed)
  | sweep sweep => exact indexedSweep sweep indexed

end

end Relational

end McpMemory
