import McpMemory.Postgres.Fidelity

/-! A database without memories migrates as it is; any other misses its search documents, and
more where a memory is archived, a link leads outside or a reference is yet to be given. -/
namespace McpMemory.Postgres
open Memory Table Transaction Text
open Curation (ActionError CreateValues)

variable {env : Curation.Env} {source : Source} {target middle : Target} {memoryId : String}

def Source.has (source : Source) (memoryId : String) : Bool := source.rows.any (·.id == memoryId)

/- A link between memories or from a memory to the outside. -/
def Source.keeps (source : Source) (link : MemoryLink) : Bool :=
  source.has link.sourceId && (source.has link.targetId || startsWith link.targetId "ext:")

/- Creates one after the other, whether they succeed or not. -/
def createAll (env : Curation.Env) (oracle : Oracle ActionError) (requests : List CreateValues) (session : Session Store) :
    Session Store :=
  requests.foldl (fun session request => (createMemory env request oracle session).2) session

/- Whatever was created since, the next create draws no reference of an imported memory. -/
def Unclaimed (env : Curation.Env) (source : Source) (target : Target) : Prop :=
  ∀ oracle requests, ∀ row ∈ source.rows,
    row.memoryRef ≠ some (createAll env oracle requests ⟨target.store,0⟩).data.memoryRefSeq

structure Faithful (env : Curation.Env) (source : Source) (target : Target) : Prop where
  memories : target.rows.Perm source.rows
  workspaces : ∀ memoryId workspaceId, (memoryId,workspaceId) ∈ target.workspaces ↔
    (memoryId,workspaceId) ∈ source.workspaces
  tags : ∀ memoryId name, TagOf target.tags target.memoryTags memoryId name ↔
    TagOf source.tags source.memoryTags memoryId name
  links : ∀ link ∈ source.links, source.keeps link → link ∈ target.links
  documents : Indexed target.store.tables
  memoryRefs : Unclaimed env source target

/- The order of the rows. -/

theorem orderedPerm : (source.rows.insertionSort (createdLe · ·)).Perm source.rows := List.perm_insertionSort _ _

theorem exportedIds : ((readSqliteExport source).memories.map (·.id)).Nodup := by
  have ids : (readSqliteExport source).memories.map (·.id) = (source.rows.insertionSort (createdLe · ·)).map (·.id) := by
    unfold readSqliteExport
    rw [List.map_map]
    rfl
  rw [ids]
  exact (orderedPerm.map _).nodup_iff.mpr source.keyed

theorem memExported {memory : SQLiteSourceMemory} : memory ∈ (readSqliteExport source).memories ↔
    ∃ row ∈ source.rows, memory = sourceMemory source row := by
  unfold readSqliteExport
  rw [List.mem_map]
  constructor
  · rintro ⟨row,member,rfl⟩
    exact ⟨row,orderedPerm.mem_iff.mp member,rfl⟩
  · rintro ⟨row,member,rfl⟩
    exact ⟨row,orderedPerm.mem_iff.mpr member,rfl⟩

theorem exportedHas (memoryId : String) : (readSqliteExport source).memories.any (·.id == memoryId) = source.has memoryId := by
  rw [Bool.eq_iff_iff,List.any_eq_true]
  unfold Source.has
  rw [List.any_eq_true]
  constructor
  · rintro ⟨memory,member,same⟩
    obtain ⟨row,there,rfl⟩ := memExported.mp member
    exact ⟨row,there,same⟩
  · rintro ⟨row,there,same⟩
    exact ⟨_,memExported.mpr ⟨row,there,rfl⟩,same⟩

/- The mappings that are read are those that the tables hold. -/

theorem memWorkspaces {workspaceId} : workspaceId ∈ workspacesByMemory source memoryId ↔
    (memoryId,workspaceId) ∈ source.workspaces := by
  unfold workspacesByMemory
  simp

theorem memTags {name} : name ∈ tagsByMemory source memoryId ↔ TagOf source.tags source.memoryTags memoryId name := by
  unfold tagsByMemory
  rw [List.mem_filterMap]
  constructor
  · rintro ⟨pair,member,found⟩
    obtain ⟨tag,here,called⟩ := Option.map_eq_some_iff.mp found
    obtain ⟨mapped,mine⟩ := List.mem_filter.mp member
    have numbered : tag.id = pair.2 := by simpa using (findSome here).2
    refine ⟨tag,(findSome here).1,called,?_⟩
    rw [numbered,← beq_iff_eq.mp mine]
    exact mapped
  · rintro ⟨tag,there,called,mapped⟩
    refine ⟨(memoryId,tag.id),List.mem_filter.mpr ⟨mapped,beq_self_eq_true _⟩,?_⟩
    have found : source.tags.find? (·.id == tag.id) = some tag := by
      cases here : source.tags.find? (·.id == tag.id) with
      | none => exact absurd (findNone here tag there) (by simp)
      | some other =>
        rw [equalOfKey source.numbered (findSome here).1 there (by simpa using (findSome here).2)]
    exact Option.map_eq_some_iff.mpr ⟨tag,found,called⟩

/- The export as it arrives. -/
theorem importExportOk (ran : importExport (readSqliteExport source) emptyTarget = .ok target) :
    ∃ middle, Imported (readSqliteExport source).memories middle ∧
      target = { middle with links := (readSqliteExport source).links } := by
  obtain ⟨middle,first,ran⟩ := checkedOk.mp ran
  have imported := importedMemories importedEmpty exportedIds first
  have bare : middle.links = [] := imported.aside.links
  refine ⟨middle,imported,?_⟩
  have apart : ((middle.links ++ (readSqliteExport source).links).map linkKey).Nodup := by
    rw [bare,List.nil_append]
    refine List.Nodup.sublist (List.Sublist.map _ List.filter_sublist) ?_
    exact (List.Perm.map _ (List.perm_insertionSort _ _)).nodup_iff.mpr source.linked
  rw [importLinksOk apart ran,bare,List.nil_append]

/- The sequence of the references. -/

theorem keepsSeq {α : Type} (sql : Statement α) : Keeps (·.memoryRefSeq) (onTables port sql) :=
  keepsOnTables (fun _ _ => rfl) sql

theorem keepsReplaceTagMappings (memoryId : String) (tags : List String) :
    Keeps (·.memoryRefSeq) (replaceTagMappings memoryId tags) := by
  refine keepsBind (keepsSeq _) fun _ => keepsEach fun tag _ => keepsBind (keepsSeq _) fun _ =>
    keepsBind (keepsSeq _) fun tagId => ?_
  cases tagId with
  | none => exact keepsPure _
  | some tagId => exact keepsSeq _

theorem insertPreparedSeq (item : Relational.PreparedCreate) (oracle : Oracle ActionError) (session : Session Store) :
    (insertPrepared item oracle session).2.data.memoryRefSeq =
      session.data.memoryRefSeq + if isJsonb (.obj item.row.metadata) then 1 else 0 := by
  unfold insertPrepared checkJsonb
  split
  · rw [bindRuns]
    dsimp only [lift]
    rw [bindRuns]
    dsimp only [nextval]
    refine @keepsBind _ _ _ _ _ Store.memoryRefSeq _ _ (keepsSeq _) (fun _ => keepsBind (keepsReplaceWorkspaces (fun _ _ => rfl) _ _)
      fun _ => keepsBind (keepsReplaceTagMappings _ _) fun _ => keepsSeq _) _ _
  · rw [bindRuns]
    dsimp only [lift]
    omega

theorem keepsLook (seen : Option Tables) (memoryId : String) : Keeps Store.memoryRefSeq (look seen memoryId) :=
  keepsStatement fun _ _ _ taken => by
    obtain ⟨_,_,same⟩ := mappedOk.mp taken
    cases same
    rfl

theorem createMemorySeq (request : CreateValues) (oracle : Oracle ActionError) (session : Session Store) :
    (createMemory env request oracle session).2.data.memoryRefSeq = session.data.memoryRefSeq +
      match Relational.prepareMemoryCreate env (oracle session.moment) request with
      | .error _ => 0
      | .ok item => if isJsonb (.obj item.row.metadata) then 1 else 0 := by
  unfold createMemory
  rw [bindRuns]
  dsimp only [observe]
  rw [bindRuns]
  dsimp only [lift]
  cases Relational.prepareMemoryCreate env (oracle session.moment) request with
  | error error => exact (Int.add_zero _).symm
  | ok item =>
    have drawn := insertPreparedSeq item oracle ⟨session.data,session.moment + 1⟩
    exact (keepsAfter fun _ => keepsLook none item.row.id).trans drawn

theorem createAllSeq (oracle : Oracle ActionError) (requests : List CreateValues) (session : Session Store) :
    session.data.memoryRefSeq ≤ (createAll env oracle requests session).data.memoryRefSeq := by
  induction requests generalizing session with
  | nil => exact Int.le_refl _
  | cons request rest ih =>
    have step := @createMemorySeq env request oracle session
    have later := ih (createMemory env request oracle session).2
    refine Int.le_trans ?_ later
    rw [step]
    split
    · omega
    · split <;> omega

/- A request that is always accepted. -/
def plainRequest : CreateValues := ⟨none,"t","c",none,none,none,["w"],[],none,none,none,[]⟩

theorem plainPrepared (now : Moment ActionError) :
    ∃ item, Relational.prepareMemoryCreate env now plainRequest = .ok item ∧ item.row.metadata = [] := by
  have memoryType : Relational.validateMemoryType "journal" = .ok "journal" := by decide +kernel
  have status : Relational.validateMemoryStatus "active" = .ok "active" := by decide +kernel
  have title : strip "t" = "t" := by decide +kernel
  have content : strip "c" = "c" := by decide +kernel
  have workspaces : Relational.normalizeValues ["w"] = ["w"] := by decide +kernel
  unfold Relational.prepareMemoryCreate plainRequest
  dsimp only [Option.isSome_none,Option.getD_none]
  rw [memoryType,status,title,content,workspaces]
  exact ⟨_,rfl,rfl⟩

theorem createAllPlain (oracle : Oracle ActionError) (n : Nat) (session : Session Store) :
    (createAll env oracle (List.replicate n plainRequest) session).data.memoryRefSeq = session.data.memoryRefSeq + n := by
  induction n generalizing session with
  | zero => exact (Int.add_zero _).symm
  | succ n ih =>
    obtain ⟨item,prepared,metadata⟩ := @plainPrepared env (oracle session.moment)
    have step := @createMemorySeq env plainRequest oracle session
    have stored : isJsonb (.obj []) = true := rfl
    simp only [prepared,metadata,stored,if_true] at step
    have later := ih (createMemory env plainRequest oracle session).2
    rw [List.replicate_succ]
    refine later.trans ?_
    rw [step]
    omega

/- The sequence starts below every reference that SQLite has given. -/
theorem unclaimedIff (start : target.memoryRefSeq = 1) :
    Unclaimed env source target ↔ ∀ row ∈ source.rows, ∀ memoryRef, row.memoryRef = some memoryRef → memoryRef < 1 := by
  constructor
  · intro unclaimed row member memoryRef given
    by_contra positive
    have calm : Oracle ActionError := fun _ => ⟨none,"","",0⟩
    refine unclaimed calm (List.replicate (memoryRef - 1).toNat plainRequest) row member (given.trans (congrArg some ?_))
    rw [createAllPlain]
    show memoryRef = target.memoryRefSeq + _
    omega
  · intro below oracle requests row member given
    have bound := below row member _ given
    have later := @createAllSeq env oracle requests ⟨target.store,0⟩
    have first : (⟨target.store,0⟩ : Session Store).data.memoryRefSeq = 1 := start
    omega

/- What a migration that succeeds leaves. -/
structure Arrived (env : Curation.Env) (source : Source) (target : Target) : Prop where
  memories : target.rows.Perm source.rows ↔ ∀ row ∈ source.rows, row.archivedAt = none
  columns : target.rows.Perm (source.rows.map fun row => { row with archivedAt := none })
  workspaces : ∀ memoryId workspaceId, (memoryId,workspaceId) ∈ target.workspaces ↔
    (memoryId,workspaceId) ∈ source.workspaces
  tags : ∀ memoryId name, TagOf target.tags target.memoryTags memoryId name ↔
    TagOf source.tags source.memoryTags memoryId name
  links : (∀ link ∈ source.links, source.keeps link → link ∈ target.links) ↔
    ∀ link ∈ source.links, source.has link.sourceId → startsWith link.targetId "ext:" → source.has link.targetId
  documents : Indexed target.store.tables ↔ source.rows = []
  memoryRefs : Unclaimed env source target ↔
    ∀ row ∈ source.rows, ∀ memoryRef, row.memoryRef = some memoryRef → memoryRef < 1

theorem arrivedColumns (imported : Imported (readSqliteExport source).memories target) :
    target.rows.Perm (source.rows.map fun row => { row with archivedAt := none }) := by
  have rows : target.rows = (source.rows.insertionSort (createdLe · ·)).map fun row => { row with archivedAt := none } := by
    rw [imported.rows]
    unfold readSqliteExport
    rw [List.map_map]
    rfl
  rw [rows]
  exact orderedPerm.map _

theorem arrivedMemories (imported : Imported (readSqliteExport source).memories target) :
    target.rows.Perm source.rows ↔ ∀ row ∈ source.rows, row.archivedAt = none := by
  have columns := arrivedColumns imported
  constructor
  · intro same row member
    obtain ⟨old,_,rfl⟩ := List.mem_map.mp ((columns.symm.trans same).mem_iff.mpr member)
    rfl
  · intro unarchived
    have kept : (source.rows.map fun row => { row with archivedAt := none }) = source.rows := by
      refine (List.map_congr_left fun row member => ?_).trans (List.map_id _)
      rw [← unarchived row member]
      rfl
    rwa [kept] at columns

theorem arrivedWorkspaces (imported : Imported (readSqliteExport source).memories target) (memoryId workspaceId : String) :
    (memoryId,workspaceId) ∈ target.workspaces ↔ (memoryId,workspaceId) ∈ source.workspaces := by
  rw [imported.workspaces]
  constructor
  · rintro ⟨memory,member,rfl,listed⟩
    obtain ⟨row,there,rfl⟩ := memExported.mp member
    exact memWorkspaces.mp (memSortedSet.mp listed)
  · intro placed
    obtain ⟨row,there,same⟩ := source.placed _ placed
    refine ⟨_,memExported.mpr ⟨row,there,rfl⟩,same,memSortedSet.mpr (memWorkspaces.mpr ?_)⟩
    rw [same]
    exact placed

theorem arrivedTags (imported : Imported (readSqliteExport source).memories target) (memoryId name : String) :
    TagOf target.tags target.memoryTags memoryId name ↔ TagOf source.tags source.memoryTags memoryId name := by
  rw [imported.tags]
  constructor
  · rintro ⟨memory,member,rfl,listed⟩
    obtain ⟨row,there,rfl⟩ := memExported.mp member
    exact memTags.mp (memSortedSet.mp listed)
  · intro tagged
    obtain ⟨tag,_,_,mapped⟩ := id tagged
    obtain ⟨row,there,same⟩ := source.tagged _ mapped
    refine ⟨_,memExported.mpr ⟨row,there,rfl⟩,same,memSortedSet.mpr (memTags.mpr ?_)⟩
    rw [same]
    exact tagged

theorem exportedLinks {link : MemoryLink} : link ∈ (readSqliteExport source).links ↔
    link ∈ source.links ∧ source.has link.sourceId ∧ source.has link.targetId := by
  have between : betweenMemories (readSqliteExport source).memories link ↔ source.has link.sourceId ∧ source.has link.targetId := by
    unfold betweenMemories
    rw [exportedHas,exportedHas,Bool.and_eq_true]
  have split : link ∈ (readSqliteExport source).links ↔ link ∈ source.links.insertionSort (linkLe · ·) ∧
      betweenMemories (readSqliteExport source).memories link := List.mem_filter
  rw [split,between,List.mem_insertionSort]

theorem arrivedLinks (links : target.links = (readSqliteExport source).links) :
    (∀ link ∈ source.links, source.keeps link → link ∈ target.links) ↔
      ∀ link ∈ source.links, source.has link.sourceId → startsWith link.targetId "ext:" → source.has link.targetId := by
  rw [links]
  constructor
  · intro kept link member here outside
    refine (exportedLinks.mp (kept link member ?_)).2.2
    simp [Source.keeps,here,outside]
  · intro inside link member keeps
    obtain ⟨here,there⟩ := Bool.and_eq_true_iff.mp keeps
    refine exportedLinks.mpr ⟨member,here,?_⟩
    rcases Bool.or_eq_true_iff.mp there with there | outside
    · exact there
    · exact inside link member here outside

theorem exportNothing (none : source.rows = []) : importExport (readSqliteExport source) emptyTarget = .ok emptyTarget := by
  have memories : (readSqliteExport source).memories = [] := by
    unfold readSqliteExport
    rw [none]
    rfl
  have links : (readSqliteExport source).links = [] := by
    refine List.eq_nil_iff_forall_not_mem.mpr fun link member => ?_
    have here := (exportedLinks.mp member).2.1
    unfold Source.has at here
    rw [none] at here
    cases here
  unfold importExport
  rw [memories,links]
  rfl

theorem arrivedDocuments (imported : Imported (readSqliteExport source).memories middle)
    (ran : importExport (readSqliteExport source) emptyTarget = .ok target) (rows : target.rows = middle.rows)
    (documents : target.searchDocuments = middle.searchDocuments) :
    Indexed target.store.tables ↔ source.rows = [] := by
  have bare : target.searchDocuments = [] := documents.trans imported.aside.searchDocuments
  constructor
  · intro indexed
    refine List.eq_nil_iff_forall_not_mem.mpr fun row member => ?_
    have there : ({ row with archivedAt := none } : Row) ∈ target.rows :=
      rows ▸ (arrivedColumns imported).mem_iff.mpr (List.mem_map_of_mem member)
    -- the page of the memory has its row but no document
    have paged : (page target.store.tables row.id).rows ≠ [] := by
      refine List.ne_nil_of_mem (a := { row.toMemoryRow with archivedAt := none }) (List.mem_filter.mpr ⟨?_,beq_self_eq_true _⟩)
      exact List.mem_map_of_mem there
    have undescribed : (page target.store.tables row.id).documents = [] := by
      show target.searchDocuments.filter _ = []
      rw [bare]
      rfl
    have synced := indexed.synced row.id
    generalize page target.store.tables row.id = shown at synced paged undescribed
    cases synced with
    | absent tags => exact paged rfl
    | described describes => cases undescribed
  · intro none
    cases (exportNothing none).symm.trans ran
    exact indexedEmpty

theorem arrives (ran : importExport (readSqliteExport source) emptyTarget = .ok target) : Arrived env source target := by
  obtain ⟨middle,imported,same⟩ := importExportOk ran
  have rows : target.rows = middle.rows := by rw [same]
  have tags : target.tags = middle.tags ∧ target.memoryTags = middle.memoryTags := by rw [same]; exact ⟨rfl,rfl⟩
  refine ⟨?_,?_,fun memoryId workspaceId => ?_,fun memoryId name => ?_,arrivedLinks (by rw [same]),
    arrivedDocuments imported ran rows (by rw [same]),unclaimedIff ?_⟩
  · rw [rows]
    exact arrivedMemories imported
  · rw [rows]
    exact arrivedColumns imported
  · rw [same]
    exact arrivedWorkspaces imported memoryId workspaceId
  · rw [tags.1,tags.2]
    exact arrivedTags imported memoryId name
  · rw [same]
    exact imported.aside.memoryRefSeq

/- A migration that raises leaves the target empty. -/
def Ended (env : Curation.Env) (source : Source) : Except MigrationError MigrationSummary × Target → Prop
  | (.error _,target) => target = emptyTarget
  | (.ok _,target) => Arrived env source target

theorem faithfulEmpty (none : source.rows = []) : Faithful env source emptyTarget := by
  have arrived : Arrived env source emptyTarget := arrives (exportNothing none)
  have absent : ∀ memoryId, source.has memoryId = false := by
    intro memoryId
    unfold Source.has
    rw [none]
    rfl
  refine ⟨arrived.memories.mpr ?_,arrived.workspaces,arrived.tags,arrived.links.mpr ?_,arrived.documents.mpr none,
    arrived.memoryRefs.mpr ?_⟩
  · rw [none]
    exact fun _ member => (by cases member)
  · intro link _ here
    rw [absent] at here
    cases here
  · rw [none]
    exact fun _ member => (by cases member)

theorem migratedAs (source : Source) (allowNonEmptyTarget : Bool) :
    migrateSqliteToPostgres source false allowNonEmptyTarget emptyTarget =
      match importExport (readSqliteExport source) emptyTarget with
      | .error error => (.error error,emptyTarget)
      | .ok after => (.ok (summaryOf (readSqliteExport source) false allowNonEmptyTarget emptyTarget),after) := rfl

theorem faithfulNothing {allowNonEmptyTarget : Bool}
    (faithful : Faithful env source (migrateSqliteToPostgres source false allowNonEmptyTarget emptyTarget).2) :
    source.rows = [] := by
  rw [migratedAs] at faithful
  cases ran : importExport (readSqliteExport source) emptyTarget with
  | error error =>
    rw [ran] at faithful
    exact faithful.memories.symm.eq_nil
  | ok target =>
    rw [ran] at faithful
    exact (@arrives env _ _ ran).documents.mp faithful.documents

theorem migrationExact (env : Curation.Env) (source : Source) (allowNonEmptyTarget : Bool) :
    (Faithful env source (migrateSqliteToPostgres source false allowNonEmptyTarget emptyTarget).2 ↔ source.rows = []) ∧
      Ended env source (migrateSqliteToPostgres source false allowNonEmptyTarget emptyTarget) := by
  refine ⟨⟨faithfulNothing,fun none => ?_⟩,?_⟩
  · rw [migratedAs,exportNothing none]
    exact faithfulEmpty none
  · rw [migratedAs]
    cases ran : importExport (readSqliteExport source) emptyTarget with
    | error error => exact rfl
    | ok target => exact arrives ran

/- An archived memory with a link to the outside. -/
def archivedSource : Source where
  rows := [⟨⟨"b1f0a7c2-3f4e-4a53-9d61-5e0c8a7f1d20",some 1,"Retry","Retry the upload",some "Retry","fact","archived",
    "2026-01-01","2026-01-02",some "2026-01-02",[]⟩,3,1,none,none⟩]
  workspaces := [("b1f0a7c2-3f4e-4a53-9d61-5e0c8a7f1d20","w")]
  tags := []
  memoryTags := []
  links := [⟨"b1f0a7c2-3f4e-4a53-9d61-5e0c8a7f1d20","ext:ticket-7","RELATES_TO",""⟩]
  keyed := by decide
  placed := by decide
  tagged := by decide
  numbered := by decide
  linked := by decide

/- The migration succeeds, without the time, the link and the search document. -/
theorem archivedArrivesBare : (migrateSqliteToPostgres archivedSource false false emptyTarget).1.isOk ∧
    ¬ Faithful ⟨⟨ascii,id⟩,fun title _ _ => title⟩ archivedSource
      (migrateSqliteToPostgres archivedSource false false emptyTarget).2 :=
  ⟨by decide +kernel,fun faithful => List.cons_ne_nil _ _ (faithfulNothing faithful)⟩

end McpMemory.Postgres
