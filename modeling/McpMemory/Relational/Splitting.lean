import McpMemory.Relational.Merging

/-! Splits of a memory through the plain repository. The exception of a creation or a link takes
the parts that were made so far with it; nothing takes back what is written after the last link. -/
namespace McpMemory.Relational.Split
open Memory Text Transaction
open Curation (ActionError Answer CreateValues SplitPart requireString optionalString optionalBool orText)

variable (env : Curation.ToolEnv)

/- The memories with what is mapped to them, and the links. -/
structure Holdings where
  memories : List MemoryRow
  workspaces : List (String × String)
  memoryTags : List (String × Int)
  links : List MemoryLink

def holdings (t : Tables) : Holdings := ⟨t.memories,t.workspaces,t.memoryTags,t.links⟩

def Holdings.without (h : Holdings) (ids : List String) : Holdings where
  memories := h.memories.filter fun row => !ids.contains row.id
  workspaces := h.workspaces.filter fun row => !ids.contains row.1
  memoryTags := h.memoryTags.filter fun row => !ids.contains row.1
  links := h.links.filter fun link => !ids.contains link.sourceId && !ids.contains link.targetId

structure SplitCall where
  arguments : Json.Object
  groupId : String
  oracle : Oracle ActionError

def playSplit (call : SplitCall) (t : Tables) : Except ActionError Answer × Session Tables :=
  (Curation.splitMemoryRecord env call.groupId call.arguments).play (performService env) call.oracle ⟨t,0⟩

def Fails (call : SplitCall) (t : Tables) : Prop := isOk (playSplit env call t).1 = false

instance {call t} : Decidable (Fails env call t) := inferInstanceAs (Decidable (_ = false))

def AllOrNothing (call : SplitCall) (t : Tables) : Prop :=
  Fails env call t → holdings (playSplit env call t).2.data = holdings t

/- What the parts are made from, once the arguments are read. -/
structure Plan where
  original : MemoryRecord
  linkType : String
  linkContext : String
  parts : List SplitPart

def Prepares (call : SplitCall) (t : Tables) (plan : Plan) (session : Session Tables) : Prop :=
  ∃ memoryId linkType linkContext archiveOriginal,
    requireString call.arguments "memory_id" = .ok memoryId ∧
    getMemory memoryId call.oracle ⟨t,0⟩ = (.ok (some plan.original),session) ∧
    2 ≤ (Json.items (Json.get call.arguments "parts")).length ∧
    optionalString call.arguments "link_type" = .ok linkType ∧ optionalString call.arguments "link_context" = .ok linkContext ∧
    optionalBool call.arguments "archive_original" = .ok archiveOriginal ∧
    Curation.normalizedParts env ⟨plan.original,call.groupId,(Json.items (Json.get call.arguments "parts")).length⟩ 1
      (Json.items (Json.get call.arguments "parts")) = .ok (some plan.parts) ∧
    plan.linkType = orText linkType "DEPENDS_ON" ∧ plan.linkContext = orText linkContext
      "Derived from an oversized memory split by internal maintenance tools."

/- A creation as far as its commit; the memory is read back afterwards. -/
def insertNew (env : Curation.Env) (request : CreateValues) : Query String := do
  let now ← observe
  let item ← lift (prepareMemoryCreate env now request)
  atomically do
    let nextRef ← onTables port (read nextMemoryRef)
    insertPrepared nextRef item
  pure item.row.id

theorem createReads (env : Curation.Env) (request : CreateValues) :
    createMemory env request = insertNew env request >>= getMemory := by
  funext oracle session
  unfold createMemory insertNew
  simp only [bindRuns]
  cases (observe : Query _) oracle session with
  | mk now begun => cases now with
    | error error => rfl
    | ok now =>
      dsimp only
      cases (lift (prepareMemoryCreate env now request) : Query _) oracle begun with
      | mk item prepared => cases item with
        | error error => rfl
        | ok item =>
          dsimp only
          cases (atomically do
            let nextRef ← onTables port (read nextMemoryRef)
            insertPrepared nextRef item : Query Unit) oracle prepared with
          | mk written committed => cases written <;> rfl

/- Every deletion is done. -/
def Discards (oracle : Oracle ActionError) : List MemoryRecord → Session Tables → Prop
  | [],_ => True
  | record::rest,session => match deleteMemory none record.id oracle session with
    | (.error _,_) => False
    | (.ok _,after) => Discards oracle rest after

/- A creation or a link raises, with nothing written that is not known to the code by then, and
every deletion that follows is done. -/
def Undoes (oracle : Oracle ActionError) (plan : Plan) (created : List MemoryRecord) : List SplitPart → Session Tables → Prop
  | [],_ => False
  | part::rest,session => match insertNew env.actions part.values oracle session with
    | (.error _,after) => Discards oracle created after
    | (.ok memoryId,stored) => match getMemory memoryId oracle stored with
      | (.ok (some record),found) => match addLink env.actions record.id plan.original.id plan.linkType plan.linkContext oracle found with
        | (.error _,after) => Discards oracle (created ++ [record]) after
        | (.ok _,after) => Undoes oracle plan (created ++ [record]) rest after
      | _ => False

/- Nothing is written that is not taken back. -/
def Undone (call : SplitCall) (t : Tables) : Prop := ∀ plan session, Prepares env call t plan session →
  Undoes env call.oracle plan [] plan.parts session

/- A text that `uuid4` has not given before. -/
structure Unused (t : Tables) (memoryId : String) : Prop where
  workspaces : ∀ row ∈ t.workspaces, row.1 ≠ memoryId
  memoryTags : ∀ row ∈ t.memoryTags, row.1 ≠ memoryId
  links : ∀ link ∈ t.links, link.sourceId ≠ memoryId ∧ link.targetId ≠ memoryId

variable {env} {t : Tables} {memoryId : String}

theorem withoutNil (h : Holdings) : h.without [] = h := by simp [Holdings.without]

theorem withoutAppend (h : Holdings) (first rest : List String) : h.without (first ++ rest) = (h.without first).without rest := by
  simp only [Holdings.without,List.filter_filter,List.contains_eq_mem,List.mem_append,Bool.decide_or,Bool.not_or,
    Holdings.mk.injEq]
  refine ⟨?_,?_,?_,?_⟩ <;> refine List.filter_congr fun row _ => ?_
  · exact Bool.and_comm _ _
  · exact Bool.and_comm _ _
  · exact Bool.and_comm _ _
  · cases decide (row.sourceId ∈ first) <;> cases decide (row.targetId ∈ first) <;> simp

theorem withoutUnused (unused : Unused t memoryId) (absent : ¬ t.has memoryId) : (holdings t).without [memoryId] = holdings t := by
  have rows : ∀ row ∈ t.memories, row.id ≠ memoryId := fun row member same =>
    absent (List.any_eq_true.mpr ⟨row,member,beq_iff_eq.mpr same⟩)
  simp only [Holdings.without,holdings,Holdings.mk.injEq,List.filter_eq_self]
  refine ⟨fun row member => ?_,fun row member => ?_,fun row member => ?_,fun link member => ?_⟩
  · simpa using rows row member
  · simpa using unused.workspaces row member
  · simpa using unused.memoryTags row member
  · simpa using unused.links link member

theorem filterOthers {α : Type} (key : α → String) (rows : List α) :
    (rows.filter fun row => key row != memoryId).filter (fun row => !([memoryId].contains (key row))) =
      rows.filter fun row => !([memoryId].contains (key row)) :=
  Table.filterOut fun row _ hit => by simpa using hit

/- What is about one memory, as seen by the others, and the rows of the memories. -/
def View (memoryId : String) (before after : Tables) : Prop :=
  (holdings after).without [memoryId] = (holdings before).without [memoryId] ∧ after.memories = before.memories

theorem viewMaps (memoryId : String) : Maps (View memoryId) memoryId where
  refl _ := ⟨rfl,rfl⟩
  insertTag name := by
    intro t a after ran
    cases ran
    dsimp only
    split <;> exact ⟨rfl,rfl⟩
  deleteSearchDocuments _ _ _ _ ran := by cases ran; exact ⟨rfl,rfl⟩
  insertSearchDocument _ _ _ _ ran := by cases ran; exact ⟨rfl,rfl⟩
  insertRepairIntent intent := by
    intro t a after ran
    cases ran
    dsimp only
    split <;> exact ⟨rfl,rfl⟩
  deleteWorkspaces := by
    intro t a after ran
    cases ran
    refine ⟨?_,rfl⟩
    simp only [Holdings.without,holdings,filterOthers Prod.fst]
  insertWorkspace workspaceId := by
    intro t a after ran
    unfold insertWorkspace at ran
    split at ran
    · cases ran
    · split at ran
      · cases ran
      · cases ran
        refine ⟨?_,rfl⟩
        simp [Holdings.without,holdings]
  deleteMemoryTags := by
    intro t a after ran
    cases ran
    refine ⟨?_,rfl⟩
    simp only [Holdings.without,holdings,filterOthers Prod.fst]
  insertMemoryTag tagId := by
    intro t a after ran
    unfold insertMemoryTag at ran
    split at ran
    · cases ran
    · split at ran
      · cases ran
      · cases ran
        refine ⟨?_,rfl⟩
        simp [Holdings.without,holdings]

theorem viewClosed {start : Tables} : Closed port (View memoryId) (View memoryId start) :=
  fun _ _ begun step => ⟨step.1.trans begun.1,step.2.trans begun.2⟩

/- What follows the row. -/
theorem viewMapped {start : Tables} (item : PreparedCreate) : Ensures (View item.row.id start) (do
    replaceWorkspaceMappings item.row.id item.workspaceIds
    replaceTagMappings item.row.id item.tags
    insertFtsRow item.row.id item.row.title item.summary item.row.content item.tags) fun _ => True :=
  ensuresBind (closedReplaceWorkspaces viewClosed (viewMaps _) _) fun _ _ =>
    ensuresBind (closedReplaceTagMappings viewClosed (viewMaps _) _) fun _ _ =>
    closedOnTables viewClosed ((viewMaps item.row.id).insertSearchDocument _)

/- A creation that commits has added one memory that was not there, and nothing else. -/
theorem insertNewOk {request : CreateValues} (unnamed : request.memoryId = none) {oracle : Oracle ActionError}
    {session after : Session Tables} (ran : insertNew env.actions request oracle session = (.ok memoryId,after)) :
    memoryId = (oracle session.moment).uuid ∧ ¬ session.data.has memoryId ∧ after.data.has memoryId ∧
      (holdings after.data).without [memoryId] = (holdings session.data).without [memoryId] := by
  obtain ⟨now,begun,observed,ran⟩ := bindOk.mp ran
  obtain ⟨item,checked,lifted,ran⟩ := bindOk.mp ran
  obtain ⟨_,committed,written,ran⟩ := bindOk.mp ran
  obtain ⟨rfl,rfl⟩ := pureOk.mp ran
  obtain ⟨given,rfl⟩ := liftOk.mp lifted
  obtain ⟨rfl,rfl⟩ := observeOk.mp observed
  obtain ⟨inside,inner,same⟩ := atomicallyOk written
  obtain ⟨nextRef,looked,first,inner⟩ := bindOk.mp inner
  obtain ⟨_,inserted,second,rest⟩ := bindOk.mp inner
  obtain ⟨unchanged,query,put⟩ := onTablesOk first
  obtain ⟨stored,effect,kept⟩ := onTablesOk second
  cases query
  have named : item.row.id = (oracle session.moment).uuid := by
    unfold prepareMemoryCreate at given
    rw [unnamed] at given
    split at given
    · cases given
    · obtain ⟨_,_,given⟩ := checkedOk.mp given
      obtain ⟨_,_,given⟩ := checkedOk.mp given
      obtain ⟨_,_,given⟩ := checkedOk.mp given
      obtain ⟨_,_,given⟩ := checkedOk.mp given
      split at given <;> cases given
      rfl
  have start : port.tables looked.data = session.data := by
    rw [put]
    rfl
  rw [start] at effect
  unfold insertMemory at effect
  split at effect
  · cases effect
  · rename_i absent
    split at effect <;> cases effect
    have later : View item.row.id inserted.data inside.data :=
      ((viewMapped item).kept rest ((viewMaps _).refl _)).1
    refine ⟨named,absent,?_,?_⟩
    · rw [same,Tables.has,later.2,kept]
      exact List.any_eq_true.mpr ⟨_,List.mem_append_right _ List.mem_cons_self,beq_self_eq_true _⟩
    · rw [same,later.1,kept]
      simp [Holdings.without,holdings,port]

/- One that does not commit has added nothing. -/
theorem insertNewError {request : CreateValues} {oracle : Oracle ActionError} {session after : Session Tables} {error}
    (ran : insertNew env.actions request oracle session = (.error error,after)) : after.data = session.data := by
  unfold insertNew at ran
  rw [bindRuns] at ran
  dsimp only [observe] at ran
  rw [bindRuns] at ran
  dsimp only [lift] at ran
  cases given : prepareMemoryCreate env.actions (oracle session.moment) request with
  | error error =>
    rw [given] at ran
    cases ran
    rfl
  | ok item =>
    rw [given] at ran
    dsimp only at ran
    rw [bindRuns] at ran
    split at ran
    · cases ran
    · rename_i raised
      cases ran
      exact (atomicallyError raised).trans rfl

theorem lookError {oracle : Oracle ActionError} {session after : Session Tables} {seen error}
    (ran : look seen memoryId oracle session = (.error error,after)) : after.data = session.data := statementError ran

/- A memory is read under its own id. -/
theorem lookOwn {oracle : Oracle ActionError} {session after : Session Tables} {found} (there : session.data.has memoryId)
    (ran : look none memoryId oracle session = (.ok found,after)) :
    after.data = session.data ∧ ∃ record, found = some record ∧ record.id = memoryId := by
  obtain ⟨read,same⟩ := lookOk ran
  obtain ⟨row,selected⟩ := Option.isSome_iff_exists.mp (hasIff.mp there)
  obtain ⟨here,named⟩ := foundRow selected
  cases here.symm.trans read
  exact ⟨same,_,rfl,named⟩

/- What a deletion of a memory that is there leaves. -/
theorem deleteRuns {oracle : Oracle ActionError} {session after : Session Tables} {result} (there : session.data.has memoryId)
    (ran : deleteMemory none memoryId oracle session = (result,after)) : match result with
      | .error _ => after.data = session.data
      | .ok _ => holdings after.data = (holdings session.data).without [memoryId] := by
  unfold deleteMemory at ran
  rw [bindRuns] at ran
  rcases looked : look none memoryId oracle session with ⟨error | found,here⟩
  · rw [looked] at ran
    cases ran
    exact lookError looked
  · obtain ⟨start,existing,rfl,named⟩ := lookOwn there looked
    rw [looked] at ran
    dsimp only at ran
    rw [bindRuns] at ran
    rcases written : (atomically do
        onTables port (deleteLinksOf existing.id)
        onTables port (deleteSearchDocuments existing.id)
        onTables port (Memory.deleteMemory existing.id) : Query Unit) oracle here with ⟨error | done,committed⟩
    · rw [written] at ran
      cases ran
      exact (atomicallyError written).trans start
    · rw [written] at ran
      cases ran
      obtain ⟨inside,inner,same⟩ := atomicallyOk written
      obtain ⟨_,unlinked,first,inner⟩ := bindOk.mp inner
      obtain ⟨_,dropped,second,third⟩ := bindOk.mp inner
      obtain ⟨_,effect,put⟩ := onTablesOk first
      cases effect
      obtain ⟨_,effect,kept⟩ := onTablesOk second
      cases effect
      obtain ⟨_,effect,last⟩ := onTablesOk third
      cases effect
      dsimp only
      rw [same,last,kept,put,start,named]
      simp [port,holdings,Holdings.without,List.filter_filter,bne]
      exact ⟨rfl,rfl,rfl,rfl⟩

/- A link leaves all but the memory it leaves from as it was, and all rows. -/
theorem linkRuns {targetId linkType context : String} {oracle : Oracle ActionError} {session after : Session Tables} {result}
    (ran : addLink env.actions memoryId targetId linkType context oracle session = (result,after)) :
    View memoryId session.data after.data := by
  have allowed : ∀ link : MemoryLink, link.sourceId = memoryId → Allows (View memoryId) (replaceLink link) := by
    intro link named t a after ran
    unfold replaceLink at ran
    split at ran <;> cases ran
    refine ⟨?_,rfl⟩
    simp only [Holdings.without,holdings,List.filter_append,Holdings.mk.injEq,true_and]
    rw [Table.filterOut fun old _ hit => ?_]
    · simp [named]
    · cases same : isLink link.sourceId link.targetId link.linkType old with
      | false => rfl
      | true =>
        have source := (linkNamed same).1
        simp [source,named] at hit
  have kept : Ensures (View memoryId session.data) (addLink env.actions memoryId targetId linkType context) fun _ => True :=
    ensuresBind (ensuresLift _) fun linkType _ => ensuresBind (ensuresCommitted fun oracle session a after ran start =>
      ((closedOnTables viewClosed (allowed ⟨memoryId,targetId,linkType,strip context⟩ rfl)).kept ran start).1) fun _ _ =>
      ensuresPure trivial
  have ending := (kept oracle session ((viewMaps memoryId).refl _)).1
  rwa [ran] at ending

theorem anyWithout (h : Holdings) {ids : List String} {other : String} (apart : other ∉ ids) :
    (h.without ids).memories.any (·.id == other) = h.memories.any (·.id == other) := by
  rw [Bool.eq_iff_iff,List.any_eq_true,List.any_eq_true]
  constructor
  · rintro ⟨row,member,named⟩
    exact ⟨row,(List.mem_filter.mp member).1,named⟩
  · rintro ⟨row,member,named⟩
    exact ⟨row,List.mem_filter.mpr ⟨member,by simpa [beq_iff_eq.mp named] using apart⟩,named⟩

/- Where two tables agree but for some memories, they have the same others. -/
theorem sameHas {before after : Tables} {ids : List String} (same : (holdings after).without ids = (holdings before).without ids)
    {other : String} (apart : other ∉ ids) : after.has other = before.has other :=
  (anyWithout (holdings after) apart).symm.trans ((congrArg (fun h : Holdings => h.memories.any (·.id == other)) same).trans
    (anyWithout (holdings before) apart))

theorem withoutHas {before after : Tables} {ids : List String} (left : holdings after = (holdings before).without ids)
    {other : String} (apart : other ∉ ids) (there : before.has other) : after.has other :=
  (congrArg (fun h : Holdings => h.memories.any (·.id == other)) left).trans ((anyWithout (holdings before) apart).trans there)

/- The parts that are known to the code are there, each under an id of its own. -/
structure Known (created : List MemoryRecord) (data : Tables) : Prop where
  apart : (created.map (·.id)).Nodup
  there : ∀ record ∈ created, data.has record.id

theorem knownRest {record : MemoryRecord} {rest : List MemoryRecord} {before after : Tables} (known : Known (record :: rest) before)
    (left : holdings after = (holdings before).without [record.id]) : Known rest after := by
  obtain ⟨new,apart⟩ := List.nodup_cons.mp known.apart
  refine ⟨apart,fun other member => withoutHas left (fun same => new ?_) (known.there other (List.mem_cons_of_mem _ member))⟩
  exact List.mem_map.mpr ⟨other,member,List.mem_singleton.mp same⟩

/- The exception goes on, or that of a deletion does. Either all the parts are gone or one is left. -/
theorem discardRuns (error : ActionError) {oracle : Oracle ActionError} {created : List MemoryRecord} {session : Session Tables}
    (known : Known created session.data) : (Curation.discard error created).Ends (performService env) oracle
      (fun result after => (∃ raised, result = .error raised) ∧
        (Discards oracle created session → holdings after.data = (holdings session.data).without (created.map (·.id))) ∧
        (¬ Discards oracle created session → ∃ record ∈ created, after.data.has record.id) ∧
        ∀ other, other ∉ created.map (·.id) → session.data.has other → after.data.has other) session := by
  induction created generalizing session with
  | nil => exact ⟨⟨error,rfl⟩,fun _ => (withoutNil _).symm,fun none => absurd trivial none,fun _ _ there => there⟩
  | cons record rest ih =>
    have there := known.there record List.mem_cons_self
    rw [Curation.discard]
    refine endsCall (fun raised after ran => ?_) fun gone after ran => ?_
    · replace ran : deleteMemory none record.id oracle session = (.error raised,after) := ran
      have same : after.data = session.data := deleteRuns there ran
      have stops : ¬ Discards oracle (record :: rest) session := by
        unfold Discards
        rw [ran]
        exact not_false
      exact ⟨⟨raised,rfl⟩,fun done => absurd done stops,fun _ => ⟨record,List.mem_cons_self,same ▸ there⟩,
        fun _ _ here => same ▸ here⟩
    · replace ran : deleteMemory none record.id oracle session = (.ok gone,after) := ran
      have left : holdings after.data = (holdings session.data).without [record.id] := deleteRuns there ran
      have goes : Discards oracle (record :: rest) session ↔ Discards oracle rest after := by
        rw [Discards,ran]
      obtain ⟨raised,gone,stays,others⟩ := ih (knownRest known left)
      refine ⟨raised,fun done => ?_,fun none => ?_,fun other apart here => ?_⟩
      · rw [gone (goes.mp done),left,← withoutAppend]
        rfl
      · obtain ⟨other,member,here⟩ := stays fun done => none (goes.mpr done)
        exact ⟨other,List.mem_cons_of_mem _ member,here⟩
      · obtain ⟨new,apart⟩ := not_or.mp (List.mem_cons.not.mp apart)
        exact others other apart (withoutHas left (fun same => new (List.mem_singleton.mp same)) here)

/- But for the parts made so far, all is as it was. -/
structure Progress (t : Tables) (created : List MemoryRecord) (data : Tables) : Prop extends Known created data where
  rest : (holdings data).without (created.map (·.id)) = holdings t

theorem withoutComm (h : Holdings) (first rest : List String) : (h.without first).without rest = (h.without rest).without first := by
  simp only [Holdings.without,List.filter_filter,Holdings.mk.injEq]
  refine ⟨?_,?_,?_,?_⟩ <;> exact List.filter_congr fun row _ => Bool.and_comm _ _

section
variable {created : List MemoryRecord} {data after : Tables} {record : MemoryRecord}

theorem progressFresh (progress : Progress t created data) (member : record ∈ created) : ¬ t.has record.id := by
  intro there
  obtain ⟨row,held,named⟩ := List.any_eq_true.mp there
  have rows : t.memories = data.memories.filter fun row => !(created.map (·.id)).contains row.id :=
    (congrArg Holdings.memories progress.rest).symm
  rw [rows] at held
  have kept := (List.mem_filter.mp held).2
  rw [beq_iff_eq.mp named] at kept
  simp only [List.contains_eq_mem,List.mem_map_of_mem member,decide_true,Bool.not_true] at kept
  cases kept

theorem progressAbsent (progress : Progress t created data) (absent : ¬ data.has memoryId) : ¬ t.has memoryId := by
  intro there
  obtain ⟨row,held,named⟩ := List.any_eq_true.mp there
  have rows : t.memories = data.memories.filter fun row => !(created.map (·.id)).contains row.id :=
    (congrArg Holdings.memories progress.rest).symm
  rw [rows] at held
  exact absent (List.any_eq_true.mpr ⟨row,(List.mem_filter.mp held).1,named⟩)

theorem progressApart (progress : Progress t created data) (absent : ¬ data.has memoryId) : memoryId ∉ created.map (·.id) := by
  intro member
  obtain ⟨other,there,rfl⟩ := List.mem_map.mp member
  exact absent (progress.there other there)

/- One more part. -/
theorem progressNew (progress : Progress t created data) (unused : Unused t record.id) (absent : ¬ data.has record.id)
    (there : after.has record.id) (same : (holdings after).without [record.id] = (holdings data).without [record.id]) :
    Progress t (created ++ [record]) after where
  apart := by
    rw [List.map_append]
    exact List.nodup_append.mpr ⟨progress.apart,List.nodup_singleton _,fun a first b last same => by
      obtain rfl := List.mem_singleton.mp last
      replace same : a = record.id := same
      exact progressApart progress absent (same ▸ first)⟩
  there other member := by
    rcases List.mem_append.mp member with before | new
    · have here := progress.there other before
      have apart : other.id ∉ [record.id] := fun same => absent (List.mem_singleton.mp same ▸ here)
      rwa [sameHas same apart]
    · cases List.mem_singleton.mp new
      exact there
  rest := by
    rw [List.map_append,withoutAppend,withoutComm]
    show ((holdings after).without [record.id]).without _ = _
    rw [same,withoutComm,progress.rest,withoutUnused unused (progressAbsent progress absent)]

theorem withoutTwice (h : Holdings) {ids : List String} (member : memoryId ∈ ids) :
    (h.without [memoryId]).without ids = h.without ids := by
  have apart : ∀ {other : String}, (!ids.contains other) = true → (!([memoryId].contains other)) = true := fun {other} kept => by
    have differs : other ≠ memoryId := fun same => by
      subst same
      simp [member] at kept
    simpa using differs
  simp only [Holdings.without,Holdings.mk.injEq]
  refine ⟨Table.filterOut fun _ _ hit => apart hit,Table.filterOut fun _ _ hit => apart hit,
    Table.filterOut fun _ _ hit => apart hit,Table.filterOut fun _ _ hit => ?_⟩
  obtain ⟨source,target⟩ := Bool.and_eq_true_iff.mp hit
  exact Bool.and_eq_true_iff.mpr ⟨apart source,apart target⟩

/- Links of the parts change nothing else. -/
theorem progressView (progress : Progress t created data) (member : record ∈ created) (view : View record.id data after) :
    Progress t created after := by
  have rows : ∀ other, after.has other = data.has other := fun other => by rw [Tables.has,view.2,Tables.has]
  refine ⟨⟨progress.apart,fun other there => (rows other.id).trans (progress.there other there)⟩,?_⟩
  have named : record.id ∈ created.map (·.id) := List.mem_map_of_mem member
  rw [← withoutTwice _ named,view.1,withoutTwice _ named]
  exact progress.rest

end

/- A memory is left that was not there before. -/
def Left (t data : Tables) : Prop := ∃ memoryId, data.has memoryId ∧ ¬ t.has memoryId

theorem leftDiffers {data : Tables} (left : Left t data) : holdings data ≠ holdings t := by
  obtain ⟨memoryId,there,absent⟩ := left
  exact fun same => absent ((congrArg (fun h : Holdings => h.memories.any (·.id == memoryId)) same).symm.trans there)

/- The `except` clause, where the code knows all the parts. -/
theorem discardEnds (error : ActionError) {oracle : Oracle ActionError} {created : List MemoryRecord} {session : Session Tables}
    (progress : Progress t created session.data) : (Curation.discard error created).Ends (performService env) oracle
      (fun result after => (∃ raised, result = .error raised) ∧
        (Discards oracle created session → holdings after.data = holdings t) ∧
        (¬ Discards oracle created session → Left t after.data)) session := by
  obtain ⟨raised,gone,stays,_⟩ := @discardRuns env error oracle created session progress.toKnown
  refine ⟨raised,fun done => (gone done).trans progress.rest,fun none => ?_⟩
  obtain ⟨record,member,there⟩ := stays none
  exact ⟨record.id,there,progressFresh progress member⟩

/- And where there is one that it does not know. -/
theorem discardLeaves (error : ActionError) {oracle : Oracle ActionError} {created : List MemoryRecord} {session : Session Tables}
    (known : Known created session.data) (apart : memoryId ∉ created.map (·.id)) (there : session.data.has memoryId)
    (absent : ¬ t.has memoryId) : (Curation.discard error created).Ends (performService env) oracle
      (fun result after => (∃ raised, result = .error raised) ∧ Left t after.data) session := by
  obtain ⟨raised,_,_,others⟩ := @discardRuns env error oracle created session known
  exact ⟨raised,memoryId,others memoryId apart there,absent⟩

/- Where the loop ends: with all the parts made, or with an exception. -/
def LoopEnds (t : Tables) (undoes : Prop) (count : Nat) (result : Except ActionError (List MemoryRecord))
    (after : Session Tables) : Prop := match result with
  | .error _ => (undoes → holdings after.data = holdings t) ∧ (¬ undoes → Left t after.data)
  | .ok made => Progress t made after.data ∧ made.length = count ∧ ¬ undoes

theorem loopError {undoes : Prop} {count : Nat} {script : Curation.Service (List MemoryRecord)} {oracle : Oracle ActionError}
    {session : Session Tables} (ends : script.Ends (performService env) oracle
      (fun result after => (∃ raised, result = .error raised) ∧ (undoes → holdings after.data = holdings t) ∧
        (¬ undoes → Left t after.data)) session) :
    script.Ends (performService env) oracle (LoopEnds t undoes count) session := by
  obtain ⟨⟨raised,same⟩,ending⟩ := ends
  unfold Script.Ends
  rw [same]
  exact ending

theorem createRuns {oracle : Oracle ActionError} (fresh : ∀ moment, Unused t (oracle moment).uuid) (plan : Plan)
    {created : List MemoryRecord} (parts : List SplitPart) {session : Session Tables} (progress : Progress t created session.data) :
    (Curation.createParts plan.original plan.linkType plan.linkContext created parts).Ends (performService env) oracle
      (LoopEnds t (Undoes env oracle plan created parts session) (created.length + parts.length)) session := by
  induction parts generalizing created session with
  | nil => exact ⟨progress,rfl,not_false⟩
  | cons part rest ih =>
    have reads : ∀ {result after}, performService env (.createMemory part.values) oracle session = (result,after) →
        (insertNew env.actions part.values >>= getMemory) oracle session = (result,after) := fun ran =>
      (congrFun (congrFun (createReads env.actions part.values) oracle) session).symm.trans ran
    rw [Curation.createParts]
    rcases stored : insertNew env.actions part.values oracle session with ⟨failed | memoryId,middle⟩
    · have same := insertNewError stored
      have undoes : Undoes env oracle plan created (part :: rest) session = Discards oracle created middle := by
        rw [Undoes,stored]
      rw [undoes]
      refine endsCall (fun raised after ran => ?_) fun found after ran => ?_
      · have ran := reads ran
        rw [bindRuns,stored] at ran
        cases ran
        exact loopError (discardEnds _ (same ▸ progress))
      · have ran := reads ran
        rw [bindRuns,stored] at ran
        cases ran
    · obtain ⟨given,absent,there,beside⟩ := insertNewOk rfl stored
      have apart := progressApart progress absent
      have unused : Unused t memoryId := given ▸ fresh session.moment
      refine endsCall (fun raised after ran => ?_) fun found after ran => ?_
      · -- the part is there, but the code does not know it
        have ran := reads ran
        rw [bindRuns,stored] at ran
        replace ran : getMemory memoryId oracle middle = (.error raised,after) := ran
        have undoes : Undoes env oracle plan created (part :: rest) session = False := by
          rw [Undoes,stored]
          dsimp only
          rw [ran]
        rw [undoes]
        have same := lookError ran
        have known : Known created after.data := ⟨progress.apart,fun record member => by
          rw [same,sameHas beside fun here => apart (List.mem_singleton.mp here ▸ List.mem_map_of_mem member)]
          exact progress.there record member⟩
        obtain ⟨ended,left⟩ := @discardLeaves env t memoryId raised oracle created after known apart (same ▸ there)
          (progressAbsent progress absent)
        exact loopError ⟨ended,False.elim,fun _ => left⟩
      · have ran := reads ran
        rw [bindRuns,stored] at ran
        replace ran : getMemory memoryId oracle middle = (.ok found,after) := ran
        obtain ⟨same,record,rfl,rfl⟩ := lookOwn there ran
        have grown : Progress t (created ++ [record]) after.data :=
          progressNew progress unused absent (same ▸ there) (by rw [same,beside])
        have last : record ∈ created ++ [record] := List.mem_append_right _ List.mem_cons_self
        refine endsCall (fun raised linked ran' => ?_) fun link linked ran' => ?_
        · replace ran' : addLink env.actions record.id plan.original.id plan.linkType plan.linkContext oracle after =
            (.error raised,linked) := ran'
          have undoes : Undoes env oracle plan created (part :: rest) session = Discards oracle (created ++ [record]) linked := by
            rw [Undoes,stored]
            dsimp only
            rw [ran]
            dsimp only
            rw [ran']
          rw [undoes]
          exact loopError (discardEnds raised (progressView grown last (linkRuns ran')))
        · replace ran' : addLink env.actions record.id plan.original.id plan.linkType plan.linkContext oracle after =
            (.ok link,linked) := ran'
          have undoes : Undoes env oracle plan created (part :: rest) session =
              Undoes env oracle plan (created ++ [record]) rest linked := by
            rw [Undoes,stored]
            dsimp only
            rw [ran]
            dsimp only
            rw [ran']
          have counted : created.length + (part :: rest).length = (created ++ [record]).length + rest.length := by
            simp only [List.length_append,List.length_cons,List.length_nil]
            omega
          rw [undoes,counted]
          exact ih (progressView grown last (linkRuns ran'))

theorem updateHas {changes : Curation.UpdateValues} {oracle : Oracle ActionError} {session after : Session Tables} {result}
    (ran : updateMemory env.actions none memoryId changes oracle session = (result,after)) (other : String) :
    after.data.has other = session.data.has other := by
  have ended : (updateMemory env.actions none memoryId changes oracle session).2 = after := congrArg Prod.snd ran
  have rows := @updateRows env.actions none memoryId changes oracle session
  rw [ended] at rows
  rcases rows with same | ⟨existing,revised,now,_,_,rows⟩
  · exact hasSame same other
  · unfold Tables.has
    rw [rows,Table.update,List.any_map]
    refine congrArg (List.any _) (funext fun row => ?_)
    show ((if row.id == existing.id then revise env.actions existing changes revised now row else row).id == other) = _
    split <;> rfl

theorem leftKept {before after : Tables} (same : ∀ other, after.has other = before.has other) (left : Left t before) : Left t after := by
  obtain ⟨memoryId,there,absent⟩ := left
  exact ⟨memoryId,(same memoryId).trans there,absent⟩

theorem refreshLeaves {childIds : List String} {oracle : Oracle ActionError} (created : List MemoryRecord) {session : Session Tables}
    (left : Left t session.data) : (Curation.refreshParts childIds created).Ends (performService env) oracle
      (fun _ after => Left t after.data) session := by
  induction created generalizing session with
  | nil => exact left
  | cons record rest ih =>
    refine endsAsk (fun _ _ ran => leftKept (updateHas ran) left) fun refreshed after ran => endsThen ?_
    refine endsMono (fun result later left => ?_) (ih (leftKept (updateHas ran) left))
    cases result <;> exact left

theorem partsCount {group : Curation.SplitGroup} {raw : List Json} {index : Nat} {parts : List SplitPart}
    (normalized : Curation.normalizedParts env group index raw = .ok (some parts)) : parts.length = raw.length := by
  induction raw generalizing index parts with
  | nil =>
    cases normalized
    rfl
  | cons part rest ih =>
    obtain ⟨first,made,normalized⟩ := checkedOk.mp normalized
    cases first with
    | none => cases normalized
    | some first =>
      obtain ⟨others,made,normalized⟩ := checkedOk.mp normalized
      obtain ⟨others,rfl,rfl⟩ := Option.map_eq_some_iff.mp (Except.ok.inj normalized)
      exact congrArg (· + 1) (ih made)

/- What holds wherever a split ends. -/
structure SplitEnds (call : SplitCall) (t : Tables) (result : Except ActionError Answer) (after : Session Tables) : Prop where
  before : (∀ plan session, ¬ Prepares env call t plan session) → holdings after.data = holdings t
  undone : ∀ plan session, Prepares env call t plan session → Undoes env call.oracle plan [] plan.parts session →
    holdings after.data = holdings t
  left : ∀ plan session, Prepares env call t plan session → ¬ Undoes env call.oracle plan [] plan.parts session →
    isOk result = true ∨ Left t after.data

theorem preparesOnce {call : SplitCall} {plan other : Plan} {session later : Session Tables} (first : Prepares env call t plan session)
    (second : Prepares env call t other later) : other = plan ∧ later = session := by
  obtain ⟨original,linkType,linkContext,parts⟩ := plan
  obtain ⟨otherOriginal,otherType,otherContext,otherParts⟩ := other
  obtain ⟨_,_,_,_,read,looked,_,type,context,_,normalized,rfl,rfl⟩ := first
  obtain ⟨_,_,_,_,readToo,lookedToo,_,typeToo,contextToo,_,normalizedToo,rfl,rfl⟩ := second
  cases read.symm.trans readToo
  cases looked.symm.trans lookedToo
  cases type.symm.trans typeToo
  cases context.symm.trans contextToo
  cases normalized.symm.trans normalizedToo
  exact ⟨rfl,rfl⟩

theorem endsEarly {call : SplitCall} {result : Except ActionError Answer} {after : Session Tables} (same : after.data = t)
    (none : ∀ plan session, ¬ Prepares env call t plan session) : @SplitEnds env call t result after where
  before _ := congrArg holdings same
  undone _ _ _ _ := congrArg holdings same
  left plan session prepares := absurd prepares (none plan session)

theorem endsLate {call : SplitCall} {plan : Plan} {session after : Session Tables} {result : Except ActionError Answer}
    (prepares : Prepares env call t plan session)
    (undone : Undoes env call.oracle plan [] plan.parts session → holdings after.data = holdings t)
    (left : ¬ Undoes env call.oracle plan [] plan.parts session → isOk result = true ∨ Left t after.data) :
    @SplitEnds env call t result after where
  before none := absurd prepares (none plan session)
  undone other later here undoes := by
    obtain ⟨rfl,rfl⟩ := preparesOnce prepares here
    exact undone undoes
  left other later here undoes := by
    obtain ⟨rfl,rfl⟩ := preparesOnce prepares here
    exact left undoes

theorem splitEnds {call : SplitCall} (fresh : ∀ moment, Unused t (call.oracle moment).uuid) :
    @SplitEnds env call t (playSplit env call t).1 (playSplit env call t).2 := by
  show (Curation.splitMemoryRecord env call.groupId call.arguments).Ends (performService env) call.oracle
    (@SplitEnds env call t) ⟨t,0⟩
  unfold Curation.splitMemoryRecord
  refine endsCheck (fun error raised => endsEarly rfl ?_) fun memoryId read => endsAsk (fun error after ran => endsEarly (lookSame ran) ?_)
    fun original session ran => ?_
  · rintro plan session ⟨_,_,_,_,given,_⟩
    cases raised.symm.trans given
  · rintro plan session ⟨_,_,_,_,given,looked,_⟩
    cases read.symm.trans given
    cases ran.symm.trans looked
  have start : session.data = t := lookSame ran
  -- another plan has the same memory
  have looks : ∀ {other later}, Prepares env call t other later → original = some other.original := by
    rintro other later ⟨_,_,_,_,given,looked,_⟩
    cases read.symm.trans given
    cases ran.symm.trans looked
    rfl
  cases original with
  | none => exact endsPure (endsEarly start fun _ _ prepares => by cases looks prepares)
  | some original =>
    dsimp only
    split
    · rename_i few
      exact endsPure (endsEarly start fun _ _ prepares => by
        obtain ⟨_,_,_,_,_,_,enough,_⟩ := prepares
        omega)
    · rename_i enough
      refine endsCheck (fun error raised => endsEarly start ?_) fun linkType type => endsCheck (fun error raised => endsEarly start ?_)
        fun linkContext context => endsCheck (fun error raised => endsEarly start ?_) fun archiveOriginal archive =>
        endsCheck (fun error raised => endsEarly start ?_) fun parts normalized => ?_
      · rintro plan session ⟨_,_,_,_,_,_,_,given,_⟩
        cases raised.symm.trans given
      · rintro plan session ⟨_,_,_,_,_,_,_,_,given,_⟩
        cases raised.symm.trans given
      · rintro plan session ⟨_,_,_,_,_,_,_,_,_,given,_⟩
        cases raised.symm.trans given
      · intro plan session prepares
        cases looks prepares
        obtain ⟨_,_,_,_,_,_,_,_,_,_,given,_⟩ := prepares
        cases raised.symm.trans given
      cases parts with
      | none =>
        refine endsPure (endsEarly start fun plan session prepares => ?_)
        cases looks prepares
        obtain ⟨_,_,_,_,_,_,_,_,_,_,given,_⟩ := prepares
        cases normalized.symm.trans given
      | some parts =>
        have prepares : Prepares env call t ⟨original,orText linkType "DEPENDS_ON",orText linkContext
            "Derived from an oversized memory split by internal maintenance tools.",parts⟩ session :=
          ⟨_,_,_,_,read,ran,by omega,type,context,archive,normalized,rfl,rfl⟩
        have begun : Progress t [] session.data := ⟨⟨List.nodup_nil,fun _ member => by cases member⟩,by
          rw [start]
          exact withoutNil _⟩
        refine endsThen (endsMono (fun result after looped => ?_) (createRuns fresh ⟨original,_,_,parts⟩ parts begun))
        cases result with
        | error error => exact endsLate prepares looped.1 fun undoes => .inr (looped.2 undoes)
        | ok made =>
          obtain ⟨progress,count,loops⟩ := looped
          have some : ∃ record, record ∈ made := by
            refine List.exists_mem_of_length_pos ?_
            have enough := partsCount normalized
            simp only [List.length_nil] at count
            omega
          obtain ⟨record,member⟩ := some
          have left : Left t after.data := ⟨record.id,progress.there record member,progressFresh progress member⟩
          have late : ∀ (result : Except ActionError Answer) (last : Session Tables), Left t last.data →
              @SplitEnds env call t result last := fun _ _ left =>
            endsLate prepares (fun undoes => absurd undoes loops) fun _ => .inr left
          refine endsThen (endsMono (fun result after left => ?_) (refreshLeaves made left))
          cases result with
          | error error => exact late _ _ left
          | ok refreshed =>
            refine endsAsk (fun _ _ ran => late _ _ (leftKept (updateHas ran) left)) fun updated last ran => ?_
            have left : Left t last.data := leftKept (updateHas ran) left
            exact endsThen (endsCheck (fun _ _ => late _ _ left) fun _ _ => endsPure (endsCheck (fun _ _ => late _ _ left)
              fun _ _ => endsCheck (fun _ _ => late _ _ left) fun _ _ => endsCheck (fun _ _ => late _ _ left)
              fun _ _ => late _ _ left))

/-- A split that fails is taken back where it fails before the first part, or in making or linking
one, with nothing written that the code does not know and every deletion done; and only there. -/
theorem splitUndone {call : SplitCall} (fresh : ∀ moment, Unused t (call.oracle moment).uuid) :
    AllOrNothing env call t ↔ (Fails env call t → Undone env call t) := by
  have ends := @splitEnds env t call fresh
  constructor
  · intro whole fails plan session prepares
    by_contra undoes
    rcases ends.left plan session prepares undoes with succeeds | left
    · exact absurd (fails.symm.trans succeeds) (by decide)
    · exact leftDiffers left (whole fails)
  · intro undone fails
    by_cases prepared : ∃ plan session, Prepares env call t plan session
    · obtain ⟨plan,session,prepares⟩ := prepared
      exact ends.undone plan session prepares (undone fails plan session prepares)
    · exact ends.before fun plan session prepares => prepared ⟨plan,session,prepares⟩

/- A note in two parts, and a database that is locked at one moment. -/

def lockedAt (moment : Nat) : Oracle ActionError := fun now =>
  ⟨if now = moment then some (.other "OperationalError: database is locked") else none,if now < 10 then "c" else "d","t1",0⟩

def notePart (text : String) : Json := .obj [("title",.str text),("content",.str text)]

def splitAt (moment : Nat) : SplitCall :=
  ⟨[("memory_id",.str "a"),("parts",.arr [notePart "kept",notePart "as well"])],"group",lockedAt moment⟩

theorem lockedUnused (moment now : Nat) : Unused twoNotes ((splitAt moment).oracle now).uuid := by
  have named : ((splitAt moment).oracle now).uuid = "c" ∨ ((splitAt moment).oracle now).uuid = "d" := by
    show (if now < 10 then "c" else "d") = "c" ∨ (if now < 10 then "c" else "d") = "d"
    split
    · exact .inl rfl
    · exact .inr rfl
  rcases named with named | named <;>
  · rw [named]
    exact ⟨by decide,by decide,by decide⟩

/- The second part cannot be written, and the first is taken back. -/
theorem splitUndoneSample : Fails Curation.asciiTools (splitAt 14) twoNotes ∧
    (AllOrNothing Curation.asciiTools (splitAt 14) twoNotes ↔
      (Fails Curation.asciiTools (splitAt 14) twoNotes → Undone Curation.asciiTools (splitAt 14) twoNotes)) :=
  ⟨by decide +kernel,splitUndone (lockedUnused 14)⟩

theorem heldRows {before after : Tables} (same : holdings after = holdings before) : after.memories = before.memories :=
  congrArg Holdings.memories same

/- The original cannot be updated, or the first part cannot be read back. -/
theorem splitLeaves : ¬ AllOrNothing Curation.asciiTools (splitAt 44) twoNotes ∧
    ¬ AllOrNothing Curation.asciiTools (splitAt 9) twoNotes := by
  have updating : Fails Curation.asciiTools (splitAt 44) twoNotes ∧
      (playSplit Curation.asciiTools (splitAt 44) twoNotes).2.data.memories.length = 4 := by decide +kernel
  have reading : Fails Curation.asciiTools (splitAt 9) twoNotes ∧
      (playSplit Curation.asciiTools (splitAt 9) twoNotes).2.data.memories.length = 3 := by decide +kernel
  exact ⟨fun whole => absurd (updating.2.symm.trans (congrArg List.length (heldRows (whole updating.1)))) (by decide),
    fun whole => absurd (reading.2.symm.trans (congrArg List.length (heldRows (whole reading.1)))) (by decide)⟩

end McpMemory.Relational.Split
