import McpMemory.Curation.Metadata
import McpMemory.Relational.Merging

/-! Additions to memories: `internal_append_memory_content`, which appends to the content and merges
metadata, workspaces and tags, and `append_workspace_ids`. Each reads a record, adds to what it read and
writes in a transaction of its own; others may write between. -/
namespace McpMemory.Relational.Append
open Memory Text Transaction Interleave
open Curation (ActionError UpdateValues repositoryMemory requireString optionalString stringList ifGiven optionalObject
  normalizeTags pythonText appendContent mergeMemoryMetadata memoryWriteQualityError internalMutationRecordPayload)

variable (env : Curation.ToolEnv)

inductive Addition where
  | append (arguments : Json.Object)
  | workspaces (memoryId : String) (workspaceIds : List String)

/- What the service writes, once it has read the record; none where it rejects the content. -/
def appendUpdate (record : MemoryRecord) (arguments : Json.Object) (content : String) :
    Except ActionError (Option UpdateValues) := do
  let summary ← optionalString arguments "summary"
  if (memoryWriteQualityError env record.title content summary).isSome then .ok none
  else do
    let tags := match Json.get arguments "tags" with
      | some (.arr tags) => normalizeTags env (record.tags ++ tags.map (pythonText env))
      | _ => record.tags
    let workspaceIds ← ifGiven stringList arguments "workspace_ids"
    let override ← optionalObject arguments "metadata"
    .ok (some { UpdateValues.nothing with
      content := some (some (appendContent record.content content))
      summary := some summary
      tags := some tags
      workspaceIds := match workspaceIds with
        | some (first::rest) => some (sortedSet (record.workspaceIds ++ first::rest))
        | _ => none
      metadata := override.map (mergeMemoryMetadata record.metadata) })

/- The notes for an ingest task and the payload of the answer come after the write. -/
def concluded (arguments : Json.Object) (updated : MemoryRecord) : Except ActionError Json := do
  let _ ← optionalString arguments "task_id"
  internalMutationRecordPayload updated

/- The transaction of `append_workspace_ids`. -/
def writeWorkspaces (memoryId : String) (workspaceIds : List String) : Query Unit := do
  replaceWorkspaceMappings memoryId workspaceIds
  let now ← observe
  onTables port (Memory.updateMemory memoryId fun row => { row with updatedAt := now.text })

def appendWorkspaceIds (record : MemoryRecord) (workspaceIds : List String) : Query (Option MemoryRecord) := do
  atomically (writeWorkspaces record.id (normalizeValues (record.workspaceIds ++ normalizeValues workspaceIds)))
  getMemory record.id

/- Where a call is: the row is read first, its workspaces and tags next, and the repository looks for
the row again before the transaction. -/
inductive Phase where
  | begun
  | selected (row : MemoryRow)
  | read (record : MemoryRecord)
  | looked (record : MemoryRecord) (seen : Tables)
  | answered (memoryId : String)
  | ended

structure Client where
  addition : Addition
  oracle : Oracle ActionError
  moment : Nat
  phase : Phase

def Client.to (client : Client) (phase : Phase) (after : Session Tables) : Client × Tables :=
  ({ client with moment := after.moment, phase := phase },after.data)

/- The arguments that are read before anything else. -/
def named : Addition → Except ActionError String
  | .append arguments => do
    let memoryId ← requireString arguments "memory_id"
    let _ ← requireString arguments "content"
    .ok memoryId
  | .workspaces memoryId _ => .ok memoryId

def begin (client : Client) (t : Tables) : Client × Tables :=
  match named client.addition with
  | .error _ => client.to .ended ⟨t,client.moment⟩
  | .ok memoryId => match getMemory memoryId client.oracle ⟨t,client.moment⟩ with
    | (.ok (some record),after) => client.to (.selected record.toMemoryRow) after
    | (_,after) => client.to .ended after

/- Without a workspace to add, `append_workspace_ids` writes nothing. -/
def prepareAddition (client : Client) (record : MemoryRecord) (t : Tables) : Phase := match client.addition with
  | .append arguments => match requireString arguments "content" with
    | .error _ => .ended
    | .ok content => match appendUpdate env record arguments content with
      | .ok (some _) => .looked record t
      | _ => .ended
  | .workspaces _ workspaceIds => if (normalizeValues workspaceIds).isEmpty then .answered record.id else .looked record t

def writeAddition (client : Client) (record : MemoryRecord) (seen t : Tables) : Client × Tables := match client.addition with
  | .append arguments => match requireString arguments "memory_id",requireString arguments "content" with
    | .ok memoryId,.ok content => match appendUpdate env record arguments content with
      | .ok (some changes) => match updateMemory env.actions (some seen) memoryId changes client.oracle ⟨t,client.moment⟩ with
        | (.ok (some updated),after) => client.to (match concluded arguments updated with
          | .ok _ => .answered updated.id
          | .error _ => .ended) after
        | (_,after) => client.to .ended after
      | _ => client.to .ended ⟨t,client.moment⟩
    | _,_ => client.to .ended ⟨t,client.moment⟩
  | .workspaces _ workspaceIds => match appendWorkspaceIds record workspaceIds client.oracle ⟨t,client.moment⟩ with
    | (.ok (some updated),after) => client.to (.answered updated.id) after
    | (_,after) => client.to .ended after

def advance (client : Client) (t : Tables) : Client × Tables := match client.phase with
  | .begun => begin client t
  | .selected row => client.to (.read (hydrateRecord t row)) ⟨t,client.moment⟩
  | .read record => client.to (prepareAddition env client record t) ⟨t,client.moment⟩
  | .looked record seen => writeAddition env client record seen t
  | .answered _ | .ended => (client,t)

def machine : Machine (Addition × Oracle ActionError) Client Tables Empty where
  enter op := ⟨op.1,op.2,0,.begun⟩
  step client t := let after := advance env client t; (after.1,after.2,[])

/- What an addition asks to be there. -/

def asksText : Addition → Option String
  | .append arguments => (requireString arguments "content").toOption
  | .workspaces _ _ => none

def asksMetadata : Addition → Option Json.Object
  | .append arguments => (optionalObject arguments "metadata").toOption.join
  | .workspaces _ _ => none

def asksWorkspaces : Addition → List String
  | .append arguments => (stringList arguments "workspace_ids").toOption.getD []
  | .workspaces _ workspaceIds => normalizeValues workspaceIds

structure Kept (addition : Addition) (memoryId : String) (t : Tables) : Prop where
  content : ∀ text, asksText addition = some text → ∃ row, selectRow memoryId t = some row ∧ contains row.content text = true
  metadata : ∀ override, asksMetadata addition = some override → ∀ key items, Json.get override key = some (.arr items) →
    ∃ row, selectRow memoryId t = some row ∧ ∀ item ∈ items, item ∈ Json.items (Json.get row.metadata key)
  workspaces : ∀ workspaceId ∈ asksWorkspaces addition, (memoryId,workspaceId) ∈ t.workspaces

/- Lists that `_merge_metadata_lists` joins without losing an element: numbers, clean texts, or of any other
kind and within each other; and no list gives way to something else. -/
def Joins : Option Json → Json → Prop
  | some (.arr current),.arr value => (current ++ value).all (Curation.asInt · |>.isSome) = true ∨
      (current ++ value).all (Curation.asText · |>.isSome) = true ∧
        (∀ text ∈ (current ++ value).filterMap Curation.asText, strip text = text ∧ text ≠ "") ∨
      (current ++ value).all (Curation.asInt · |>.isSome) = false ∧
        (current ++ value).all (Curation.asText · |>.isSome) = false ∧ current ⊆ value
  | some (.arr current),_ => current = []
  | _,_ => True

def joinValues : Option Json → Json → Json
  | some (.arr current),.arr value => .arr (Curation.mergeMetadataLists current value)
  | _,value => value

theorem joinsKeep {current : Option Json} {value : Json} (joins : Joins current value) :
    ∀ item ∈ Json.items current ++ Json.items (some value), item ∈ Json.items (some (joinValues current value)) := by
  intro item member
  rcases current with _ | current
  · exact member
  · cases current with
    | arr current =>
      cases value with
      | arr value =>
        show item ∈ Curation.mergeMetadataLists current value
        have member : item ∈ current ++ value := member
        unfold Curation.mergeMetadataLists
        dsimp only
        rcases joins with numbers | ⟨texts,clean⟩ | ⟨numbers,texts,within⟩
        · rw [if_pos numbers]
          have number := List.all_eq_true.mp numbers item member
          cases item with
          | int value =>
            exact List.mem_map_of_mem (List.mem_insertionSort _ |>.mpr (List.mem_dedup.mpr (List.mem_filterMap.mpr ⟨_,member,rfl⟩)))
          | null | bool | str | arr | obj => cases number
        · have known := List.all_eq_true.mp texts item member
          cases item with
          | str text =>
            have other : ¬ (current ++ value).all (Curation.asInt · |>.isSome) = true := fun numbers => by
              cases List.all_eq_true.mp numbers _ member
            have listed : text ∈ (current ++ value).filterMap Curation.asText := List.mem_filterMap.mpr ⟨_,member,rfl⟩
            obtain ⟨same,full⟩ := clean text listed
            rw [if_neg other,if_pos texts]
            refine List.mem_map_of_mem (memSortedSet.mpr (List.mem_filter.mpr ⟨List.mem_map.mpr ⟨text,listed,same⟩,?_⟩))
            exact bne_iff_ne.mpr full
          | null | bool | int | arr | obj => cases known
        · rw [if_neg (by rw [numbers]; decide),if_neg (by rw [texts]; decide)]
          exact (List.mem_append.mp member).elim (@within item) id
      | null | bool | int | str | obj =>
        cases (show current = [] from joins)
        exact member
    | null | bool | int | str | obj => exact member

theorem mergeJoins (existing override : Json.Object) :
    mergeMemoryMetadata existing override = Merge.merge joinValues existing override := rfl

/- Where every value joins what is there, the merge has the lists of both. -/
theorem mergedLists {existing override : Json.Object} (distinct : (Merge.keys override).Nodup)
    (joins : ∀ key value, Json.get override key = some value → Joins (Json.get existing key) value) (key : String) :
    ∀ item ∈ Json.items (Json.get existing key) ++ Json.items (Json.get override key),
      item ∈ Json.items (Json.get (mergeMemoryMetadata existing override) key) := by
  intro item member
  have found := @Merge.lookupMerge _ _ _ joinValues existing override distinct key
  rw [← mergeJoins] at found
  show item ∈ Json.items ((mergeMemoryMetadata existing override).lookup key)
  rw [found]
  cases given : override.lookup key with
  | none =>
    rw [show Json.get override key = none from given] at member
    exact (List.mem_append.mp member).elim id fun none => absurd none List.not_mem_nil
  | some value =>
    rw [show Json.get override key = some value from given] at member
    exact joinsKeep (joins key value given) item member

theorem askedText {arguments : Json.Object} {field text : String} (asked : requireString arguments field = .ok text) :
    strip text = text ∧ text ≠ "" := by
  unfold requireString at asked
  split at asked
  · split at asked
    · cases asked
    · rename_i full
      cases asked
      exact ⟨stripIdem _,full⟩
  · cases asked

theorem rstripContains {text part : String} (tight : strip part = part) (inside : contains text part = true) :
    contains (rstrip text) part = true := by
  simp only [contains,decide_eq_true_eq,rstrip,String.toList_ofList] at inside ⊢
  have same : stripList part.toList = part.toList := by
    rw [← String.toList_inj,strip,String.toList_ofList] at tight
    exact tight
  have back : part.toList.reverse.dropWhile isSpace = part.toList.reverse := same ▸ (stripListTight part.toList).back
  have kept := dropKeeps back (List.reverse_infix.mpr inside)
  exact List.reverse_infix.mp (by simpa using kept)

theorem stripsContain {text part : String} (tight : strip part = part) (inside : contains text part = true) :
    contains (strip text) part = true := by
  rw [← tight] at inside ⊢
  exact stripContains inside

theorem joinContains {first last part : String} (inside : contains first part = true ∨ contains last part = true) :
    contains (first ++ last) part = true := by
  simp only [contains,decide_eq_true_eq,String.toList_append] at inside ⊢
  rcases inside with inside | inside
  · exact inside.trans (List.prefix_append _ _).isInfix
  · exact inside.trans (List.suffix_append _ _).isInfix

theorem appendContains {existing addition part : String} (tight : strip part = part)
    (inside : contains existing part = true ∨ strip addition = part) : contains (appendContent existing addition) part = true := by
  unfold appendContent
  split
  · rename_i present
    rcases inside with inside | rfl
    · exact inside
    · rcases Bool.or_eq_true _ _ |>.mp present with empty | there
      · rw [of_decide_eq_true empty]
        simp [contains]
      · exact there
  · refine stripsContain tight (joinContains ?_)
    rcases inside with inside | rfl
    · exact .inl (joinContains (.inl (rstripContains tight inside)))
    · exact .inr (by simp [contains])

/- What the writes leave of everything but the memories and their workspaces does not matter here. -/
def fields (t : Tables) : List MemoryRow × List (String × String) := (t.memories,t.workspaces)

section
variable {α : Type}

theorem keepsAllowed {sql : Statement α} (allowed : ∀ t a after, sql t = .ok (a,after) → fields after = fields t) :
    Keeps fields (onTables port sql) := keepsStatement fun t a after taken => by
  split at taken
  · cases taken
  · rename_i changed ran
    obtain ⟨_,rfl⟩ := Prod.mk.inj (Except.ok.inj taken)
    exact allowed _ _ _ ran

theorem keepsSelected (query : Tables → α) : Keeps fields (onTables port (read query)) :=
  keepsAllowed fun t a after ran => by
    cases ran
    rfl

theorem keepsTags (memoryId : String) (tags : List String) : Keeps fields (replaceTagMappings memoryId tags) := by
  refine keepsBind (keepsAllowed fun t a after ran => by cases ran; rfl) fun _ => keepsEach fun tag _ => ?_
  refine keepsBind (keepsAllowed fun t a after ran => ?_) fun _ => keepsBind (keepsSelected _) fun tagId => ?_
  · cases ran
    dsimp only
    split <;> rfl
  · cases tagId with
    | none => exact keepsPure _
    | some tagId =>
      refine keepsAllowed fun t a after ran => ?_
      unfold insertMemoryTag at ran
      repeat' split at ran
      all_goals first | cases ran; done | cases ran; rfl

theorem keepsFts (memoryId title summary content : String) (tags : List String) :
    Keeps fields (replaceFtsRow memoryId title summary content tags) :=
  keepsBind (keepsAllowed fun _ _ _ ran => by cases ran; rfl) fun _ => keepsAllowed fun _ _ _ ran => by cases ran; rfl

theorem keepsLook (seen : Option Tables) (memoryId : String) : Keeps fields (look seen memoryId) :=
  keepsStatement fun t found after taken => by
    obtain ⟨_,_,same⟩ := mappedOk.mp taken
    rw [(Prod.mk.inj same).2]

end

theorem insertedWorkspaces {memoryId : String} {workspaceIds : List String} {oracle : Oracle ActionError}
    {session after : Session Tables} (ran : each (fun workspaceId => onTables port (insertWorkspace memoryId workspaceId))
      workspaceIds oracle session = (.ok (),after)) :
    fields after.data = (session.data.memories,session.data.workspaces ++ workspaceIds.map (memoryId,·)) := by
  induction workspaceIds generalizing session with
  | nil =>
    obtain ⟨_,rfl⟩ := pureOk.mp ran
    simp [fields]
  | cons workspaceId rest ih =>
    obtain ⟨_,middle,first,last⟩ := bindOk.mp ran
    obtain ⟨changed,inserted,put⟩ := onTablesOk first
    unfold insertWorkspace at inserted
    repeat' split at inserted
    any_goals cases inserted; done
    cases inserted
    have put : middle.data = { session.data with workspaces := session.data.workspaces ++ [(memoryId,workspaceId)] } := put
    rw [ih last,put]
    simp

theorem replacedWorkspaces {memoryId : String} {workspaceIds : List String} {oracle : Oracle ActionError}
    {session after : Session Tables} (ran : replaceWorkspaceMappings memoryId workspaceIds oracle session = (.ok (),after)) :
    fields after.data = (session.data.memories,
      session.data.workspaces.filter (·.1 != memoryId) ++ workspaceIds.map (memoryId,·)) := by
  obtain ⟨_,middle,first,last⟩ := bindOk.mp ran
  obtain ⟨changed,deleted,put⟩ := onTablesOk first
  cases deleted
  have put : middle.data = { session.data with workspaces := session.data.workspaces.filter (·.1 != memoryId) } := put
  rw [insertedWorkspaces last,put]

/- One memory is changed in its row, and in its workspaces where there are new ones. -/
structure Writes (memoryId : String) (set : MemoryRow → MemoryRow) (workspaceIds : Option (List String))
    (before after : Tables) : Prop where
  memories : after.memories = Table.update (·.id == memoryId) set before.memories
  workspaces : after.workspaces = match workspaceIds with
    | none => before.workspaces
    | some workspaceIds => before.workspaces.filter (·.1 != memoryId) ++ workspaceIds.map (memoryId,·)

theorem writesFields {memoryId : String} {set workspaceIds} {before middle after : Tables}
    (writes : Writes memoryId set workspaceIds before middle) (same : fields after = fields middle) :
    Writes memoryId set workspaceIds before after :=
  ⟨(congrArg Prod.fst same).trans writes.memories,(congrArg Prod.snd same).trans writes.workspaces⟩

theorem writeUpdateWrites {existing changes revised} {oracle : Oracle ActionError} {session after : Session Tables}
    (ran : writeUpdate env.actions existing changes revised oracle session = (.ok (),after)) :
    ∃ now, Writes existing.id (revise env.actions existing changes revised now) revised.workspaceIds session.data after.data := by
  obtain ⟨now,begun,observed,writing⟩ := bindOk.mp ran
  obtain ⟨_,written,first,later⟩ := bindOk.mp writing
  obtain ⟨_,mapped,second,last⟩ := bindOk.mp later
  obtain ⟨rfl,rfl⟩ := observeOk.mp observed
  obtain ⟨changed,effect,put⟩ := onTablesOk first
  cases effect
  have put : written.data = { session.data with
      memories := Table.update (·.id == existing.id) (revise env.actions existing changes revised (oracle session.moment).text)
        session.data.memories } := put
  refine ⟨(oracle session.moment).text,@writesFields existing.id _ _ _ mapped.data _ ?_ ?_⟩
  · cases given : revised.workspaceIds with
    | none =>
      rw [given] at second
      obtain ⟨_,rfl⟩ := pureOk.mp second
      rw [put]
      exact ⟨rfl,rfl⟩
    | some workspaceIds =>
      rw [given] at second
      have replaced := replacedWorkspaces second
      rw [put] at replaced
      exact ⟨congrArg Prod.fst replaced,congrArg Prod.snd replaced⟩
  · refine Keeps.ok (keepsBind ?_ fun _ => keepsBind (keepsSelected _) fun current => ?_) last
    · cases revised.tags with
      | none => exact keepsPure _
      | some tags => exact keepsTags _ tags
    · cases current with
      | none => exact keepsRaise _
      | some current => exact keepsFts _ _ _ _ _

theorem atomicallyEnds {α : Type} {x : Query α} {oracle : Oracle ActionError} {session after : Session Tables} {result}
    (ran : atomically x oracle session = (result,after)) :
    after.data = session.data ∧ (∃ error, result = .error error) ∨
      ∃ a middle, x oracle session = (.ok a,middle) ∧ result = .ok a ∧ after.data = middle.data := by
  unfold atomically at ran
  rcases inner : x oracle session with ⟨error | a,middle⟩
  · rw [inner] at ran
    cases ran
    exact .inl ⟨rfl,error,rfl⟩
  · rw [inner] at ran
    dsimp only at ran
    cases failed : (oracle middle.moment).fault with
    | none =>
      rw [failed] at ran
      cases ran
      exact .inr ⟨a,middle,rfl,rfl,rfl⟩
    | some error =>
      rw [failed] at ran
      cases ran
      exact .inl ⟨rfl,error,rfl⟩

theorem lookFields {seen memoryId result} {oracle : Oracle ActionError} {session after : Session Tables}
    (ran : look seen memoryId oracle session = (result,after)) : fields after.data = fields session.data := by
  have kept := keepsLook seen memoryId oracle session
  rwa [ran] at kept

/- The rows and the workspaces after an update, whichever way it ends. -/
theorem updateWrites {seen memoryId changes result} {oracle : Oracle ActionError} {session after : Session Tables}
    (ran : updateMemory env.actions seen memoryId changes oracle session = (result,after)) :
    fields after.data = fields session.data ∧ (∀ updated, result ≠ .ok (some updated)) ∨
      ∃ existing revised now, Found seen session.data memoryId existing ∧ validateUpdate changes = .ok revised ∧
        Writes existing.id (revise env.actions existing changes revised now) revised.workspaceIds session.data after.data ∧
        ∀ updated, result = .ok (some updated) → repositoryMemory after.data existing.id = .ok (some updated) := by
  unfold updateMemory at ran
  rw [bindRuns] at ran
  rcases looked : look seen memoryId oracle session with ⟨error | found,begun⟩
  · rw [looked] at ran
    cases ran
    exact .inl ⟨lookFields looked,nofun⟩
  · rw [looked] at ran
    have first := lookFields looked
    cases found with
    | none =>
      cases ran
      exact .inl ⟨first,nofun⟩
    | some existing =>
      cases given : validateUpdate changes with
      | error error =>
        have ran : (Except.error error,begun) = (result,after) := by
          rw [← ran]
          dsimp only
          rw [bindRuns,given]
          rfl
        cases ran
        exact .inl ⟨first,nofun⟩
      | ok revised =>
        have ran : (atomically (writeUpdate env.actions existing changes revised) >>= fun _ => getMemory existing.id)
            oracle begun = (result,after) := by
          rw [← ran]
          dsimp only
          rw [given]
          rfl
        rw [bindRuns] at ran
        rcases wrote : atomically (writeUpdate env.actions existing changes revised) oracle begun with ⟨error | _,written⟩
        · rw [wrote] at ran
          cases ran
          rcases atomicallyEnds wrote with ⟨same,_⟩ | ⟨_,_,_,impossible,_⟩
          · exact .inl ⟨(congrArg fields same).trans first,nofun⟩
          · cases impossible
        · rw [wrote] at ran
          have last := lookFields (show look none existing.id oracle written = (result,after) from ran)
          rcases atomicallyEnds wrote with ⟨_,_,impossible⟩ | ⟨_,middle,inner,_,same⟩
          · cases impossible
          · obtain ⟨now,writes⟩ := writeUpdateWrites env inner
            have read := (lookOk looked).1
            rw [(lookOk looked).2] at writes
            refine .inr ⟨existing,revised,now,read,rfl,writesFields writes (last.trans (congrArg fields same)),?_⟩
            rintro updated rfl
            have answer := lookOk (show look none existing.id oracle written = (.ok (some updated),after) from ran)
            rw [answer.2]
            exact answer.1

/- The names by which a memory is found: its id and its number. -/
def names (t : Tables) : List (String × Option Int) := t.memories.map fun row => (row.id,row.memoryRef)

theorem resolveNames {before after : Tables} (same : names after = names before) (memoryId : String) :
    after.has memoryId = before.has memoryId ∧ Curation.resolveMemoryId after memoryId = Curation.resolveMemoryId before memoryId := by
  have here : ∀ t : Tables, t.has memoryId = (names t).any (·.1 == memoryId) := fun t => by
    unfold names Tables.has
    rw [List.any_map]
    rfl
  have numbered : ∀ (t : Tables) (memoryRef : Nat), (t.memories.find? (·.memoryRef == some (memoryRef : Int))).map (·.id) =
      ((names t).find? (·.2 == some (memoryRef : Int))).map (·.1) := fun t memoryRef => by
    unfold names
    rw [List.find?_map,Option.map_map]
    rfl
  have present : after.has memoryId = before.has memoryId := by rw [here,here,same]
  refine ⟨present,?_⟩
  unfold Curation.resolveMemoryId Curation.idByRef
  rw [present]
  simp only [numbered,same]

theorem namesUpdate {memoryId : String} {set : MemoryRow → MemoryRow} {before after : Tables}
    (named : ∀ row, (set row).id = row.id ∧ (set row).memoryRef = row.memoryRef)
    (rows : after.memories = Table.update (·.id == memoryId) set before.memories) : names after = names before := by
  unfold names
  rw [rows]
  exact Table.updateKeys fun row _ _ => Prod.ext (named row).1 (named row).2

theorem resolvedHas {t : Tables} {memoryId resolved : String} (read : Curation.resolveMemoryId t memoryId = .ok (some resolved)) :
    ∃ row, selectRow resolved t = some row := by
  have there : ∃ row ∈ t.memories, row.id = resolved := by
    rcases Curation.resolvedSource read with ⟨has,rfl⟩ | ⟨_,_,row,member,_,named⟩
    · obtain ⟨row,member,named⟩ := List.any_eq_true.mp has
      exact ⟨row,member,beq_iff_eq.mp named⟩
    · exact ⟨row,member,named⟩
  obtain ⟨row,member,named⟩ := there
  exact Option.isSome_iff_exists.mp (List.find?_isSome.mpr ⟨row,member,beq_iff_eq.mpr named⟩)

theorem strippedClean {field items texts} (read : Curation.strippedItems field items = .ok texts) :
    ∀ text ∈ texts, strip text = text ∧ text ≠ "" := by
  induction items generalizing texts with
  | nil =>
    cases read
    nofun
  | cons item rest ih =>
    cases item with
    | str value =>
      obtain ⟨later,taken,last⟩ := checkedOk.mp read
      cases last
      intro text member
      split at member
      · exact ih taken text member
      · rename_i full
        rcases List.mem_cons.mp member with rfl | member
        · exact ⟨stripIdem value,full⟩
        · exact ih taken text member
    | null | bool | int | arr | obj => cases read

theorem asksClean {addition : Addition} : ∀ text ∈ asksWorkspaces addition, strip text = text ∧ text ≠ "" := by
  intro text member
  cases addition with
  | append arguments =>
    unfold asksWorkspaces stringList at member
    dsimp only at member
    split at member
    · cases member
    · cases member
    · rename_i items _
      cases read : Curation.strippedItems "workspace_ids" items with
      | error error =>
        rw [read] at member
        cases member
      | ok texts =>
        rw [read] at member
        exact strippedClean read text member
    · cases member
  | workspaces memoryId workspaceIds =>
    obtain ⟨⟨value,_,rfl⟩,full⟩ := memNormalize.mp member
    exact ⟨stripIdem value,full⟩

/- What a call that has read `record` changes in the row and the workspaces of the memory. -/
structure Adds (addition : Addition) (record : MemoryRecord) (set : MemoryRow → MemoryRow)
    (workspaceIds : Option (List String)) : Prop where
  named : ∀ row, (set row).id = row.id ∧ (set row).memoryRef = row.memoryRef
  content : ∀ row, (set row).content = match asksText addition with
    | none => row.content
    | some text => strip (appendContent record.content text)
  metadata : ∀ row, (set row).metadata = match asksMetadata addition with
    | none => row.metadata
    | some override => mergeMemoryMetadata record.metadata override
  workspaces : match workspaceIds with
    | none => asksWorkspaces addition = []
    | some workspaceIds => asksWorkspaces addition ≠ [] ∧ ∀ workspaceId, strip workspaceId = workspaceId → workspaceId ≠ "" →
        workspaceId ∈ record.workspaceIds ++ asksWorkspaces addition → workspaceId ∈ workspaceIds

/- At its write a call still finds what it has read, as far as it replaces it, and the lists that
it merges join. -/
structure Undisturbed (addition : Addition) (record : MemoryRecord) (t : Tables) : Prop where
  content : asksText addition ≠ none → ∀ row, selectRow record.id t = some row → row.content = record.content
  metadata : ∀ override, asksMetadata addition = some override →
    (∀ row, selectRow record.id t = some row → row.metadata = record.metadata) ∧
      ∀ key value, Json.get override key = some value → Joins (Json.get record.metadata key) value
  workspaces : asksWorkspaces addition ≠ [] → ∀ workspaceId, (record.id,workspaceId) ∈ t.workspaces →
    workspaceId ∈ record.workspaceIds

theorem appendChanges {record : MemoryRecord} {arguments content changes}
    (read : appendUpdate env record arguments content = .ok (some changes)) :
    changes.content = some (some (appendContent record.content content)) ∧
    changes.metadata = (asksMetadata (.append arguments)).map (mergeMemoryMetadata record.metadata) ∧
    changes.workspaceIds = match asksWorkspaces (.append arguments) with
      | [] => none
      | first::rest => some (sortedSet (record.workspaceIds ++ first::rest)) := by
  unfold appendUpdate at read
  obtain ⟨summary,_,rest⟩ := checkedOk.mp read
  split at rest
  · cases rest
  · obtain ⟨workspaceIds,taken,rest⟩ := checkedOk.mp rest
    obtain ⟨override,merged,last⟩ := checkedOk.mp rest
    cases last
    refine ⟨rfl,?_,?_⟩
    · show override.map _ = ((optionalObject arguments "metadata").toOption.join).map _
      rw [merged]
      rfl
    · have asked : (stringList arguments "workspace_ids").toOption.getD [] = workspaceIds.getD [] := by
        unfold ifGiven Curation.given at taken
        cases given : Json.get arguments "workspace_ids" with
        | none =>
          rw [given] at taken
          cases taken
          unfold stringList
          rw [given]
          rfl
        | some value =>
          rw [given] at taken
          obtain ⟨texts,listed,rfl⟩ := mappedOk.mp taken
          rw [listed]
          rfl
      show (match workspaceIds with
        | some (first::rest) => some (sortedSet (record.workspaceIds ++ first::rest))
        | _ => none) = match (stringList arguments "workspace_ids").toOption.getD [] with
        | [] => none
        | first::rest => some (sortedSet (record.workspaceIds ++ first::rest))
      rw [asked]
      cases workspaceIds with
      | none => rfl
      | some workspaceIds => cases workspaceIds <;> rfl

theorem validatedWorkspaces {changes : UpdateValues} {revised} (given : validateUpdate changes = .ok revised) :
    revised.workspaceIds = changes.workspaceIds.map normalizeValues := by
  unfold validateUpdate at given
  split at given
  · cases given
  · obtain ⟨_,_,given⟩ := checkedOk.mp given
    obtain ⟨_,_,given⟩ := checkedOk.mp given
    obtain ⟨_,_,given⟩ := checkedOk.mp given
    obtain ⟨_,_,given⟩ := checkedOk.mp given
    split at given <;> cases given
    rfl

theorem appendAdds {record existing : MemoryRecord} {arguments content changes revised now}
    (asked : requireString arguments "content" = .ok content)
    (read : appendUpdate env record arguments content = .ok (some changes)) (given : validateUpdate changes = .ok revised) :
    Adds (.append arguments) record (revise env.actions existing changes revised now) revised.workspaceIds := by
  obtain ⟨content',metadata,workspaces⟩ := appendChanges env read
  refine ⟨fun _ => ⟨rfl,rfl⟩,fun row => ?_,fun row => ?_,?_⟩
  · have text : asksText (.append arguments) = some content := congrArg Except.toOption asked
    show revised.content.getD row.content = _
    rw [(validated given).2,content',text]
    rfl
  · show changes.metadata.getD row.metadata = _
    rw [metadata]
    cases asksMetadata (.append arguments) <;> rfl
  · rw [validatedWorkspaces given,workspaces]
    cases asked : asksWorkspaces (.append arguments) with
    | nil => rfl
    | cons first rest =>
      refine ⟨nofun,fun workspaceId tight full member => memNormalize.mpr ⟨⟨workspaceId,memSortedSet.mpr member,tight⟩,full⟩⟩

theorem workspacesAdds {record : MemoryRecord} {memoryId workspaceIds now} (some_ : normalizeValues workspaceIds ≠ []) :
    Adds (.workspaces memoryId workspaceIds) record (fun row => { row with updatedAt := now })
      (some (normalizeValues (record.workspaceIds ++ normalizeValues workspaceIds))) :=
  ⟨fun _ => ⟨rfl,rfl⟩,fun _ => rfl,fun _ => rfl,some_,fun workspaceId tight full member =>
    memNormalize.mpr ⟨⟨workspaceId,member,tight⟩,full⟩⟩

/- The rows and the workspaces after `append_workspace_ids`, whichever way it ends. -/
theorem workspacesWrites {record : MemoryRecord} {workspaceIds result} {oracle : Oracle ActionError}
    {session after : Session Tables} (ran : appendWorkspaceIds record workspaceIds oracle session = (result,after)) :
    fields after.data = fields session.data ∧ (∀ updated, result ≠ .ok (some updated)) ∨
      ∃ now, Writes record.id (fun row => { row with updatedAt := now })
          (some (normalizeValues (record.workspaceIds ++ normalizeValues workspaceIds))) session.data after.data ∧
        ∀ updated, result = .ok (some updated) → repositoryMemory after.data record.id = .ok (some updated) := by
  unfold appendWorkspaceIds at ran
  rw [bindRuns] at ran
  rcases wrote : atomically (writeWorkspaces record.id (normalizeValues (record.workspaceIds ++ normalizeValues workspaceIds)))
    oracle session with ⟨error | _,written⟩
  · rw [wrote] at ran
    cases ran
    rcases atomicallyEnds wrote with ⟨same,_⟩ | ⟨_,_,_,impossible,_⟩
    · exact .inl ⟨congrArg fields same,nofun⟩
    · cases impossible
  · rw [wrote] at ran
    have last := lookFields (show look none record.id oracle written = (result,after) from ran)
    rcases atomicallyEnds wrote with ⟨_,_,impossible⟩ | ⟨_,middle,inner,_,same⟩
    · cases impossible
    · obtain ⟨_,mapped,first,later⟩ := bindOk.mp inner
      obtain ⟨now,seen,observed,writing⟩ := bindOk.mp later
      obtain ⟨rfl,rfl⟩ := observeOk.mp observed
      obtain ⟨changed,effect,put⟩ := onTablesOk writing
      cases effect
      have put : middle.data = { mapped.data with
        memories := Table.update (·.id == record.id) (fun row => { row with updatedAt := (oracle mapped.moment).text })
          mapped.data.memories } := put
      have replaced := replacedWorkspaces first
      refine .inr ⟨(oracle mapped.moment).text,writesFields ⟨?_,?_⟩ (last.trans (congrArg fields same)),?_⟩
      · rw [put]
        exact congrArg _ (congrArg Prod.fst replaced)
      · rw [put]
        exact congrArg Prod.snd replaced
      · rintro updated rfl
        have answer := lookOk (show look none record.id oracle written = (.ok (some updated),after) from ran)
        rw [answer.2]
        exact answer.1

theorem asksTight {addition : Addition} {text} (asked : asksText addition = some text) : strip text = text := by
  cases addition with
  | append arguments =>
    cases read : requireString arguments "content" with
    | error error =>
      rw [show asksText (.append arguments) = none from congrArg Except.toOption read] at asked
      cases asked
    | ok content =>
      rw [show asksText (.append arguments) = some content from congrArg Except.toOption read] at asked
      cases asked
      exact (askedText read).1
  | workspaces memoryId workspaceIds => cases asked

def Keyed (addition : Addition) : Prop := ∀ override, asksMetadata addition = some override → (Merge.keys override).Nodup

section
variable {addition : Addition} {record : MemoryRecord} {set : MemoryRow → MemoryRow} {workspaceIds : Option (List String)}
  {before after : Tables} (adds : Adds addition record set workspaceIds) (writes : Writes record.id set workspaceIds before after)
  (fine : Undisturbed addition record before)
include adds writes

theorem writtenRow {memoryId : String} {row} (there : selectRow memoryId before = some row) :
    selectRow memoryId after = some (if memoryId = record.id then set row else row) := by
  rw [selectUpdate (fun row => (adds.named row).1) writes.memories,there]
  split <;> rfl

include fine

/- After its write a call has what it asks for. -/
theorem writesAsked (keyed : Keyed addition) {row} (there : selectRow record.id before = some row) :
    Kept addition record.id after := by
  have later := writtenRow adds writes there
  rw [if_pos rfl] at later
  refine ⟨fun text asked => ⟨_,later,?_⟩,fun override asked key items found => ⟨_,later,fun item member => ?_⟩,
    fun workspaceId member => ?_⟩
  · have tight := asksTight asked
    rw [adds.content,asked]
    exact stripsContain tight (appendContains tight (.inr tight))
  · rw [adds.metadata,asked]
    refine mergedLists (keyed override asked) (fine.metadata override asked).2 key item (List.mem_append_right _ ?_)
    rw [found]
    exact member
  · obtain ⟨tight,full⟩ := asksClean workspaceId member
    have replaced := adds.workspaces
    rw [writes.workspaces]
    cases workspaceIds with
    | none =>
      rw [show asksWorkspaces addition = [] from replaced] at member
      cases member
    | some workspaceIds =>
      exact List.mem_append_right _ (List.mem_map_of_mem (replaced.2 workspaceId tight full (List.mem_append_right _ member)))

/- And what others have asked for stays, in this memory and in any other. -/
theorem writesKept (keyed : Keyed addition) {other : Addition} {memoryId : String} (kept : Kept other memoryId before) :
    Kept other memoryId after := by
  refine ⟨fun text asked => ?_,fun override asked key items found => ?_,fun workspaceId member => ?_⟩
  · obtain ⟨row,there,inside⟩ := kept.content text asked
    refine ⟨_,writtenRow adds writes there,?_⟩
    split
    · rename_i here
      subst here
      rw [adds.content]
      cases own : asksText addition with
      | none => exact inside
      | some added =>
        have tight := asksTight asked
        rw [fine.content (own ▸ nofun) row there] at inside
        exact stripsContain tight (appendContains tight (.inl inside))
    · exact inside
  · obtain ⟨row,there,inside⟩ := kept.metadata override asked key items found
    refine ⟨_,writtenRow adds writes there,?_⟩
    split
    · rename_i here
      subst here
      rw [adds.metadata]
      cases own : asksMetadata addition with
      | none => exact inside
      | some added =>
        obtain ⟨same,joins⟩ := fine.metadata added own
        rw [same row there] at inside
        exact fun item member => mergedLists (keyed added own) joins key item (List.mem_append_left _ (inside item member))
    · exact inside
  · have there := kept.workspaces workspaceId member
    obtain ⟨tight,full⟩ := asksClean workspaceId member
    have replaced := adds.workspaces
    rw [writes.workspaces]
    cases workspaceIds with
    | none => exact there
    | some workspaceIds =>
      by_cases here : memoryId = record.id
      · subst here
        have read := fine.workspaces replaced.1 workspaceId there
        exact List.mem_append_right _ (List.mem_map_of_mem (replaced.2 workspaceId tight full (List.mem_append_left _ read)))
      · exact List.mem_append_left _ (List.mem_filter.mpr ⟨there,bne_iff_ne.mpr here⟩)

end

theorem fieldsKept {before after : Tables} (same : fields after = fields before) {addition : Addition} {memoryId : String}
    (kept : Kept addition memoryId before) : Kept addition memoryId after := by
  have rows : selectRow memoryId after = selectRow memoryId before := selectSame (congrArg Prod.fst same)
  have workspaces : after.workspaces = before.workspaces := congrArg Prod.snd same
  exact ⟨fun text asked => rows ▸ kept.content text asked,
    fun override asked key items found => rows ▸ kept.metadata override asked key items found,
    fun workspaceId member => workspaces ▸ kept.workspaces workspaceId member⟩

/- The name that a call was given stands for this memory. -/
def Resolves (addition : Addition) (t : Tables) (memoryId : String) : Prop :=
  ∃ given, named addition = .ok given ∧ Curation.resolveMemoryId t given = .ok (some memoryId)

/- A call that has nothing to add does not get as far as its write. -/
def Asks : Addition → Prop
  | .append _ => True
  | .workspaces _ workspaceIds => normalizeValues workspaceIds ≠ []

def Reached (client : Client) (t : Tables) : Prop := match client.phase with
  | .begun | .ended => True
  | .selected row => Resolves client.addition t row.id
  | .read record => Resolves client.addition t record.id
  | .looked record seen => (Resolves client.addition t record.id ∧ names seen = names t) ∧ Asks client.addition
  | .answered memoryId => Kept client.addition memoryId t

structure Stands (client : Client) (t : Tables) : Prop where
  keyed : Keyed client.addition
  reached : Reached client t

theorem resolvesSame {before after : Tables} (same : names after = names before) {addition : Addition} {memoryId : String}
    (resolves : Resolves addition before memoryId) : Resolves addition after memoryId := by
  obtain ⟨given,read,resolved⟩ := resolves
  exact ⟨given,read,(resolveNames same given).2.trans resolved⟩

/- What a step does to the rows is nothing to a call that does not take it. -/
theorem standsAfter {before after : Tables} (same : names after = names before)
    (kept : ∀ addition memoryId, Kept addition memoryId before → Kept addition memoryId after) {client : Client}
    (stands : Stands client before) : Stands client after := by
  obtain ⟨keyed,reached⟩ := stands
  refine ⟨keyed,?_⟩
  unfold Reached at reached ⊢
  cases at_ : client.phase with
  | begun | ended => trivial
  | selected row =>
    rw [at_] at reached
    exact resolvesSame same reached
  | read record =>
    rw [at_] at reached
    exact resolvesSame same reached
  | looked record seen =>
    rw [at_] at reached
    exact ⟨⟨resolvesSame same reached.1.1,reached.1.2.trans same.symm⟩,reached.2⟩
  | answered memoryId =>
    rw [at_] at reached
    exact kept _ _ reached

theorem namesSame {before after : Tables} (same : fields after = fields before) : names after = names before := by
  unfold names
  rw [show after.memories = before.memories from congrArg Prod.fst same]

theorem resolvedNamed {t : Tables} {memoryId : String} {record : MemoryRecord}
    (found : repositoryMemory t memoryId = .ok (some record)) : Curation.resolveMemoryId t memoryId = .ok (some record.id) := by
  obtain ⟨resolved,read,here⟩ := Curation.repositoryResolved found
  obtain ⟨row,there,rfl⟩ := Option.map_eq_some_iff.mp here
  rw [read,← beq_iff_eq.mp (Table.findSome there).2]
  rfl

theorem answerNamed {t : Tables} {memoryId : String} {record : MemoryRecord} {row} (there : selectRow memoryId t = some row)
    (found : repositoryMemory t memoryId = .ok (some record)) : record.id = memoryId := by
  have resolved := resolvedNamed found
  unfold Curation.resolveMemoryId at resolved
  rw [if_pos (hasRow there)] at resolved
  exact (Option.some.inj (Except.ok.inj resolved)).symm

/- What a write of a call that has read `record` comes to: nothing and no answer, or the rows
and workspaces it adds to and the answer, if there is one, under the same id. -/
def Written (addition : Addition) (record : MemoryRecord) (t : Tables) (after : Client × Tables) : Prop :=
  after.1.addition = addition ∧ (fields after.2 = fields t ∧ after.1.phase = .ended ∨
    ∃ set workspaceIds, Adds addition record set workspaceIds ∧ Writes record.id set workspaceIds t after.2 ∧
      (after.1.phase = .ended ∨ after.1.phase = .answered record.id))

section
variable {record : MemoryRecord} {seen t : Tables} {client : Client} (same : names seen = names t)

/- The answer is under the id of the memory that the write is to. -/
theorem writtenAnswer {addition : Addition} (resolves : Resolves addition t record.id) {set workspaceIds} {after : Tables}
    {updated : MemoryRecord} (adds : Adds addition record set workspaceIds) (writes : Writes record.id set workspaceIds t after)
    (found : repositoryMemory after record.id = .ok (some updated)) : updated.id = record.id := by
  obtain ⟨_,_,resolved⟩ := resolves
  obtain ⟨row,there⟩ := resolvedHas resolved
  exact answerNamed (writtenRow adds writes there) found

theorem workspacesWritten {memoryId workspaceIds} (own : client.addition = .workspaces memoryId workspaceIds)
    (resolves : Resolves client.addition t record.id) (asks : normalizeValues workspaceIds ≠ []) :
    Written client.addition record t (writeAddition env client record seen t) := by
  rw [own] at resolves
  unfold writeAddition
  rw [own]
  dsimp only
  rcases ran : appendWorkspaceIds record workspaceIds client.oracle ⟨t,client.moment⟩ with ⟨result,after⟩
  rcases workspacesWrites ran with ⟨still,unanswered⟩ | ⟨now,writes,answers⟩
  · rcases result with error | _ | updated
    · exact ⟨own,.inl ⟨still,rfl⟩⟩
    · exact ⟨own,.inl ⟨still,rfl⟩⟩
    · exact absurd rfl (unanswered updated)
  · have adds := @workspacesAdds record memoryId workspaceIds now asks
    rcases result with error | _ | updated
    · exact ⟨own,.inr ⟨_,_,adds,writes,.inl rfl⟩⟩
    · exact ⟨own,.inr ⟨_,_,adds,writes,.inl rfl⟩⟩
    · exact ⟨own,.inr ⟨_,_,adds,writes,.inr (congrArg Phase.answered (writtenAnswer resolves adds writes (answers updated rfl)))⟩⟩

include same

theorem appendWritten {arguments} (own : client.addition = .append arguments) (resolves : Resolves client.addition t record.id) :
    Written client.addition record t (writeAddition env client record seen t) := by
  rw [own] at resolves
  obtain ⟨given,read,resolved⟩ := id resolves
  dsimp only [named] at read
  unfold writeAddition
  rw [own]
  dsimp only
  cases memory : requireString arguments "memory_id" with
  | error error => exact ⟨own,.inl ⟨rfl,rfl⟩⟩
  | ok memoryId => cases text : requireString arguments "content" with
    | error error => exact ⟨own,.inl ⟨rfl,rfl⟩⟩
    | ok content =>
      dsimp only
      rcases update : appendUpdate env record arguments content with error | _ | changes
      · exact ⟨own,.inl ⟨rfl,rfl⟩⟩
      · exact ⟨own,.inl ⟨rfl,rfl⟩⟩
      · dsimp only
        rw [memory,text] at read
        obtain rfl : memoryId = given := Except.ok.inj read
        rcases ran : updateMemory env.actions (some seen) memoryId changes client.oracle ⟨t,client.moment⟩ with ⟨result,after⟩
        rcases updateWrites env ran with ⟨still,unanswered⟩ | ⟨existing,revised,now,found,checked,writes,answers⟩
        · rcases result with error | _ | updated
          · exact ⟨own,.inl ⟨still,rfl⟩⟩
          · exact ⟨own,.inl ⟨still,rfl⟩⟩
          · exact absurd rfl (unanswered updated)
        · -- the repository resolves the name again, to the same memory
          have there : Curation.resolveMemoryId seen memoryId = .ok (some existing.id) := resolvedNamed found
          rw [(resolveNames same memoryId).2,resolved] at there
          have here : existing.id = record.id := (Option.some.inj (Except.ok.inj there)).symm
          have adds := @appendAdds env record existing arguments content changes revised now text update checked
          rw [here] at writes answers
          rcases result with error | _ | updated
          · exact ⟨own,.inr ⟨_,_,adds,writes,.inl rfl⟩⟩
          · exact ⟨own,.inr ⟨_,_,adds,writes,.inl rfl⟩⟩
          · refine ⟨own,.inr ⟨_,_,adds,writes,?_⟩⟩
            dsimp only [Client.to]
            cases concluded arguments updated with
            | error error => exact .inl rfl
            | ok payload => exact .inr (congrArg Phase.answered (writtenAnswer resolves adds writes (answers updated rfl)))

theorem additionWritten (resolves : Resolves client.addition t record.id) (asks : Asks client.addition) :
    Written client.addition record t (writeAddition env client record seen t) := by
  cases own : client.addition with
  | append arguments =>
    rw [← own]
    exact appendWritten env same own resolves
  | workspaces memoryId workspaceIds =>
    rw [own] at asks
    rw [← own]
    exact workspacesWritten env own resolves asks

end

/- A step that leaves the rows and the workspaces as they are. -/
theorem standsStill {client : Client} {before after : Tables} (same : fields after = fields before) (stands : Stands client before) :
    Stands client after :=
  standsAfter (namesSame same) (fun _ _ => fieldsKept same) stands

theorem beginStands {client : Client} {t : Tables} (keyed : Keyed client.addition) :
    Stands (begin client t).1 (begin client t).2 ∧ fields (begin client t).2 = fields t := by
  unfold begin
  cases read : named client.addition with
  | error error => exact ⟨⟨keyed,trivial⟩,rfl⟩
  | ok memoryId =>
    dsimp only
    rcases ran : getMemory memoryId client.oracle ⟨t,client.moment⟩ with ⟨error | _ | record,after⟩
    · exact ⟨⟨keyed,trivial⟩,lookFields ran⟩
    · exact ⟨⟨keyed,trivial⟩,lookFields ran⟩
    · have same : after.data = t := (lookOk ran).2
      refine ⟨⟨keyed,memoryId,read,?_⟩,lookFields ran⟩
      dsimp only [Client.to]
      rw [same]
      exact resolvedNamed (lookOk ran).1

theorem prepareStands {client : Client} {record : MemoryRecord} {t : Tables} (keyed : Keyed client.addition)
    (resolves : Resolves client.addition t record.id) :
    Stands (client.to (prepareAddition env client record t) ⟨t,client.moment⟩).1 t := by
  refine ⟨keyed,?_⟩
  unfold Reached Client.to prepareAddition
  dsimp only
  cases own : client.addition with
  | append arguments =>
    dsimp only
    cases requireString arguments "content" with
    | error error => trivial
    | ok content =>
      dsimp only
      rcases appendUpdate env record arguments content with error | _ | changes
      · trivial
      · trivial
      · exact ⟨⟨own ▸ resolves,rfl⟩,trivial⟩
  | workspaces memoryId workspaceIds =>
    dsimp only
    cases empty : (normalizeValues workspaceIds).isEmpty with
    | true =>
      have none : asksWorkspaces (.workspaces memoryId workspaceIds) = [] := List.isEmpty_iff.mp empty
      exact ⟨nofun,nofun,fun workspaceId member => absurd (none ▸ member) List.not_mem_nil⟩
    | false => exact ⟨⟨own ▸ resolves,rfl⟩,fun none => by simp [none] at empty⟩

/- A step keeps what every call stands on, its own and that of the others. -/
theorem advanceStands {client : Client} {t : Tables} (stands : Stands client t)
    (fine : ∀ record seen, client.phase = .looked record seen → Undisturbed client.addition record t) :
    Stands (advance env client t).1 (advance env client t).2 ∧
      ∀ other, Stands other t → Stands other (advance env client t).2 := by
  obtain ⟨keyed,reached⟩ := id stands
  unfold Reached at reached
  unfold advance
  cases at_ : client.phase with
  | begun =>
    obtain ⟨own,same⟩ := @beginStands client t keyed
    exact ⟨own,fun other => standsStill same⟩
  | ended | answered memoryId => exact ⟨stands,fun _ => id⟩
  | selected row =>
    rw [at_] at reached
    exact ⟨⟨keyed,reached⟩,fun _ => id⟩
  | read record =>
    rw [at_] at reached
    exact ⟨prepareStands env keyed reached,fun _ => id⟩
  | looked record seen =>
    rw [at_] at reached
    obtain ⟨⟨resolves,same⟩,asks⟩ := reached
    have free := fine record seen at_
    obtain ⟨own,written⟩ := additionWritten env same resolves asks
    dsimp only
    generalize writeAddition env client record seen t = after at own written
    rcases written with ⟨still,ended⟩ | ⟨set,workspaceIds,adds,writes,phase⟩
    · refine ⟨⟨own ▸ keyed,?_⟩,fun other => standsStill still⟩
      unfold Reached
      rw [ended]
      trivial
    · refine ⟨⟨own ▸ keyed,?_⟩,fun other => standsAfter (namesUpdate adds.named writes.memories)
        fun _ _ => writesKept adds writes free keyed⟩
      obtain ⟨row,there⟩ := resolvedHas resolves.choose_spec.2
      unfold Reached
      rcases phase with ended | answered
      · rw [ended]
        trivial
      · rw [answered,own]
        exact writesAsked adds writes free keyed there

/- Before each step: objects have each key once, and a write finds what its call has read. -/
def Fine (w : World Client Tables Empty) : Event (Addition × Oracle ActionError) → Prop
  | .start op => Keyed op.1
  | .advance index => ∀ client record seen, w.calls[index]? = some client → client.phase = .looked record seen →
      Undisturbed client.addition record w.store

theorem nextStands {w : World Client Tables Empty} {event} (fine : Fine w event)
    (stands : ∀ client ∈ w.calls, Stands client w.store) :
    ∀ client ∈ ((machine env).next w event).calls, Stands client ((machine env).next w event).store := by
  cases event with
  | start op =>
    intro client member
    rcases List.mem_append.mp member with old | new
    · exact stands client old
    · cases List.mem_singleton.mp new
      exact ⟨fine,trivial⟩
  | advance index =>
    cases found : w.calls[index]? with
    | none =>
      rw [nextIdle found]
      exact stands
    | some client =>
      rw [nextAdvance found]
      obtain ⟨own,others⟩ := advanceStands env (stands client (List.mem_of_getElem? found))
        fun record seen => fine client record seen found
      intro other member
      rcases List.mem_or_eq_of_mem_set member with old | rfl
      · exact others other (stands other old)
      · exact own

/- Whatever the clients of any run do, where every write finds what its call has read, all that the
calls that have answered asked for is there. -/
theorem additionsKept {t : Tables} {events : List (Event (Addition × Oracle ActionError))}
    (fine : Interleave.Meets (machine env) Fine (idle t) events) :
    ∀ client ∈ ((machine env).run (idle t) events).calls, ∀ memoryId, client.phase = .answered memoryId →
      Kept client.addition memoryId ((machine env).run (idle t) events).store := by
  intro client member memoryId answered
  have stands := @runMeets _ _ _ _ (machine env) Fine (fun w => ∀ client ∈ w.calls, Stands client w.store)
    (fun _ _ => nextStands env) (idle t) events fine nofun client member
  have reached := stands.reached
  unfold Reached at reached
  rwa [answered] at reached

/- Clients that append to one note. -/

def appending (memoryId text : String) : Addition × Oracle ActionError :=
  (.append [("memory_id",.str memoryId),("content",.str text)],fun _ => ⟨none,"event","t1",0⟩)

def adding (memoryId workspaceId : String) : Addition × Oracle ActionError :=
  (.workspaces memoryId [workspaceId],fun _ => ⟨none,"event","t1",0⟩)

def alone (index : Nat) : List (Event (Addition × Oracle ActionError)) := List.replicate 4 (.advance index)

def inTurn : List (Event (Addition × Oracle ActionError)) :=
  [.start (appending "a" "one line more"),.start (adding "mem-1" "other")] ++ alone 0 ++ alone 1

def together : List (Event (Addition × Oracle ActionError)) :=
  [.start (appending "a" "one line more"),.start (appending "a" "and another one")] ++
    (List.replicate 3 [.advance 0,.advance 1]).flatten ++ [.advance 0,.advance 1]

/- Where no call merges metadata, it can be checked that a write finds what its call has read. -/
def steady (w : World Client Tables Empty) : Event (Addition × Oracle ActionError) → Bool
  | .start op => (asksMetadata op.1).isNone
  | .advance index => (w.calls[index]?).all fun client => match client.phase with
    | .looked record _ => (asksMetadata client.addition).isNone &&
        (selectRow record.id w.store).all (·.content == record.content) &&
        w.store.workspaces.all fun entry => entry.1 != record.id || record.workspaceIds.contains entry.2
    | _ => true

theorem steadyFine {w : World Client Tables Empty} {event} (checked : steady w event = true) : Fine w event := by
  cases event with
  | start op =>
    intro override asked
    have none : (asksMetadata op.1).isNone = true := checked
    rw [asked] at none
    cases none
  | advance index =>
    intro client record seen found at_
    dsimp only [steady] at checked
    rw [found,Option.all_some,at_] at checked
    obtain ⟨first,workspaces⟩ := Bool.and_eq_true _ _ |>.mp checked
    obtain ⟨metadata,content⟩ := Bool.and_eq_true _ _ |>.mp first
    refine ⟨fun _ row there => ?_,fun override asked => ?_,fun _ workspaceId member => ?_⟩
    · rw [there] at content
      exact beq_iff_eq.mp content
    · rw [asked] at metadata
      cases metadata
    · have listed := List.all_eq_true.mp workspaces _ member
      simpa using listed

def answerOf (client : Client) : Option String := match client.phase with
  | .answered memoryId => some memoryId
  | _ => none

theorem additionsKeptSample :
    ((machine Curation.asciiTools).run (idle twoNotes) inTurn).calls.map answerOf = [some "a",some "a"] ∧
    ∀ client ∈ ((machine Curation.asciiTools).run (idle twoNotes) inTurn).calls, ∀ memoryId,
      client.phase = .answered memoryId →
        Kept client.addition memoryId ((machine Curation.asciiTools).run (idle twoNotes) inTurn).store := by
  have checked : Interleave.Meets (machine Curation.asciiTools) (fun w event => steady w event = true)
    (idle twoNotes) inTurn := by decide +kernel
  exact ⟨by decide +kernel,additionsKept Curation.asciiTools (meetsWeaker (fun _ _ => steadyFine) checked)⟩

/- Two calls that both read the note before either writes it: both answer, and the first text is gone. -/
theorem appendLost :
    ((machine Curation.asciiTools).run (idle twoNotes) together).calls.map answerOf = [some "a",some "a"] ∧
    ¬ ∀ client ∈ ((machine Curation.asciiTools).run (idle twoNotes) together).calls, ∀ memoryId,
      client.phase = .answered memoryId →
        Kept client.addition memoryId ((machine Curation.asciiTools).run (idle twoNotes) together).store := by
  refine ⟨by decide +kernel,fun every => ?_⟩
  have first : (((machine Curation.asciiTools).run (idle twoNotes) together).calls.head?.map fun client =>
    (answerOf client,asksText client.addition)) = some (some "a",some "one line more") := by decide +kernel
  have missing : (selectRow "a" ((machine Curation.asciiTools).run (idle twoNotes) together).store).any
    (fun row => contains row.content "one line more") = false := by decide +kernel
  obtain ⟨client,head,same⟩ := Option.map_eq_some_iff.mp first
  obtain ⟨answered,asked⟩ := Prod.mk.inj same
  have phase : client.phase = .answered "a" := by
    unfold answerOf at answered
    split at answered
    · rename_i at_
      cases answered
      exact at_
    · cases answered
  obtain ⟨row,there,inside⟩ := (every client (List.mem_of_mem_head? head) "a" phase).content _ asked
  rw [there] at missing
  exact absurd (inside.symm.trans missing) (by decide)

end McpMemory.Relational.Append
