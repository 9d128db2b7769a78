import McpMemory.Lib.Transaction
import McpMemory.Memory.Identity
import McpMemory.Memory.Portrait

/-! The parts that the ingress and the curation transaction write alike: the mappings and
the search document of a memory, the repair intents and the record revisions. A port
says where a transaction holds the tables and what it raises. -/
namespace McpMemory.Memory
open Transaction

def normalizedValues (values : List String) : List String :=
  sortedSet ((values.map Text.strip).filter (· != ""))

/- An empty summary counts as none. -/
def summaryOr (summary : Option String) (built : String) : String :=
  match summary with
  | some text => if text = "" then built else text
  | none => built

structure Port (σ ε : Type) where
  tables : σ → Tables
  put : Tables → σ → σ
  integrity : IntegrityError → ε
  duplicateKey : String → ε
  untagged : ε

variable {σ ε α : Type} (port : Port σ ε)

def onTables (sql : Statement α) : Tx σ ε α := statement fun work =>
  match sql (port.tables work) with
  | .error error => .error (port.integrity error)
  | .ok (a,after) => .ok (a,port.put after work)

def replaceWorkspaces (memoryId : String) (workspaceIds : List String) : Tx σ ε Unit := do
  onTables port (deleteWorkspaces memoryId)
  each (fun workspaceId => onTables port (insertWorkspace memoryId workspaceId)) workspaceIds

def insertTagged (memoryId tag : String) : Tx σ ε Unit := do
  onTables port (insertTag tag)
  match ← onTables port (read (selectTagId tag)) with
  | none => raise port.untagged
  | some tagId => onTables port (insertMemoryTag memoryId tagId)

def replaceTags (memoryId : String) (tags : List String) : Tx σ ε Unit := do
  onTables port (deleteMemoryTags memoryId)
  each (insertTagged port memoryId) tags

def replaceFts (memoryId title summary content : String) (tags : List String) : Tx σ ε Unit := do
  onTables port (deleteSearchDocuments memoryId)
  onTables port (insertSearchDocument ⟨memoryId,title,summary,content,String.intercalate " " tags⟩)

variable (env : Canonical.Env)

abbrev Records := List (String × MemoryRecord)

def token (record : MemoryRecord) : Except ε String := (recordToken env record).mapError port.duplicateKey

def snapshotText (marks : Canonical.Separators) (record : MemoryRecord) : Except ε String :=
  ((recordSnapshot env record).map fun value => String.ofList (Canonical.dump marks value)).mapError
    port.duplicateKey

def optionally {β : Type} (make : α → Except ε β) : Option α → Except ε (Option β)
  | none => .ok none
  | some a => (make a).map some

/- Both are there with one token. -/
def sameTokens : Option MemoryRecord → Option MemoryRecord → Except ε Bool
  | some previous,some current => do .ok ((← token port env previous) == (← token port env current))
  | _,_ => .ok false

def tokens : Records → Except ε (List (String × String))
  | [] => .ok []
  | (memoryId,record)::rest => do
    let here ← token port env record
    .ok ((memoryId,here) :: (← tokens rest))

def writeRepairIntent (modelName : String) (now : Int) (before : Records) (item : String × MemoryRecord) :
    Tx σ ε Unit := do
  if ← lift (sameTokens port env (before.lookup item.1) (some item.2)) then pure ()
  else do
    let fresh ← observe
    onTables port (insertRepairIntent ⟨fresh.uuid,item.1,item.2.workspaceIds.head?,modelName,
      item.2.updatedAt,"pending",0,now,now,now⟩)

def writeRepairIntents (modelName : String) (before after : Records) : Tx σ ε Unit := do
  let now ← observe
  each (writeRepairIntent port env modelName now.time before) after

def writeRecordRevision (marks : Canonical.Separators) (eventId : String) (before after : Records)
    (memoryId : String) : Tx σ ε Unit := do
  let previous := before.lookup memoryId
  let current := after.lookup memoryId
  if ← lift (sameTokens port env previous current) then pure ()
  else do
    let beforeSnapshot ← lift (optionally (snapshotText port env marks) previous)
    let afterSnapshot ← lift (optionally (snapshotText port env marks) current)
    let beforeToken ← lift (optionally (token port env) previous)
    let afterToken ← lift (optionally (token port env) current)
    onTables port (insertRecordRevision ⟨eventId,memoryId,"target",previous.isSome,beforeSnapshot,
      current.isSome,afterSnapshot,beforeToken,afterToken⟩)

/- An invariant that survives every change of the tables that `rel` allows survives the programs
whose statements it allows. -/
def Closed (rel : Tables → Tables → Prop) (inv : σ → Prop) : Prop :=
  ∀ work after, inv work → rel (port.tables work) after → inv (port.put after work)

/- The statements about no memory in particular. -/
structure Tolerates (rel : Tables → Tables → Prop) : Prop where
  refl : ∀ t, rel t t
  insertTag : ∀ name, Allows rel (insertTag name)
  deleteSearchDocuments : ∀ memoryId, Allows rel (deleteSearchDocuments memoryId)
  insertSearchDocument : ∀ document, Allows rel (insertSearchDocument document)
  insertRepairIntent : ∀ intent, Allows rel (insertRepairIntent intent)

structure Maps (rel : Tables → Tables → Prop) (memoryId : String) : Prop extends Tolerates rel where
  deleteWorkspaces : Allows rel (deleteWorkspaces memoryId)
  insertWorkspace : ∀ workspaceId, Allows rel (insertWorkspace memoryId workspaceId)
  deleteMemoryTags : Allows rel (deleteMemoryTags memoryId)
  insertMemoryTag : ∀ tagId, Allows rel (insertMemoryTag memoryId tagId)

theorem toleratesDiffers {free ends : String → Prop} : Tolerates (Differs free ends) :=
  ⟨fun _ => differsRefl,sparesInsertTag,sparesDeleteSearchDocuments,sparesInsertSearchDocument,
    sparesInsertRepairIntent⟩

theorem mapsDiffers {free ends : String → Prop} {memoryId} (named : free memoryId) :
    Maps (Differs free ends) memoryId :=
  ⟨toleratesDiffers,sparesDeleteWorkspaces named,fun _ => sparesInsertWorkspace named,sparesDeleteMemoryTags named,
    fun _ => sparesInsertMemoryTag named⟩

/- The memories and the links stay. -/
structure Beside (before after : Tables) : Prop where
  memories : after.memories = before.memories
  links : after.links = before.links

theorem notesBeside {before after : Tables} (notes : Notes before after) : Beside before after :=
  ⟨notes.memories,notes.links⟩

theorem mapsBeside (memoryId : String) : Maps Beside memoryId where
  refl _ := ⟨rfl,rfl⟩
  insertTag name := by
    intro t a after ran
    cases ran
    dsimp only
    split <;> exact ⟨rfl,rfl⟩
  deleteSearchDocuments _ _ _ _ ran := by cases ran; exact ⟨rfl,rfl⟩
  insertSearchDocument _ _ _ _ ran := by cases ran; exact ⟨rfl,rfl⟩
  insertRepairIntent intent := fun _ _ _ ran => notesBeside (notesInsertRepairIntent intent _ _ _ ran)
  deleteWorkspaces _ _ _ ran := by cases ran; exact ⟨rfl,rfl⟩
  insertWorkspace workspaceId := by
    intro t a after ran
    unfold insertWorkspace at ran
    repeat' split at ran
    all_goals first | cases ran; done | cases ran; exact ⟨rfl,rfl⟩
  deleteMemoryTags _ _ _ ran := by cases ran; exact ⟨rfl,rfl⟩
  insertMemoryTag tagId := by
    intro t a after ran
    unfold insertMemoryTag at ran
    repeat' split at ran
    all_goals first | cases ran; done | cases ran; exact ⟨rfl,rfl⟩

section
variable {rel : Tables → Tables → Prop} {inv : σ → Prop} {port env} (closed : Closed port rel inv)
include closed

theorem closedOnTables {sql : Statement α} (allowed : Allows rel sql) :
    Ensures inv (onTables port sql) fun _ => True :=
  ensuresStatement fun work a after start taken => by
    split at taken <;> cases taken
    exact ⟨closed _ _ start (allowed _ _ _ ‹_›),trivial⟩

theorem closedRead (refl : ∀ t, rel t t) {query : Tables → α} {post : α → Prop}
    (holds : ∀ work, inv work → post (query (port.tables work))) :
    Ensures inv (onTables port (read query)) post :=
  ensuresStatement fun work a after start taken => by
    cases taken
    exact ⟨closed _ _ start (refl _),holds work start⟩

theorem closedSelect (refl : ∀ t, rel t t) (query : Tables → α) :
    Ensures inv (onTables port (read query)) fun _ => True := closedRead closed refl fun _ _ => trivial

variable {memoryId : String}

theorem closedReplaceWorkspaces (maps : Maps rel memoryId) (workspaceIds : List String) :
    Ensures inv (replaceWorkspaces port memoryId workspaceIds) fun _ => True :=
  ensuresBind (closedOnTables closed maps.deleteWorkspaces) fun _ _ =>
    ensuresEach fun workspaceId _ => closedOnTables closed (maps.insertWorkspace workspaceId)

theorem closedReplaceTags (maps : Maps rel memoryId) (tags : List String) :
    Ensures inv (replaceTags port memoryId tags) fun _ => True := by
  refine ensuresBind (closedOnTables closed maps.deleteMemoryTags) fun _ _ => ensuresEach fun tag _ =>
    ensuresBind (closedOnTables closed (maps.insertTag tag)) fun _ _ =>
    ensuresBind (closedSelect closed maps.refl _) fun tagId _ => ?_
  cases tagId with
  | none => exact ensuresRaise _
  | some tagId => exact closedOnTables closed (maps.insertMemoryTag tagId)

theorem closedReplaceFts (tolerates : Tolerates rel) (title summary content : String) (tags : List String) :
    Ensures inv (replaceFts port memoryId title summary content tags) fun _ => True :=
  ensuresBind (closedOnTables closed (tolerates.deleteSearchDocuments _)) fun _ _ =>
    closedOnTables closed (tolerates.insertSearchDocument _)

theorem closedWriteRepairIntents (allowed : ∀ intent, Allows rel (insertRepairIntent intent)) (modelName : String) (before after : Records) :
    Ensures inv (writeRepairIntents port env modelName before after) fun _ => True := by
  refine ensuresBind ensuresObserve fun now _ => ensuresEach fun item _ =>
    ensuresBind (ensuresLift _) fun same _ => ?_
  cases same with
  | true => exact ensuresPure trivial
  | false => exact ensuresBind ensuresObserve fun _ _ => closedOnTables closed (allowed _)

theorem closedWriteRecordRevision (allowed : ∀ revision, Allows rel (insertRecordRevision revision))
    (marks : Canonical.Separators) (eventId : String) (before after : Records) (memoryId : String) :
    Ensures inv (writeRecordRevision port env marks eventId before after memoryId) fun _ => True := by
  refine ensuresBind (ensuresLift _) fun same _ => ?_
  cases same with
  | true => exact ensuresPure trivial
  | false =>
    exact ensuresBind (ensuresLift _) fun _ _ => ensuresBind (ensuresLift _) fun _ _ =>
      ensuresBind (ensuresLift _) fun _ _ => ensuresBind (ensuresLift _) fun _ _ =>
      closedOnTables closed (allowed _)

omit closed

theorem onTablesOk {sql : Statement α} {oracle session a after} (run : onTables port sql oracle session = (.ok a,after)) :
    ∃ changed, sql (port.tables session.data) = .ok (a,changed) ∧ after.data = port.put changed session.data := by
  have taken := statementOk run
  split at taken
  · cases taken
  · rename_i changed ran
    simp only [Except.ok.injEq,Prod.mk.injEq] at taken
    exact ⟨changed,taken.1 ▸ ran,taken.2.symm⟩

theorem givesOnTables {now : Moment ε} (quiet : now.fault = none) {sql : Statement α} {work a after}
    (taken : sql (port.tables work) = .ok (a,after)) :
    Gives now (onTables port sql) work a (port.put after work) := givesStatement quiet (by simp only [taken])

end

/- Whatever does not see the tables stays as it is. -/

def Any (_ _ : Tables) : Prop := True

theorem mapsAny (memoryId : String) : Maps Any memoryId :=
  ⟨⟨fun _ => trivial,fun _ _ _ _ _ => trivial,fun _ _ _ _ _ => trivial,fun _ _ _ _ _ => trivial,
    fun _ _ _ _ _ => trivial⟩,fun _ _ _ _ => trivial,fun _ _ _ _ _ => trivial,fun _ _ _ _ => trivial,
    fun _ _ _ _ _ => trivial⟩

section
variable {γ : Type} {view : σ → γ} {port env} (blind : ∀ after work, view (port.put after work) = view work)
include blind

theorem closedBlind (rel : Tables → Tables → Prop) (value : γ) : Closed port rel (view · = value) :=
  fun work after start _ => (blind after work).trans start

theorem keepsOnTables (sql : Statement α) : Keeps view (onTables port sql) :=
  keepsIff.mpr fun value => closedOnTables (closedBlind blind Any value) fun _ _ _ _ => trivial

theorem keepsReplaceWorkspaces (memoryId : String) (workspaceIds : List String) :
    Keeps view (replaceWorkspaces port memoryId workspaceIds) :=
  keepsIff.mpr fun value => closedReplaceWorkspaces (closedBlind blind Any value) (mapsAny memoryId) workspaceIds

theorem keepsReplaceTags (memoryId : String) (tags : List String) :
    Keeps view (replaceTags port memoryId tags) :=
  keepsIff.mpr fun value => closedReplaceTags (closedBlind blind Any value) (mapsAny memoryId) tags

theorem keepsReplaceFts (memoryId title summary content : String) (tags : List String) :
    Keeps view (replaceFts port memoryId title summary content tags) :=
  keepsIff.mpr fun value => closedReplaceFts (closedBlind blind Any value) (mapsAny memoryId).toTolerates title summary
    content tags

theorem keepsWriteRepairIntents (modelName : String) (before after : Records) :
    Keeps view (writeRepairIntents port env modelName before after) :=
  keepsIff.mpr fun value => closedWriteRepairIntents (closedBlind blind Any value) (mapsAny "").insertRepairIntent modelName
    before after

theorem keepsWriteRecordRevision (marks : Canonical.Separators) (eventId : String) (before after : Records)
    (memoryId : String) : Keeps view (writeRecordRevision port env marks eventId before after memoryId) :=
  keepsIff.mpr fun value => closedWriteRecordRevision (closedBlind blind Any value) (fun _ _ _ _ _ => trivial) marks
    eventId before after memoryId

end

end McpMemory.Memory
