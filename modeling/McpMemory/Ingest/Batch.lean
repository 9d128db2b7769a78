import McpMemory.Ingest.Groups
import McpMemory.Ingress.Evidence
import McpMemory.Memory.Tables

/-! `process_ingest_batch` of `task_handlers/ingest.py`: what a provider proposes for each group of
a claimed batch is carried out on the repository, and then the claims are settled in the journal.
The repository and the answers of the provider come from outside; the tools that the provider has
during its analysis only read. -/
namespace McpMemory.Ingest
open Journal Text Transaction Memory
open Ingress (SourceCoverage ActionReceipt)

inductive Failure where
  | valueError (message : String)
  | typeError (message : String)
  | runtimeError (message : String)
  | assertion
  | journal (error : JournalError)
  | raised (name : String)

structure NewMemory where
  title : String
  content : String
  summary : Option String
  workspaceIds : List String
  tags : List String
  memoryType : String
  metadata : Json.Object

structure MemoryChanges where
  content : Option String
  summary : Option String
  tags : Option (List String)
  metadata : Option Json.Object

inductive RepositoryCommand where
  | getMemory (memoryId : String)
  | createMemory (values : NewMemory)
  | updateMemory (memoryId : String) (changes : MemoryChanges)
  | appendWorkspaceIds (memoryId : String) (workspaceIds : List String)

abbrev Work (α : Type) := Script RepositoryCommand (fun _ => Option MemoryRecord) Failure α

/- `minute` is a time as it is printed, `titled` is `str.title` and `text` is `str` of a value that
is no string. -/
structure HandlerEnv where
  ingestMemoryQualityError : (title content : String) → (summary : Option String) → Option String
  minute : Int → String
  titled : String → String
  text : Json → String

variable (env : HandlerEnv)

inductive DispositionKind where
  | created
  | appended
  | ignored
  deriving DecidableEq, Repr

structure Disposition where
  entryId : Int
  disposition : DispositionKind
  memoryId : Option String
  memoryTitle : Option String
  reason : Option String
  deriving DecidableEq, Repr

def nonblank (value : Option String) : Option String :=
  value.bind fun text => if strip text = "" then none else some (strip text)

def buildSemanticEntryDispositions (entries : List Entry) (disposition : DispositionKind)
    (memoryId memoryTitle reason : Option String) : List Disposition :=
  entries.map fun entry => ⟨entry.id,disposition,nonblank memoryId,nonblank memoryTitle,nonblank reason⟩

/- What is made of a group, or of one of its actions. -/
structure Outcome where
  createdIds : List String
  handledIds : List Int
  meaningfulActions : Nat
  dispositions : List Disposition

def Outcome.nothing : Outcome := ⟨[],[],0,[]⟩

def Outcome.append (first second : Outcome) : Outcome :=
  ⟨first.createdIds ++ second.createdIds,first.handledIds ++ second.handledIds,
    first.meaningfulActions + second.meaningfulActions,first.dispositions ++ second.dispositions⟩

def ignored (entries : List Entry) (reason : String) : Outcome :=
  ⟨[],entries.map (·.id),0,buildSemanticEntryDispositions entries .ignored none none (some reason)⟩

def written (entries : List Entry) (disposition : DispositionKind) (record : MemoryRecord) : Outcome :=
  ⟨[record.id],entries.map (·.id),1,
    buildSemanticEntryDispositions entries disposition (some record.id) (some record.title) none⟩

def resolveEntryWorkspaceIds (entries : List Entry) (fallbackWorkspaceId : String) : List String :=
  let workspaceIds := sortedSet (entries.filterMap fun entry => nonblank entry.workspaceId)
  if workspaceIds.isEmpty then [fallbackWorkspaceId] else workspaceIds

def buildTitle : List Entry → String
  | [] => "System 1 Note"
  | first::_ =>
    let title := env.titled (strip (" ".intercalate ((words (strip first.content)).take 6)))
    if title = "" then "System 1 Note" else title

def formatEntries (entries : List Entry) : String :=
  "\n".intercalate (entries.map fun entry => "- [" ++ env.minute entry.timestamp ++ "] " ++ entry.content)

/- `_merge_int_list`; the other items of the existing list are dropped. -/
def mergeIntList (existing : Option Json) (incoming : List Int) : List Json :=
  let kept := (Json.items existing).filterMap fun
    | .int value => some value
    | _ => none
  (((incoming ++ kept).dedup).insertionSort (· ≤ ·)).map .int

def buildIngestCreatedMetadata (taskId : String) (entryIds : List Int) : Json.Object :=
  [("created_via_ingest",.bool true),("ingest_task_id",.str taskId),
    ("source_entry_ids",.arr (mergeIntList none entryIds))]

def buildIngestAppendedMetadata (taskId : String) (entryIds : List Int) (metadata : Json.Object) : Json.Object :=
  let merged := Json.set (Json.set metadata "appended_via_ingest" (.bool true)) "ingest_task_id" (.str taskId)
  Json.set merged "appended_entry_ids" (.arr (mergeIntList (Json.get merged "appended_entry_ids") entryIds))

/- The fields of an action as the provider gave it. -/

def givenText (action : Json.Object) (key : String) : String :=
  match Json.get action key with
  | none => ""
  | some (.str value) => value
  | some value => env.text value

def actionText (action : Json.Object) (key : String) : String := strip (givenText env action key)

def actionSummary (action : Json.Object) : Option String :=
  match Json.get action "summary" with
  | some (.str value) => some value
  | _ => none

/- The items that are looked at; a string and a dictionary are iterated over too, and have no numbers. -/
def entryIndices (action : Json.Object) : Except Failure (List Json) :=
  match Json.get action "entry_indices" with
  | none | some (.str _) | some (.obj _) => .ok []
  | some (.arr items) => .ok items
  | some _ => .error (.typeError "object is not iterable")

/- A boolean is a number as well. -/
def selectEntry (entries : List Entry) : Json → Option Entry
  | .int index => if 0 ≤ index then entries[index.toNat]? else none
  | .bool index => entries[if index then 1 else 0]?
  | _ => none

def required (record : Option MemoryRecord) : Work MemoryRecord :=
  match record with
  | some record => pure record
  | none => .fail .assertion

def appendEntriesToExistingMemory (taskId : String) (target : MemoryRecord) (entries : List Entry) : Work MemoryRecord := do
  let addition := formatEntries env entries
  let merged := if contains target.content addition then target.content
    else strip (rstrip target.content ++ "\n\n" ++ addition)
  let metadata := buildIngestAppendedMetadata taskId (entries.map (·.id)) target.metadata
  let updated ← ask (RepositoryCommand.updateMemory target.id ⟨some merged,none,some (sortedSet target.tags),some metadata⟩)
  required updated

/- The summary that was asked for. -/
def refreshSummary (updated : MemoryRecord) : Option String → Work MemoryRecord
  | none => pure updated
  | some summary => do
    let refreshed ← ask (RepositoryCommand.updateMemory updated.id ⟨none,some summary,none,none⟩)
    pure (refreshed.getD updated)

def refreshWorkspaceIds (updated : MemoryRecord) (workspaceIds : List String) : Work MemoryRecord := do
  let missing := workspaceIds.filter fun item => !updated.workspaceIds.contains item
  if missing.isEmpty then pure updated
  else
    let refreshed ← ask (RepositoryCommand.appendWorkspaceIds updated.id missing)
    pure (refreshed.getD updated)

def appendTarget (action : Json.Object) : Work (Option MemoryRecord) :=
  if actionText env action "target_memory_id" = "" then pure none
  else ask (RepositoryCommand.getMemory (actionText env action "target_memory_id"))

def appendAction (taskId workspaceId : String) (entries : List Entry) (action : Json.Object) : Work Outcome := do
  let target ← appendTarget env action
  match target with
  | none => pure .nothing
  | some target =>
    let updated ← appendEntriesToExistingMemory env taskId target entries
    let updated ← refreshSummary updated (nonblank (actionSummary action))
    let updated ← refreshWorkspaceIds updated (resolveEntryWorkspaceIds entries workspaceId)
    pure (written entries .appended updated)

def createFrom (taskId workspaceId : String) (entries : List Entry) (title content : String) (summary : Option String) :
    Work Outcome := do
  let record ← ask (RepositoryCommand.createMemory ⟨title,content,summary,resolveEntryWorkspaceIds entries workspaceId,[],
    "observation",buildIngestCreatedMetadata taskId (entries.map (·.id))⟩)
  let record ← required record
  pure (written entries .created record)

def orElse (text other : String) : String := if text = "" then other else text

def executeAction (taskId workspaceId : String) (entries : List Entry) (action : Json.Object) : Work Outcome := do
  let indices ← check (entryIndices action)
  let selected := indices.filterMap (selectEntry entries)
  let title := actionText env action "title"
  if selected.isEmpty then pure .nothing
  else if actionText env action "type" = "ignore" then pure (ignored selected "provider_marked_ignore")
  else if actionText env action "type" = "append" then
    -- The title is checked as it was given, with its blanks.
    match env.ingestMemoryQualityError (givenText env action "title") (formatEntries env selected) (actionSummary action) with
    | some error => pure (ignored selected error)
    | none => appendAction env taskId workspaceId selected action
  else if actionText env action "type" = "create" then
    let content := orElse (actionText env action "content") (formatEntries env selected)
    let title := orElse title (buildTitle env selected)
    match env.ingestMemoryQualityError title content (actionSummary action) with
    | some error => pure (ignored selected error)
    | none => createFrom taskId workspaceId selected title content (nonblank (actionSummary action))
  else pure .nothing

def executeIngestActions (taskId workspaceId : String) (entries : List Entry) : List Json.Object → Work Outcome
  | [] => pure .nothing
  | action::rest => do
    let first ← executeAction env taskId workspaceId entries action
    let later ← executeIngestActions taskId workspaceId entries rest
    pure (first.append later)

def fallbackIngestEntries (taskId workspaceId : String) (entries : List Entry) : Work Outcome :=
  let title := buildTitle env entries
  let content := formatEntries env entries
  match env.ingestMemoryQualityError title content none with
  | some error => pure (ignored entries error)
  | none => createFrom taskId workspaceId entries title content none

/- The answer of a provider on a group: its actions and the number of its mutating tool calls, or
nothing where there is no provider or the analysis raised. -/
abbrev Analysis := List Entry → Option (List Json.Object × Nat)

def orFallback (taskId workspaceId : String) (group : List Entry) (tried : Outcome) : Work Outcome :=
  if tried.handledIds.isEmpty then fallbackIngestEntries env taskId workspaceId group else pure tried

def handleGroup (analysis : Analysis) (taskId workspaceId : String) (group : List Entry) : Work Outcome := do
  let (actions,toolMutations) := (analysis group).getD ([],0)
  let tried ← executeIngestActions env taskId workspaceId group actions
  let settled ← orFallback env taskId workspaceId group tried
  pure { settled with meaningfulActions := settled.meaningfulActions + toolMutations }

def handleGroups (analysis : Analysis) (taskId workspaceId : String) : List (List Entry) → Work Outcome
  | [] => pure .nothing
  | group::rest => do
    let first ← handleGroup env analysis taskId workspaceId group
    let later ← handleGroups analysis taskId workspaceId rest
    pure (first.append later)

/- Operations of the journal while no other party acts. -/

def unclaimEntries (u : Unclaim) (taskId : String) (entryIds : List Int) (store : Store) : List Int × Store :=
  let ids := normalizeClaimedEntryIds taskId (some entryIds) store
  if ids.isEmpty then ([],store)
  else (ids,{ store with entries := Table.update (isClaimedIn taskId ids) u.set store.entries })

def unclaimAll (u : Unclaim) (taskId : String) (store : Store) : List Int × Store :=
  if strip taskId = "" then ([],store)
  else unclaimEntries u taskId (normalizeClaimedEntryIds taskId none store) store

/- They are the calls of the journal, each run to its end. -/
theorem unclaimAlone (u : Unclaim) (taskId : String) (entryIds : List Int) (store : Store) : ∃ emitted,
    Interleave.Alone journal (.unclaim u taskId entryIds) store
      (.answered (.ok (.ids (unclaimEntries u taskId entryIds store).1))) (unclaimEntries u taskId entryIds store).2 emitted := by
  unfold unclaimEntries
  dsimp only
  split
  · rename_i none
    exact ⟨_,Interleave.aloneQuiet (by simp [journal,Journal.step,none,Journal.answer]) (.rest _ _)⟩
  · rename_i some
    exact ⟨_,Interleave.aloneQuiet (by simp only [journal,Journal.step]; rw [if_neg some]) (.step _ _ (.rest _ _))⟩

/- What the evidence stores know; nothing where a store is absent or raises. -/
structure EvidenceStores where
  listForEntries : List String → Option (List SourceCoverage)
  getReceipt : String → Option ActionReceipt
  batchTask : String → Option String

def authoritative (stores : EvidenceStores) (taskId : String) (records : List SourceCoverage) (entryId : Int) : Bool :=
  match (records.filter fun record => record.entryId.toNat?.map Int.ofNat == some entryId).getLast? with
  | none => false
  | some coverage => coverage.entryId == toString entryId && coverage.outcome != .unobserved &&
    match coverage.actionId.bind fun actionId => if strip actionId = "" then none else stores.getReceipt actionId with
    | none => false
    | some receipt => receipt.status == .appliedUnverified && receipt.entryIds.contains (toString entryId) &&
      stores.batchTask receipt.batchId == some taskId

/- `_authoritative_finalized_ingest_entry_ids` -/
def authoritativeFinalized (stores : EvidenceStores) (taskId : String) (handledIds claimedIds : List Int) : List Int :=
  let candidates := (handledIds.filter fun entryId => !claimedIds.contains entryId).dedup
  if candidates.isEmpty then []
  else match stores.listForEntries (candidates.map toString) with
  | none => []
  | some records => candidates.filter (authoritative stores taskId records)

structure Settled where
  claimedIds : List Int
  recoverableIds : List Int
  releasedIds : List Int
  deriving DecidableEq, Repr

/- `list(dict.fromkeys(…))` -/
def orderedUnique (values : List Int) : List Int := values.reverse.dedup.reverse

def finalizeClaimedIngestEntries (stores : EvidenceStores) (taskId : String) (handledIds : List Int) (now : Int)
    (store : Store) : Settled × Store :=
  let claimed := normalizeClaimedEntryIds taskId none store
  let finalized := authoritativeFinalized stores taskId handledIds claimed
  let moved := unclaimEntries (moveToRecoverable none now) taskId (handledIds.filter claimed.contains) store
  let recoverable := orderedUnique (finalized ++ moved.1)
  let released := unclaimEntries .release taskId (claimed.filter fun entryId => !recoverable.contains entryId) moved.2
  (⟨orderedUnique (claimed ++ finalized),recoverable,released.1⟩,released.2)

/- What becomes of the evidence of the batch: it is there, it cannot be made or stored, or the
number of the batch is refused. -/
inductive Persisted where
  | stored
  | failed (error : Failure)
  | refused

inductive EvidenceMode where
  | off
  | shadow
  | enforce
  deriving DecidableEq, Repr

def persistIngressBatchEvidence (mode : EvidenceMode) (persisted : Persisted) (taskId : String) (now : Int) (store : Store) :
    Except Failure Unit × Store :=
  match mode,persisted with
  | .off,_ | _,.stored | .shadow,.failed _ => (.ok (),store)
  | _,.refused => (.error (.valueError "batch_sequence must be a positive integer"),store)
  | .enforce,.failed error => (.error error,(unclaimAll (moveToRecoverable none now) taskId store).2)

structure FinalDisposition where
  entryId : Int
  semantic : Option Disposition
  recoverable : Bool
  released : Bool
  deriving DecidableEq, Repr

/- The last disposition of an entry counts. -/
def finalizeEntryDispositions (settled : Settled) (dispositions : List Disposition) : List FinalDisposition :=
  settled.claimedIds.map fun entryId =>
    ⟨entryId,(dispositions.filter (·.entryId == entryId)).getLast?,settled.recoverableIds.contains entryId,
      settled.releasedIds.contains entryId⟩

structure BatchResult where
  createdIds : List String
  settled : Settled
  meaningfulActions : Nat
  entryDispositions : List Disposition ⊕ List FinalDisposition

/- The end of a batch, once its groups are handled. -/
def settleBatch (stores : EvidenceStores) (taskId : String) (claimedIds : List Int) (outcome : Outcome) (now : Int)
    (store : Store) : BatchResult × Store :=
  if outcome.meaningfulActions ≤ 0 then
    let released := unclaimAll .release taskId store
    (⟨outcome.createdIds,⟨claimedIds,[],released.1⟩,outcome.meaningfulActions,.inl outcome.dispositions⟩,released.2)
  else
    let settled := finalizeClaimedIngestEntries stores taskId outcome.handledIds now store
    (⟨outcome.createdIds,settled.1,outcome.meaningfulActions,
      .inr (finalizeEntryDispositions settled.1 outcome.dispositions)⟩,settled.2)

/- What a batch is given. -/
structure BatchRun (V : Type) where
  grouping : Env V
  handler : HandlerEnv
  stores : EvidenceStores
  analysis : Analysis
  mode : EvidenceMode
  persisted : Persisted
  taskId : String
  workspaceId : String
  groupingStrategy : String
  now : Int

section
variable {V σ : Type} (run : BatchRun V) (perform : (command : RepositoryCommand) → Tx σ Failure (Option MemoryRecord))

/- The repository's half of a batch. -/
def BatchRun.handle (entries : List Entry) : Work Outcome := do
  let groups ← check ((buildIngestGroups run.grouping sourceLimits entries (some run.taskId) run.groupingStrategy).mapError .journal)
  handleGroups run.handler run.analysis run.taskId run.workspaceId groups

def processIngestBatch (entries : List Entry) (oracle : Oracle Failure) (session : Session σ) (store : Store) :
    Except Failure BatchResult × Session σ × Store :=
  match persistIngressBatchEvidence run.mode run.persisted run.taskId run.now store with
  | (.error error,store) => (.error error,session,store)
  | (.ok (),store) =>
    if run.mode = .enforce then
      (.error (.runtimeError "atomic_boundary_required"),session,
        (unclaimAll (moveToRecoverable none run.now) run.taskId store).2)
    else match (run.handle entries).play perform oracle session with
    | (.error error,session) => (.error error,session,store)
    | (.ok outcome,session) =>
      let settled := settleBatch run.stores run.taskId (entries.map (·.id)) outcome run.now store
      (.ok settled.1,session,settled.2)

end

/- What the journal does to the claims of one task. -/

def chosen (taskId : String) (entryIds : List Int) (entry : Entry) : Bool :=
  claimedBy taskId entry && entryIds.contains entry.id

section
variable {u : Unclaim} {taskId : String} {entryIds : List Int} {store : Store}

theorem memNormalized (named : strip taskId ≠ "") (positive : ∀ entry ∈ store.entries, 0 < entry.id) {entryId : Int} :
    entryId ∈ normalizeClaimedEntryIds taskId (some entryIds) store ↔
      ∃ entry ∈ store.entries, chosen taskId entryIds entry ∧ entry.id = entryId := by
  rw [normalizeClaimedEntryIds,if_neg named,List.mem_map]
  refine exists_congr fun entry => ?_
  rw [oldestFirst,List.mem_insertionSort,List.mem_filter,and_assoc]
  refine and_congr_right fun there => ?_
  simp [chosen,positive entry there]

theorem memClaimed (named : strip taskId ≠ "") {entryId : Int} : entryId ∈ normalizeClaimedEntryIds taskId none store ↔
    ∃ entry ∈ store.entries, claimedBy taskId entry ∧ entry.id = entryId := by
  rw [normalizeClaimedEntryIds,if_neg named,List.mem_map]
  refine exists_congr fun entry => ?_
  rw [oldestFirst,List.mem_insertionSort,List.mem_filter,and_assoc]

/- An operation on ids rewrites the claims of the task among them. -/
theorem unclaimRows (named : strip taskId ≠ "") (unique : Table.UniqueBy (·.id) store.entries)
    (positive : ∀ entry ∈ store.entries, 0 < entry.id) :
    (unclaimEntries u taskId entryIds store).2 =
      { store with entries := Table.update (chosen taskId entryIds) u.set store.entries } := by
  have hits : ∀ entry ∈ store.entries,
      isClaimedIn taskId (normalizeClaimedEntryIds taskId (some entryIds) store) entry = chosen taskId entryIds entry := by
    intro entry there
    rw [Bool.eq_iff_iff,isClaimedIn,Bool.and_eq_true,List.contains_iff_mem,memNormalized named positive]
    constructor
    · rintro ⟨⟨other,among,hit,same⟩,_⟩
      rwa [← Table.equalOfKey unique among there same]
    · intro hit
      exact ⟨⟨entry,there,hit,rfl⟩,(Bool.and_eq_true_iff.mp hit).1⟩
  unfold unclaimEntries
  dsimp only
  split
  · rename_i none
    have free : ∀ entry ∈ store.entries, chosen taskId entryIds entry = false := by
      intro entry there
      rw [Bool.eq_false_iff]
      intro hit
      have listed := (memNormalized named positive).mpr ⟨entry,there,hit,rfl⟩
      rw [List.isEmpty_iff.mp none] at listed
      cases listed
    rw [Table.updateNone free]
  · rw [Table.updateCongr hits]

theorem memUnclaimed (named : strip taskId ≠ "") (positive : ∀ entry ∈ store.entries, 0 < entry.id) {entryId : Int} :
    entryId ∈ (unclaimEntries u taskId entryIds store).1 ↔
      ∃ entry ∈ store.entries, chosen taskId entryIds entry ∧ entry.id = entryId := by
  rw [← memNormalized named positive]
  unfold unclaimEntries
  dsimp only
  split
  · rename_i none
    rw [List.isEmpty_iff.mp none]
  · rfl

theorem unclaimedFree (u : Unclaim) (entry : Entry) : claimedBy taskId (u.set entry) = false := by
  cases u <;> rfl

theorem unclaimId (u : Unclaim) (entry : Entry) : (u.set entry).id = entry.id := by
  cases u <;> rfl

end

/- How a batch leaves the journal: nothing is claimed by its task any more. -/
structure Settles (taskId : String) (entries : List Entry) (recovers : Int → Prop) (after : Store) : Prop where
  free : ∀ later ∈ after.entries, claimedBy taskId later = false
  recovered : ∀ entry ∈ entries, recovers entry.id → ∃ later ∈ after.entries, later.id = entry.id ∧ later.status = .recoverable
  returned : ∀ entry ∈ entries, ¬ recovers entry.id → ∃ later ∈ after.entries, later.id = entry.id ∧ later.status = .pending

section
variable {taskId : String} {store : Store} {entries : List Entry}

theorem releaseSettles (named : strip taskId ≠ "") (unique : Table.UniqueBy (·.id) store.entries)
    (positive : ∀ entry ∈ store.entries, 0 < entry.id)
    (held : ∀ entry ∈ entries, ∃ row ∈ store.entries, row.id = entry.id ∧ claimedBy taskId row) :
    Settles taskId entries (fun _ => False) (unclaimAll .release taskId store).2 := by
  have all : ∀ row ∈ store.entries, claimedBy taskId row → chosen taskId (normalizeClaimedEntryIds taskId none store) row := by
    intro row there claimed
    have listed := (memClaimed named).mpr ⟨row,there,claimed,rfl⟩
    simp [chosen,claimed,listed]
  rw [unclaimAll,if_neg named,unclaimRows named unique positive]
  refine ⟨fun later member => ?_,fun _ _ never => never.elim,fun entry among _ => ?_⟩
  · obtain ⟨row,there,rfl⟩ := Table.memUpdate.mp member
    split
    · exact unclaimedFree _ row
    · rename_i apart
      exact Bool.eq_false_iff.mpr fun claimed => apart (all row there claimed)
  · obtain ⟨row,there,same,claimed⟩ := held entry among
    refine ⟨_,Table.memUpdate.mpr ⟨row,there,rfl⟩,?_⟩
    rw [if_pos (all row there claimed)]
    exact ⟨same,rfl⟩

/- Evidence speaks only of handled entries that are not claimed any more. -/
theorem memFinalized {stores : EvidenceStores} {handledIds claimedIds : List Int} {entryId : Int}
    (member : entryId ∈ authoritativeFinalized stores taskId handledIds claimedIds) : entryId ∈ handledIds := by
  unfold authoritativeFinalized at member
  dsimp only at member
  split at member
  · cases member
  · split at member
    · cases member
    · have candidate := List.mem_dedup.mp (List.mem_filter.mp member).1
      exact (List.mem_filter.mp candidate).1

theorem memOrderedUnique {values : List Int} {value : Int} : value ∈ orderedUnique values ↔ value ∈ values := by
  simp [orderedUnique]

/- First the handled claims become recoverable, then those of the others that are left are released. -/
theorem twoSettles {handledIds claimed left : List Int} {later : Int} {middle : Store}
    (held : ∀ entry ∈ entries, ∃ row ∈ store.entries, row.id = entry.id ∧ claimedBy taskId row)
    (listed : ∀ row ∈ store.entries, claimedBy taskId row → row.id ∈ claimed)
    (rest : ∀ entryId, entryId ∈ left ↔ entryId ∈ claimed ∧ entryId ∉ handledIds)
    (moved : middle.entries = Table.update (chosen taskId (handledIds.filter claimed.contains)) (Unclaim.moveToRecoverable later).set
      store.entries) :
    Settles taskId entries (· ∈ handledIds)
      { middle with entries := Table.update (chosen taskId left) Unclaim.release.set middle.entries } := by
  have taken : ∀ row ∈ store.entries, claimedBy taskId row → (chosen taskId (handledIds.filter claimed.contains) row ↔ row.id ∈ handledIds) := by
    intro row there own
    simp [chosen,own,listed row there own]
  -- What is still claimed in the middle was claimed before, and is not handled.
  have still : ∀ row ∈ middle.entries, claimedBy taskId row → chosen taskId left row := by
    intro row member own
    rw [moved] at member
    obtain ⟨old,there,rfl⟩ := Table.memUpdate.mp member
    split at own
    · rw [unclaimedFree] at own
      cases own
    · rename_i apart
      rw [taken old there own] at apart
      rw [if_neg (by rwa [taken old there own])]
      simp [chosen,own,(rest old.id).mpr ⟨listed old there own,apart⟩]
  refine ⟨fun last member => ?_,fun entry among handled => ?_,fun entry among unhandled => ?_⟩
  · obtain ⟨row,there,rfl⟩ := Table.memUpdate.mp member
    split
    · exact unclaimedFree _ row
    · rename_i apart
      exact Bool.eq_false_iff.mpr fun own => apart (still row there own)
  · obtain ⟨row,there,same,own⟩ := held entry among
    have between : (Unclaim.moveToRecoverable later).set row ∈ middle.entries := by
      rw [moved]
      exact Table.memUpdate.mpr ⟨row,there,by rw [if_pos ((taken row there own).mpr (same ▸ handled))]⟩
    refine ⟨_,Table.memUpdate.mpr ⟨_,between,rfl⟩,?_⟩
    rw [if_neg (by simp [chosen,unclaimedFree])]
    exact ⟨same,rfl⟩
  · obtain ⟨row,there,same,own⟩ := held entry among
    have apart : ¬ row.id ∈ handledIds := same ▸ unhandled
    have between : row ∈ middle.entries := by
      rw [moved]
      exact Table.memUpdate.mpr ⟨row,there,by rw [if_neg (by rwa [taken row there own])]⟩
    refine ⟨_,Table.memUpdate.mpr ⟨row,between,rfl⟩,?_⟩
    rw [if_pos (still row between own)]
    exact ⟨same,rfl⟩

theorem finalizeSettles {stores : EvidenceStores} {handledIds : List Int} {now : Int} (named : strip taskId ≠ "")
    (unique : Table.UniqueBy (·.id) store.entries) (positive : ∀ entry ∈ store.entries, 0 < entry.id)
    (held : ∀ entry ∈ entries, ∃ row ∈ store.entries, row.id = entry.id ∧ claimedBy taskId row) :
    Settles taskId entries (· ∈ handledIds) (finalizeClaimedIngestEntries stores taskId handledIds now store).2 := by
  unfold finalizeClaimedIngestEntries
  dsimp only
  generalize claims : normalizeClaimedEntryIds taskId none store = claimed
  have listed : ∀ row ∈ store.entries, claimedBy taskId row → row.id ∈ claimed := by
    intro row there own
    rw [← claims]
    exact (memClaimed named).mpr ⟨row,there,own,rfl⟩
  generalize moves : unclaimEntries (moveToRecoverable none now) taskId (handledIds.filter claimed.contains) store = moved
  have rows : moved.2.entries = Table.update (chosen taskId (handledIds.filter claimed.contains))
      (moveToRecoverable none now).set store.entries := by
    rw [← moves,unclaimRows named unique positive]
  have recorded {entryId : Int} : entryId ∈ orderedUnique (authoritativeFinalized stores taskId handledIds claimed ++ moved.1) →
      entryId ∈ handledIds := by
    rw [memOrderedUnique,List.mem_append]
    rintro (finalized | unclaimed)
    · exact memFinalized finalized
    · rw [← moves,memUnclaimed named positive] at unclaimed
      obtain ⟨row,_,hit,rfl⟩ := unclaimed
      have among := (Bool.and_eq_true_iff.mp hit).2
      rw [List.contains_iff_mem] at among
      exact (List.mem_filter.mp among).1
  have moved' : ∀ entryId ∈ claimed, entryId ∈ handledIds → entryId ∈ moved.1 := by
    intro entryId among handled
    rw [← claims,memClaimed named] at among
    obtain ⟨row,there,own,rfl⟩ := among
    rw [← moves,memUnclaimed named positive]
    exact ⟨row,there,by simp [chosen,own,handled,listed row there own],rfl⟩
  have rest (entryId : Int) : entryId ∈ claimed.filter (fun entryId =>
      !(orderedUnique (authoritativeFinalized stores taskId handledIds claimed ++ moved.1)).contains entryId) ↔
        entryId ∈ claimed ∧ entryId ∉ handledIds := by
    rw [List.mem_filter,Bool.not_eq_true',← Bool.not_eq_true,List.contains_iff_mem]
    refine and_congr_right fun among => not_congr ⟨recorded,fun handled => ?_⟩
    exact memOrderedUnique.mpr (List.mem_append_right _ (moved' entryId among handled))
  have uniques : Table.UniqueBy (·.id) moved.2.entries := by
    rw [rows]
    exact Table.updateUnique (fun row _ _ => unclaimId _ row) unique
  have positives : ∀ entry ∈ moved.2.entries, 0 < entry.id := by
    intro entry member
    rw [rows] at member
    obtain ⟨row,there,rfl⟩ := Table.memUpdate.mp member
    split
    · rw [unclaimId]
      exact positive row there
    · exact positive row there
  rw [unclaimRows named uniques positives]
  exact twoSettles held listed rest rows

end

/- Every handled entry has its disposition, and one that went into a memory makes the outcome
meaningful. -/
structure Outcome.Accounted (outcome : Outcome) : Prop where
  handled : outcome.handledIds = outcome.dispositions.map (·.entryId)
  meaningful : ∀ disposition ∈ outcome.dispositions, disposition.disposition ≠ .ignored → 0 < outcome.meaningfulActions

theorem nothingAccounted : Outcome.nothing.Accounted := ⟨rfl,fun _ none => absurd none List.not_mem_nil⟩

theorem ignoredAccounted (entries : List Entry) (reason : String) : (ignored entries reason).Accounted := by
  refine ⟨by simp [ignored,buildSemanticEntryDispositions,Function.comp_def],fun disposition member counted => ?_⟩
  obtain ⟨entry,_,rfl⟩ := List.mem_map.mp member
  exact absurd rfl counted

theorem writtenAccounted (entries : List Entry) (disposition : DispositionKind) (record : MemoryRecord) :
    (written entries disposition record).Accounted :=
  ⟨by simp [written,buildSemanticEntryDispositions,Function.comp_def],fun _ _ _ => Nat.one_pos⟩

theorem appendAccounted {first second : Outcome} (left : first.Accounted) (right : second.Accounted) :
    (first.append second).Accounted := by
  refine ⟨?_,fun disposition member counted => ?_⟩
  · simp only [Outcome.append,left.handled,right.handled,List.map_append]
  · rcases List.mem_append.mp member with member | member
    · exact Nat.add_pos_left (left.meaningful disposition member counted) _
    · exact Nat.add_pos_right _ (right.meaningful disposition member counted)

section
variable (env : HandlerEnv) (taskId workspaceId : String)

theorem requiredAlways (record : Option MemoryRecord) : (required record).Always fun _ => True := by
  cases record <;> trivial

theorem createFromAccounted (entries : List Entry) (title content : String) (summary : Option String) :
    (createFrom taskId workspaceId entries title content summary).Always Outcome.Accounted :=
  alwaysBind (alwaysAsk _) fun record _ => alwaysBind (requiredAlways record) fun record _ => writtenAccounted entries _ record

theorem refreshSummaryAlways (updated : MemoryRecord) (summary : Option String) :
    (refreshSummary updated summary).Always fun _ => True := by
  cases summary with
  | none => trivial
  | some summary => exact alwaysBind (alwaysAsk _) fun _ _ => trivial

theorem refreshWorkspaceIdsAlways (updated : MemoryRecord) (workspaceIds : List String) :
    (refreshWorkspaceIds updated workspaceIds).Always fun _ => True := by
  unfold refreshWorkspaceIds
  dsimp only
  split
  · trivial
  · exact alwaysBind (alwaysAsk _) fun _ _ => trivial

theorem appendActionAccounted (entries : List Entry) (action : Json.Object) :
    (appendAction env taskId workspaceId entries action).Always Outcome.Accounted := by
  have looked : (appendTarget env action).Always fun _ => True := by
    unfold appendTarget
    split
    · trivial
    · exact alwaysAsk _
  refine alwaysBind looked fun target _ => ?_
  cases target with
  | none => exact nothingAccounted
  | some target =>
    have appended : (appendEntriesToExistingMemory env taskId target entries).Always fun _ => True :=
      alwaysBind (alwaysAsk _) fun updated _ => requiredAlways updated
    refine alwaysBind appended fun updated _ => ?_
    refine alwaysBind (refreshSummaryAlways updated _) fun updated _ => ?_
    exact alwaysBind (refreshWorkspaceIdsAlways updated _) fun updated _ => writtenAccounted entries _ updated

theorem executeActionAccounted (entries : List Entry) (action : Json.Object) :
    (executeAction env taskId workspaceId entries action).Always Outcome.Accounted := by
  refine alwaysBind (alwaysCheck _) fun indices _ => ?_
  dsimp only
  split
  · exact nothingAccounted
  · split
    · exact ignoredAccounted _ _
    · split
      · split
        · exact ignoredAccounted _ _
        · exact appendActionAccounted env taskId workspaceId _ action
      · split
        · split
          · exact ignoredAccounted _ _
          · exact createFromAccounted taskId workspaceId _ _ _ _
        · exact nothingAccounted

theorem executeIngestActionsAccounted (entries : List Entry) (actions : List Json.Object) :
    (executeIngestActions env taskId workspaceId entries actions).Always Outcome.Accounted := by
  induction actions with
  | nil => exact nothingAccounted
  | cons action rest ih =>
    refine alwaysBind (executeActionAccounted env taskId workspaceId entries action) fun first left => ?_
    exact alwaysBind ih fun later right => appendAccounted left right

theorem fallbackAccounted (entries : List Entry) :
    (fallbackIngestEntries env taskId workspaceId entries).Always Outcome.Accounted := by
  unfold fallbackIngestEntries
  dsimp only
  split
  · exact ignoredAccounted _ _
  · exact createFromAccounted taskId workspaceId _ _ _ _

theorem handleGroupAccounted (analysis : Analysis) (group : List Entry) :
    (handleGroup env analysis taskId workspaceId group).Always Outcome.Accounted := by
  refine alwaysBind (executeIngestActionsAccounted env taskId workspaceId group _) fun tried accounted => ?_
  have settled : (orFallback env taskId workspaceId group tried).Always Outcome.Accounted := by
    unfold orFallback
    split
    · exact fallbackAccounted env taskId workspaceId group
    · exact accounted
  refine alwaysBind settled fun settled accounted => ?_
  have counted : ∀ disposition ∈ settled.dispositions, disposition.disposition ≠ .ignored →
      0 < settled.meaningfulActions + ((analysis group).getD ([],0)).2 :=
    fun disposition member into => Nat.add_pos_left (accounted.meaningful disposition member into) _
  exact ⟨accounted.handled,counted⟩

theorem handleGroupsAccounted (analysis : Analysis) (groups : List (List Entry)) :
    (handleGroups env analysis taskId workspaceId groups).Always Outcome.Accounted := by
  induction groups with
  | nil => exact nothingAccounted
  | cons group rest ih =>
    refine alwaysBind (handleGroupAccounted env taskId workspaceId analysis group) fun first left => ?_
    exact alwaysBind ih fun later right => appendAccounted left right

end

theorem pendingRow {limit : Int} {workspace : Workspace} {store : Store} {row : Entry}
    (chosen : row ∈ pendingRows limit workspace store) : row ∈ store.entries ∧ row.status = .pending := by
  have listed : row ∈ oldestFirst (store.entries.filter fun entry => entry.status == .pending &&
      workspace.selects entry.workspaceId) := by
    unfold pendingRows limited at chosen
    split at chosen
    · exact chosen
    · exact List.mem_of_mem_take chosen
  rw [oldestFirst,List.mem_insertionSort,List.mem_filter,Bool.and_eq_true,beq_iff_eq] at listed
  exact ⟨listed.1,listed.2.1⟩

/- The entries that a task is given are claimed by it. -/
theorem claimHolds {taskId : String} {limit : Int} {workspace : Workspace} {now : Int} {before after : Store} {entries emitted}
    (claim : Journal.step (.claimPending taskId limit workspace now) before = (.answered (.ok (.entries entries)),after,emitted)) :
    strip taskId ≠ "" ∧ ∀ entry ∈ entries, ∃ row ∈ after.entries, row.id = entry.id ∧ claimedBy taskId row := by
  simp only [Journal.step] at claim
  split at claim
  · cases claim
  · rename_i named
    refine ⟨named,fun entry among => ?_⟩
    cases taken : claimPending taskId limit workspace now before with
    | error error =>
      simp only [taken] at claim
      cases claim
    | ok answer =>
      simp only [taken] at claim
      cases claim
      obtain ⟨row,chosen,rfl⟩ := List.mem_map.mp among
      unfold claimPending at taken
      dsimp only at taken
      split at taken
      · cases taken
        cases chosen
      · split at taken
        · cases taken
          have pending := pendingRow chosen
          refine ⟨_,Table.memUpdate.mpr ⟨row,pending.1,rfl⟩,?_⟩
          have hit : isPendingIn ((pendingRows limit workspace before).map (·.id)) row := by
            simp only [isPendingIn,Bool.and_eq_true,List.contains_iff_mem,beq_iff_eq]
            exact ⟨List.mem_map.mpr ⟨row,chosen,rfl⟩,pending.2⟩
          rw [if_pos hit]
          exact ⟨rfl,by simp [claimedBy,claimSet]⟩
        · cases taken

section
variable {V σ : Type} {run : BatchRun V} {perform : (command : RepositoryCommand) → Tx σ Failure (Option MemoryRecord)}

theorem persistKeeps {mode : EvidenceMode} {persisted : Persisted} {taskId : String} {now : Int} {store after : Store}
    (ok : persistIngressBatchEvidence mode persisted taskId now store = (.ok (),after)) : after = store := by
  cases mode <;> cases persisted <;> cases ok <;> rfl

theorem settleSettles {stores : EvidenceStores} {taskId : String} {entries : List Entry} {outcome : Outcome} {now : Int}
    {store : Store} (named : strip taskId ≠ "") (unique : Table.UniqueBy (·.id) store.entries)
    (positive : ∀ entry ∈ store.entries, 0 < entry.id)
    (held : ∀ entry ∈ entries, ∃ row ∈ store.entries, row.id = entry.id ∧ claimedBy taskId row) :
    (settleBatch stores taskId (entries.map (·.id)) outcome now store).1.meaningfulActions = outcome.meaningfulActions ∧
    Settles taskId entries (fun entryId => 0 < outcome.meaningfulActions ∧ entryId ∈ outcome.handledIds)
      (settleBatch stores taskId (entries.map (·.id)) outcome now store).2 := by
  unfold settleBatch
  split
  · rename_i none
    refine ⟨rfl,?_⟩
    have never : ∀ entryId, (0 < outcome.meaningfulActions ∧ entryId ∈ outcome.handledIds) = False :=
      fun entryId => eq_false fun acted => Nat.not_lt.mpr none acted.1
    simp only [never]
    exact releaseSettles named unique positive held
  · rename_i some
    refine ⟨rfl,?_⟩
    simp only [Nat.lt_of_not_le some,true_and]
    exact finalizeSettles named unique positive held

/- A batch that returns has handled its groups and then settled its claims. -/
theorem returnedSettled {entries : List Entry} {oracle : Oracle Failure} {session later : Session σ} {store after : Store}
    {result : BatchResult} (returned : processIngestBatch run perform entries oracle session store = (.ok result,later,after)) :
    ∃ outcome, (run.handle entries).play perform oracle session = (.ok outcome,later) ∧
      settleBatch run.stores run.taskId (entries.map (·.id)) outcome run.now store = (result,after) := by
  unfold processIngestBatch at returned
  cases persisted : persistIngressBatchEvidence run.mode run.persisted run.taskId run.now store with
  | mk reply stored =>
  cases reply with
  | error error =>
    simp only [persisted] at returned
    cases returned
  | ok =>
    obtain rfl := persistKeeps persisted
    simp only [persisted] at returned
    split at returned
    · cases returned
    · cases handled : (run.handle entries).play perform oracle session with
      | mk reply session' =>
      cases reply with
      | error error =>
        simp only [handled] at returned
        cases returned
      | ok outcome =>
        simp only [handled] at returned
        cases returned
        exact ⟨outcome,rfl,rfl⟩

/- However the groups were handled, a batch that returns leaves no claim of its task: the handled
entries are recoverable when anything meaningful was done, and every other one is pending. -/
theorem batchSettled (events : Schedule) {entries : List Entry} {oracle : Oracle Failure} {session later : Session σ}
    {result : BatchResult} {after : Store} (named : strip run.taskId ≠ "")
    (held : ∀ entry ∈ entries, ∃ row ∈ (reached events).store.entries, row.id = entry.id ∧ claimedBy run.taskId row)
    (returned : processIngestBatch run perform entries oracle session (reached events).store = (.ok result,later,after)) :
    ∃ outcome, (run.handle entries).play perform oracle session = (.ok outcome,later) ∧ outcome.Accounted ∧
      result.meaningfulActions = outcome.meaningfulActions ∧
      Settles run.taskId entries (fun entryId => 0 < outcome.meaningfulActions ∧ entryId ∈ outcome.handledIds) after := by
  obtain ⟨outcome,handled,settled⟩ := returnedSettled returned
  have accounted : outcome.Accounted :=
    alwaysPlay (alwaysBind (alwaysCheck _) fun groups _ => handleGroupsAccounted run.handler run.taskId run.workspaceId
      run.analysis groups) handled
  obtain ⟨same,settles⟩ := @settleSettles run.stores run.taskId entries outcome run.now _ named (reachedSound events).unique
    (reachedPositive events) held
  rw [settled] at same settles
  exact ⟨outcome,handled,accounted,same,settles⟩

end

/- The same thought twice, claimed for one task; what a provider makes of the first. -/
def twice : Schedule := [.start (.record "x" none 1),.advance 0,.advance 0,.start (.record "x" none 2),.advance 1,.advance 1,
  .start (.claimPending "t" 10 .all 3),.advance 2]

def bothThoughts : List Entry := [⟨1,"x",none,1,.claimed,none,none,none⟩,⟨2,"x",none,2,.claimed,none,none,none⟩]

def answering (type : String) : BatchRun Unit where
  grouping := ⟨ascii,none,fun _ => id,fun _ => .refl⟩
  handler := ⟨fun _ _ _ => none,fun _ => "",id,fun _ => ""⟩
  stores := ⟨fun _ => none,fun _ => none,fun _ => none⟩
  analysis := fun _ => some ([[("type",.str type),("entry_indices",.arr [.int 0])]],0)
  mode := .off
  persisted := .refused
  taskId := "t"
  workspaceId := "w"
  groupingStrategy := fifoGroupingStrategy
  now := 4

def noting (_ : RepositoryCommand) : Tx Unit Failure (Option MemoryRecord) :=
  pure (some ⟨⟨"m",none,"x","x",none,"observation","active","","",none,[]⟩,[],[]⟩)

def undisturbed : Oracle Failure := fun _ => ⟨none,"","",0⟩

def settledRun (type : String) : Except Failure BatchResult × Session Unit × Store :=
  processIngestBatch (answering type) noting bothThoughts undisturbed ⟨(),0⟩ (reached twice).store

theorem batchSettledSample : ∃ outcome, ((answering "create").handle bothThoughts).play noting undisturbed ⟨(),0⟩ =
      (.ok outcome,(settledRun "create").2.1) ∧ outcome.handledIds = [1] ∧
    Settles "t" bothThoughts (fun entryId => 0 < outcome.meaningfulActions ∧ entryId ∈ outcome.handledIds)
      (settledRun "create").2.2 := by
  have fine : (settledRun "create").1.toOption.isSome := by decide +kernel
  have handled : (((answering "create").handle bothThoughts).play noting undisturbed ⟨(),0⟩).1.toOption.map (·.handledIds) =
      some [1] := by decide +kernel
  cases ran : settledRun "create" with
  | mk reply rest =>
  cases reply with
  | error error =>
    rw [ran] at fine
    cases fine
  | ok result =>
    obtain ⟨outcome,played,_,_,settles⟩ := batchSettled twice (by decide) (by decide +kernel) ran
    rw [played] at handled
    exact ⟨outcome,played,Option.some.inj handled,settles⟩

/- A provider that only ignores: what it handled is pending again. -/
theorem ignoredReturned : ¬ ∀ (result : BatchResult) (later : Session Unit) (after : Store) (outcome : Outcome),
    processIngestBatch (answering "ignore") noting bothThoughts undisturbed ⟨(),0⟩ (reached twice).store = (.ok result,later,after) →
    ((answering "ignore").handle bothThoughts).play noting undisturbed ⟨(),0⟩ = (.ok outcome,later) →
    ∀ entryId ∈ outcome.handledIds, ∃ row ∈ after.entries, row.id = entryId ∧ row.status = .recoverable := by
  intro recovered
  have fine : (settledRun "ignore").1.toOption.isSome := by decide +kernel
  have left : (settledRun "ignore").2.2.entries.all (·.status == .pending) := by decide +kernel
  have handled : (((answering "ignore").handle bothThoughts).play noting undisturbed ⟨(),0⟩).1.toOption.map (·.handledIds) =
      some [1] := by decide +kernel
  cases ran : settledRun "ignore" with
  | mk reply rest =>
  cases reply with
  | error error =>
    rw [ran] at fine
    cases fine
  | ok result =>
    obtain ⟨outcome,played,_⟩ := returnedSettled ran
    rw [played] at handled
    rw [ran] at left
    have own : outcome.handledIds = [1] := Option.some.inj handled
    obtain ⟨row,there,_,recoverable⟩ := recovered result rest.1 rest.2 outcome ran played 1 (own ▸ List.mem_singleton_self 1)
    have pending := List.all_eq_true.mp left row there
    rw [recoverable] at pending
    cases pending

end McpMemory.Ingest
