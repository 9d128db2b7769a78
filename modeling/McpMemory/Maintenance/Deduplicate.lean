import Mathlib
import McpMemory.Relational.Repository

/-! `run_deterministic_deduplicator_pass` of `deduplicator_handlers.py` over the plain repository.
Embeddings come from outside: `cosine` is the similarity of two memories that both have one.
Scores are rationals. A pass also keeps the merges that it has begun, newest first, which it
never reads. -/
namespace McpMemory.Deduplicate
open Memory Text Transaction
open Curation (ActionError UpdateValues repositoryMemory)

/- `accessScore` is the column of that name. -/
structure Env extends Curation.ToolEnv where
  cosine : String → String → Option Rat
  accessScore : MemoryRecord → Rat

def factDeduplicationThreshold : Rat := 72 / 100

def observationAbsorptionThreshold : Rat := 62 / 100

def lowSignalGroupingTags : List String := ["anomaly-sample","architecture","audit","auto-defragmented","auto-ingested",
  "background-agent","deduplicator","maintenance","memory-curator","system1","system1-appended","system-design",
  "task-complete"]

def lowSignalTopicTokens : List String := ["agent","agents","architecture","background","cli","complete","completed",
  "daemon","design","implementation","implementations","infra","infrastructure","lifecycle","maintenance","migration",
  "migrations","observability","overview","project","projects","repo","repository","roadmap","runtime","service",
  "services","system","systems","task","tasks","testing","tool","tools","transport"]

/- `[a-zA-Z0-9_:-]` -/
def isTokenChar (c : Char) : Bool := c.isAlphanum || c == '_' || c == ':' || c == '-'

/- `TOKEN_PATTERN.findall` -/
def findTokens (text : String) : List String :=
  ((text.toList.splitOnP fun c => !isTokenChar c).filter (!·.isEmpty)).map String.ofList

def topicTokens (value : String) : List String :=
  (((findTokens value).map String.toLower).filter fun token => !lowSignalTopicTokens.contains token).dedup

def topicTokenOverlap (left right : String) : Rat :=
  let leftTokens := topicTokens left
  let rightTokens := topicTokens right
  if leftTokens.isEmpty || rightTokens.isEmpty then 0
  else (leftTokens.filter rightTokens.contains).length / (leftTokens ++ rightTokens).dedup.length

variable (env : Env)

def meaningfulTagSet (tags : List String) : List String :=
  (tags.map fun tag => env.unicode.lower (strip tag)).filter fun tag =>
    !(tag == "" || lowSignalGroupingTags.contains tag || "-task".toList.isSuffixOf tag.toList || contains tag "-task-")

def sharedMeaningfulTags (left right : List String) : List String :=
  (meaningfulTagSet env left).filter (meaningfulTagSet env right).contains

def memorySimilarity (left right : MemoryRecord) : Rat :=
  let shared := !(sharedMeaningfulTags env left.tags right.tags).isEmpty
  let lexical := topicTokenOverlap (left.title ++ " " ++ left.content) (right.title ++ " " ++ right.content)
  let semantic := if !shared && lexical < 12 / 100 then 0 else (env.cosine left.id right.id).getD 0
  max lexical (semantic + if shared then 15 / 100 else 0)

/- A group of at least two: the fact that it began with, and the others. -/
structure Group where
  fact : MemoryRecord
  others : List MemoryRecord

def Group.members (group : Group) : List MemoryRecord := group.fact :: group.others

/- The inner loop over all facts, with the ids used so far. -/
def gather (fact : MemoryRecord) : List MemoryRecord → List String → List MemoryRecord × List String
  | [],used => ([],used)
  | other::rest,used =>
    if used.contains other.id || other.id == fact.id then gather fact rest used
    else if factDeduplicationThreshold ≤ memorySimilarity env fact other then
      let gathered := gather fact rest (other.id::used)
      (other::gathered.1,gathered.2)
    else gather fact rest used

def collectGroups (facts : List MemoryRecord) : List MemoryRecord → List String → List Group
  | [],_ => []
  | fact::rest,used =>
    if used.contains fact.id then collectGroups facts rest used
    else
      let gathered := gather env fact facts (fact.id::used)
      let later := collectGroups facts rest gathered.2
      if gathered.1.isEmpty then later else ⟨fact,gathered.1⟩::later

def collectSimilarFactGroups (facts : List MemoryRecord) : List Group := collectGroups env facts facts []

/- `resolve_memory_id`, then COUNT(*). -/
def countIncomingLinks (memoryId : String) : Relational.Query Nat := statement fun t =>
  (repositoryMemory t memoryId).map fun found =>
    (found.elim 0 fun record => t.links.countP (·.targetId == record.id),t)

/- The tuples that `max` compares, with the number of incoming links first. -/
def keyLt (left right : Nat × MemoryRecord) : Bool :=
  left.1 < right.1 || left.1 == right.1 &&
    (env.accessScore left.2 < env.accessScore right.2 || env.accessScore left.2 == env.accessScore right.2 &&
      (left.2.updatedAt < right.2.updatedAt || left.2.updatedAt == right.2.updatedAt &&
        left.2.createdAt < right.2.createdAt))

/- `max` keeps the first of those that none exceeds. -/
def chooseFrom (best : Nat × MemoryRecord) : List MemoryRecord → Relational.Query MemoryRecord
  | [] => pure best.2
  | record::rest => do
    let links ← countIncomingLinks record.id
    chooseFrom (if keyLt env best (links,record) then (links,record) else best) rest

def chooseCanonicalFact (group : Group) : Relational.Query MemoryRecord := do
  let links ← countIncomingLinks group.fact.id
  chooseFrom env (links,group.fact) group.others

def bestTarget (observation : MemoryRecord) (best : Rat × Option MemoryRecord) (fact : MemoryRecord) :
    Rat × Option MemoryRecord :=
  let score := memorySimilarity env observation fact
  if observationAbsorptionThreshold ≤ score && best.1 < score then (score,some fact) else best

def findBestFactTarget (observation : MemoryRecord) (facts : List MemoryRecord) : Option MemoryRecord :=
  (facts.foldl (bestTarget env observation) (0,none)).2

def tagAliases : List (String × String) :=
  [("unit-test","testing"),("unit_tests","testing"),("tests","testing"),("test","testing"),("authn","auth"),("authz","auth")]

def normalizeTagValues (tags : List String) : List String :=
  let normalized := tags.map fun tag => replaceChar '_' '-' (env.unicode.lower (strip tag))
  sortedSet ((normalized.map fun tag => (tagAliases.lookup tag).getD tag).filter (· != ""))

/- `source.summary or source.content.strip()` -/
def additionOf (source : MemoryRow) : String := summaryOr source.summary (strip source.content)

def mergedParts (canonical source : MemoryRow) : List String :=
  let addition := additionOf source
  let parts := if addition == "" || contains canonical.content addition then [strip canonical.content]
    else [strip canonical.content,"Merged from " ++ source.title ++ ":\n" ++ addition]
  parts.filter (· != "")

/- The content of `_build_merged_fact_content`. -/
def mergedFactContent (canonical source : MemoryRow) : String :=
  if contains canonical.content (strip source.content) then canonical.content
  else String.intercalate "\n\n" (mergedParts canonical source)

def mergedMetadata (taskId : String) (canonical source : MemoryRow) : Json.Object :=
  Json.set (Curation.mergedSources env.toToolEnv canonical.metadata source.id) "deduplicator_task_id" (.str taskId)

def mergedChanges (taskId : String) (canonical source : MemoryRecord) : UpdateValues := { UpdateValues.nothing with
  title := some (some canonical.title)
  content := some (some (mergedFactContent canonical.toMemoryRow source.toMemoryRow))
  tags := some (normalizeTagValues env (canonical.tags ++ source.tags))
  metadata := some (mergedMetadata env taskId canonical.toMemoryRow source.toMemoryRow)
  workspaceIds := some (sortedSet (canonical.workspaceIds ++ source.workspaceIds)) }

def archives : UpdateValues := { UpdateValues.nothing with status := some "archived" }

def mergeIntoCanonicalFact (taskId : String) (canonical source : MemoryRecord) : Relational.Query MemoryRecord := do
  match ← Relational.updateMemory env.actions none canonical.id (mergedChanges env taskId canonical source) with
  | none => pure canonical
  | some updated =>
    let _ ← Relational.addLink env.actions updated.id source.id "SUPERSEDES" "Auto-merged into canonical fact memory."
    let _ ← Relational.updateMemory env.actions none source.id archives
    pure updated

structure Merge where
  canonical : MemoryRecord
  source : MemoryRecord

structure Pass where
  tables : Tables
  merges : List Merge

abbrev Passing (α : Type) := Tx Pass ActionError α

def onRepository {α : Type} (x : Relational.Query α) : Passing α :=
  zoom (·.tables) (fun tables pass => { pass with tables := tables }) x

def merging (taskId : String) (canonical source : MemoryRecord) : Passing MemoryRecord := do
  adjust fun pass => { pass with merges := ⟨canonical,source⟩ :: pass.merges }
  onRepository (mergeIntoCanonicalFact env taskId canonical source)

/- `claimed_sources` and the counts. -/
structure Progress where
  claimedSources : List String
  merged : Nat
  archived : Nat
  absorbedObservations : Nat
  deriving DecidableEq, Repr

def mergeGroup (taskId : String) : MemoryRecord → List MemoryRecord → Progress → Passing Progress
  | _,[],progress => pure progress
  | canonical,source::rest,progress =>
    if source.id == canonical.id || progress.claimedSources.contains source.id then
      mergeGroup taskId canonical rest progress
    else do
      let canonical ← merging env taskId canonical source
      mergeGroup taskId canonical rest { progress with
        claimedSources := source.id :: progress.claimedSources
        merged := progress.merged + 1
        archived := progress.archived + 1 }

def mergeGroups (taskId : String) : List Group → Progress → Passing Progress
  | [],progress => pure progress
  | group::rest,progress => do
    let canonical ← onRepository (chooseCanonicalFact env group)
    let progress ← mergeGroup env taskId canonical group.members progress
    mergeGroups taskId rest progress

/- A dictionary in the order in which its keys came. -/
def setRecord (records : List (String × MemoryRecord)) (memoryId : String) (record : MemoryRecord) :
    List (String × MemoryRecord) :=
  if records.any (·.1 == memoryId) then records.map fun entry => if entry.1 == memoryId then (memoryId,record) else entry
  else records ++ [(memoryId,record)]

/- `active_facts` and `active_facts_by_id` -/
structure Active where
  facts : List MemoryRecord
  byId : List (String × MemoryRecord)

def absorb (taskId : String) : List MemoryRecord → Active → Progress → Passing Progress
  | [],_,progress => pure progress
  | observation::rest,active,progress =>
    if progress.claimedSources.contains observation.id then absorb taskId rest active progress
    else match findBestFactTarget env observation active.facts with
      | none => absorb taskId rest active progress
      | some target => do
        let merged ← merging env taskId ((active.byId.lookup target.id).getD target) observation
        let byId := setRecord active.byId merged.id merged
        absorb taskId rest ⟨byId.map (·.2),byId⟩ { progress with
          claimedSources := observation.id :: progress.claimedSources
          absorbedObservations := progress.absorbedObservations + 1
          archived := progress.archived + 1 }

def factsOf (records : List MemoryRecord) : List MemoryRecord := records.filter (·.type == "fact")

def observationsOf (records : List MemoryRecord) : List MemoryRecord := records.filter (·.type == "observation")

def activeFacts (candidates : List MemoryRecord) : Active :=
  ⟨factsOf candidates,(factsOf candidates).foldl (fun records record => setRecord records record.id record) []⟩

def runDeterministicDeduplicatorPass (taskId : String) (candidates seeds : List MemoryRecord) : Passing Progress :=
  if (factsOf seeds).isEmpty then pure ⟨[],0,0,0⟩
  else do
    let progress ← mergeGroups env taskId (collectSimilarFactGroups env (factsOf seeds)) ⟨[],0,0,0⟩
    absorb env taskId (observationsOf seeds) (activeFacts candidates) progress

end McpMemory.Deduplicate
