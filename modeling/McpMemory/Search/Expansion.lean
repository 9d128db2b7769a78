import McpMemory.Lib.BreadthFirst
import McpMemory.Search.Prefetch
import Mathlib.Data.Rat.Defs

/-! The graph store of `integrations/searchkernel_adapters.py`: from each seed along the outgoing
links of the memories, level by level and for all seeds at once, so that each level reads the links
and the records of all of them together. -/
namespace McpMemory.Search.Graph
open Memory hiding hydrateRecord
open Text Transaction

structure RecordIdentity where
  workspaceId : Option String
  sourceKind : String
  sourceId : String
  deriving DecidableEq

/- What the search kernel has for identities. A text that is no storage key raises. -/
structure Kernel where
  storageKey : RecordIdentity → String
  fromStorageKey : String → Option RecordIdentity

/- What the store reads through. A memory that is found under any text is found under its id. -/
structure ReadPort (ε : Type) where
  getMemory : String → Except ε (Option MemoryRecord)
  getLinks : String → Except ε (List MemoryLink)
  own : ∀ text record, getMemory text = .ok (some record) → record.id ≠ "" ∧ getMemory record.id = .ok (some record)

structure GraphNeighbor where
  identity : RecordIdentity
  edgeType : String
  weight : Rat
  deriving DecidableEq

def graphEdgeDiscounts : List (String × Rat) := [("DEPENDS_ON",7 / 10),("AMENDS",6 / 10),("CONTRADICTS",35 / 100)]

def discountOf (linkType : String) : Option Rat := graphEdgeDiscounts.lookup linkType

def sourceKind : String := "memory"

def recordIdentity (memory : MemoryRecord) (workspaceId : Option String) : RecordIdentity :=
  ⟨workspaceId.or (memory.workspaceIds.find? (· != "")),sourceKind,memory.id⟩

def memoryIdentity (memoryId : String) (memory : Option MemoryRecord) (workspaceId : Option String) : RecordIdentity :=
  match memory with
  | some memory => recordIdentity memory workspaceId
  | none => ⟨workspaceId,sourceKind,memoryId⟩

inductive RecordId where
  | text (value : String)
  | identity (value : RecordIdentity)

variable (kernel : Kernel)

def identityOf : RecordId → RecordIdentity
  | .identity value => value
  | .text value => (if startsWith value "record:" then kernel.fromStorageKey value else none).getD ⟨none,sourceKind,value⟩

variable {ε : Type} (port : ReadPort ε)

def readRecords : List String → Except ε (List MemoryRecord)
  | [] => .ok []
  | memoryId::rest => do
    let record ← port.getMemory memoryId
    let others ← readRecords rest
    .ok (record.toList ++ others)

def loadMemoryRecords (memoryIds : List String) : Except ε (List MemoryRecord) :=
  readRecords port ((memoryIds.filter (· != "")).eraseDups)

/- The records are in a dictionary by their ids, in which a later one replaces an earlier. -/
def recordAt (records : List MemoryRecord) (memoryId : String) : Option MemoryRecord :=
  records.reverse.find? (·.id == memoryId)

def getLinksMany : List String → Except ε (List (String × List MemoryLink))
  | [] => .ok []
  | memoryId::rest => do
    let links ← port.getLinks memoryId
    let others ← getLinksMany rest
    .ok ((memoryId,links) :: others)

/- The search from one seed; the seeds are told apart by their storage keys. -/
structure Expansion where
  seed : RecordIdentity
  frontier : List String
  visited : List String
  neighbors : List GraphNeighbor

def follow (allowed : String → Bool) (records : List MemoryRecord) (distance : Nat) (expansion : Expansion) (link : MemoryLink) :
    Expansion :=
  if !allowed link.linkType then expansion
  else if link.targetId ∈ expansion.visited then expansion
  else match discountOf link.linkType with
    | none => expansion
    | some discount => { expansion with
      frontier := expansion.frontier ++ [link.targetId]
      visited := link.targetId :: expansion.visited
      neighbors := expansion.neighbors ++ [⟨memoryIdentity link.targetId (recordAt records link.targetId) expansion.seed.workspaceId,
        link.linkType,discount / distance⟩] }

def advance (allowed : String → Bool) (linksBySource : List (String × List MemoryLink)) (records : List MemoryRecord)
    (distance : Nat) (expansion : Expansion) : Expansion :=
  expansion.frontier.foldl (fun expansion sourceId =>
    ((linksBySource.lookup sourceId).getD []).foldl (follow allowed records distance) expansion) { expansion with frontier := [] }

def expandLevel (allowed : String → Bool) (distance : Nat) (expansions : List Expansion) : Except ε (List Expansion) := do
  let linksBySource ← getLinksMany port (expansions.flatMap (·.frontier)).eraseDups
  let records ← loadMemoryRecords port ((linksBySource.flatMap fun entry => entry.2.map (·.targetId)).eraseDups)
  .ok (expansions.map (advance allowed linksBySource records distance))

def expand (allowed : String → Bool) : Nat → Nat → List Expansion → Except ε (List Expansion)
  | 0,_,expansions => .ok expansions
  | rest + 1,distance,expansions =>
    if (expansions.flatMap (·.frontier)).isEmpty then .ok expansions
    else do
      let expansions ← expandLevel port allowed distance expansions
      if (expansions.flatMap (·.frontier)).isEmpty then .ok expansions else expand allowed rest (distance + 1) expansions

/- A seed without a workspace gets the first one of its memory. -/
def seedOf (records : List MemoryRecord) (identity : RecordIdentity) : RecordIdentity :=
  match identity.workspaceId,recordAt records identity.sourceId with
  | none,some memory => recordIdentity memory none
  | _,_ => identity

def allowedTypes (edgeTypes : Option (List String)) (linkType : String) : Bool :=
  (edgeTypes.getD (graphEdgeDiscounts.map (·.1))).contains linkType

def start (seed : RecordIdentity) : Expansion := ⟨seed,[seed.sourceId],[seed.sourceId],[]⟩

/- Without a level to follow the seeds are not even looked along. -/
def neighborsManySync (identities : List RecordIdentity) (edgeTypes : Option (List String)) (depth : Int) :
    Except ε (List (String × List GraphNeighbor)) := do
  let identities := identities.eraseDups
  let records ← loadMemoryRecords port (identities.map (·.sourceId))
  let seeds := (identities.map (seedOf records)).eraseDups
  let expansions ← expand port (allowedTypes edgeTypes) depth.toNat 1 (seeds.map start)
  .ok (expansions.map fun expansion => (kernel.storageKey expansion.seed,expansion.neighbors))

/- `values[:end]`. -/
def takeTo {α : Type} (values : List α) (last : Int) : List α :=
  values.take (if last < 0 then values.length - last.natAbs else last.toNat)

def neighborsSync (recordId : RecordId) (edgeTypes : Option (List String)) (depth : Int) (maxNeighbors : Option Int) :
    Except ε (List GraphNeighbor) := do
  let results ← neighborsManySync kernel port [identityOf kernel recordId] edgeTypes depth
  let neighbors := (results.head?.map (·.2)).getD []
  .ok (match maxNeighbors with
    | none => neighbors
    | some last => takeTo neighbors last)

def neighborsMany (identities : List RecordIdentity) (depth : Int) : Except ε (List (String × List GraphNeighbor)) :=
  neighborsManySync kernel port identities none depth

/- The edges along which a search may go, and those that the code follows. -/
def linkEdges (passes : String → Bool) (memoryId : String) : List (String × String) := match port.getLinks memoryId with
  | .ok links => (links.filter fun link => passes link.linkType).map fun link => (link.targetId,link.linkType)
  | .error _ => []

def followed (edgeTypes : Option (List String)) (linkType : String) : Bool :=
  allowedTypes edgeTypes linkType && (discountOf linkType).isSome

def known (memoryId : String) : Option MemoryRecord :=
  match port.getMemory memoryId with
  | .ok (some record) => if record.id = memoryId then some record else none
  | _ => none

/- The seed that an identity stands for. -/
def seedIn (identity : RecordIdentity) : RecordIdentity := match identity.workspaceId,known port identity.sourceId with
  | none,some memory => recordIdentity memory none
  | _,_ => identity

/- All nodes but the seed that can be reached within the depth, each once, with the weight for its
distance and for an edge that it is reached by. -/
structure Exact (passes : String → Bool) (depth : Int) (source : String) (neighbors : List GraphNeighbor) : Prop where
  once : (neighbors.map (·.identity.sourceId)).Nodup
  nodes : ∀ node, node ∈ neighbors.map (·.identity.sourceId) ↔
    node ≠ source ∧ ∃ n : Nat, n ≤ depth ∧ BreadthFirst.Steps (linkEdges port passes) source n node
  weights : ∀ neighbor ∈ neighbors, ∃ (n : Nat) (discount : Rat) (before : String), n + 1 ≤ depth ∧
    BreadthFirst.Distance (linkEdges port passes) source (n + 1) neighbor.identity.sourceId ∧
    BreadthFirst.Distance (linkEdges port passes) source n before ∧
    (neighbor.identity.sourceId,neighbor.edgeType) ∈ linkEdges port passes before ∧
    discountOf neighbor.edgeType = some discount ∧ neighbor.weight = discount / ((n + 1 : Nat) : Rat)

structure Expands (identities : List RecordIdentity) (edgeTypes : Option (List String)) (depth : Int)
    (passes : String → Bool) : Prop where
  raises : ∀ error, neighborsManySync kernel port identities edgeTypes depth = .error error →
    ∃ text, port.getMemory text = .error error ∨ port.getLinks text = .error error
  exact : ∀ results, neighborsManySync kernel port identities edgeTypes depth = .ok results → ∀ identity ∈ identities,
    ∃ neighbors, results.lookup (kernel.storageKey (seedIn port identity)) = some neighbors ∧
      Exact port passes depth (seedIn port identity).sourceId neighbors ∧
      neighborsSync kernel port (.identity identity) edgeTypes depth none = .ok neighbors
  alone : (∃ results, neighborsManySync kernel port identities edgeTypes depth = .ok results) ↔ ∀ identity ∈ identities,
    ∃ neighbors, neighborsSync kernel port (.identity identity) edgeTypes depth none = .ok neighbors

variable {kernel port}

theorem recordsRead {memoryIds records} (ran : readRecords port memoryIds = .ok records) (record : MemoryRecord) :
    record ∈ records ↔ ∃ memoryId ∈ memoryIds, port.getMemory memoryId = .ok (some record) := by
  induction memoryIds generalizing records with
  | nil =>
    cases ran
    simp
  | cons memoryId rest ih =>
    obtain ⟨found,read,ran⟩ := checkedOk.mp ran
    obtain ⟨others,below,last⟩ := checkedOk.mp ran
    cases last
    rw [List.mem_append,ih below]
    simp only [List.mem_cons,exists_eq_or_imp,read,Except.ok.injEq,Option.mem_toList]

theorem recordsKnown {memoryIds records} (ran : loadMemoryRecords port memoryIds = .ok records) {memoryId : String}
    (asked : memoryId ∈ memoryIds) : recordAt records memoryId = known port memoryId := by
  have listed := recordsRead ran
  unfold known
  cases found : recordAt records memoryId with
  | some record =>
    have member : record ∈ records := List.mem_reverse.mp (List.mem_of_find?_eq_some found)
    have named : record.id = memoryId := by simpa using List.find?_some found
    obtain ⟨text,_,read⟩ := (listed record).mp member
    have own := (port.own text record read).2
    rw [named] at own
    rw [own]
    exact (if_pos named).symm
  | none =>
    rcases read : port.getMemory memoryId with error | _ | record
    · rfl
    · rfl
    · dsimp only
      split
      · rename_i named
        have solid : memoryId ≠ "" := named ▸ (port.own memoryId record read).1
        have member := (listed record).mpr ⟨memoryId,List.mem_eraseDups.mpr (List.mem_filter.mpr ⟨asked,bne_iff_ne.mpr solid⟩),read⟩
        exact absurd (beq_iff_eq.mpr named) (List.find?_eq_none.mp found record (List.mem_reverse.mpr member))
      · rfl

theorem linksRead {memoryIds linksBySource} (ran : getLinksMany port memoryIds = .ok linksBySource) {memoryId : String}
    (asked : memoryId ∈ memoryIds) : ∃ links, port.getLinks memoryId = .ok links ∧ linksBySource.lookup memoryId = some links := by
  induction memoryIds generalizing linksBySource with
  | nil => cases asked
  | cons first rest ih =>
    obtain ⟨links,read,ran⟩ := checkedOk.mp ran
    obtain ⟨others,below,last⟩ := checkedOk.mp ran
    cases last
    by_cases same : memoryId = first
    · subst same
      exact ⟨links,read,by simp⟩
    · obtain ⟨found,here,there⟩ := ih below ((List.mem_cons.mp asked).resolve_left same)
      refine ⟨found,here,?_⟩
      rw [List.lookup_cons,beq_false_of_ne same]
      exact there

/- An expansion is the wave of a search, with the identities and weights of what was found. -/

def neighborAt (port : ReadPort ε) (seed : RecordIdentity) (entry : String × String × Nat) : GraphNeighbor :=
  ⟨memoryIdentity entry.1 (known port entry.1) seed.workspaceId,entry.2.1,(discountOf entry.2.1).getD 0 / (entry.2.2 : Rat)⟩

def expansionOf (port : ReadPort ε) (seed : RecordIdentity) (wave : BreadthFirst.Wave String String) : Expansion :=
  ⟨seed,wave.frontier,wave.visited,wave.found.map (neighborAt port seed)⟩

section
variable {allowed : String → Bool} {records : List MemoryRecord} {distance : Nat} {seed : RecordIdentity}

def passing (allowed : String → Bool) (linkType : String) : Bool := allowed linkType && (discountOf linkType).isSome

theorem followOne {link : MemoryLink} (loaded : recordAt records link.targetId = known port link.targetId)
    (wave : BreadthFirst.Wave String String) : follow allowed records distance (expansionOf port seed wave) link =
      expansionOf port seed (if passing allowed link.linkType then
        BreadthFirst.visit distance wave (link.targetId,link.linkType) else wave) := by
  unfold follow passing BreadthFirst.visit
  cases allowed link.linkType with
  | false => rfl
  | true =>
    by_cases seen : link.targetId ∈ wave.visited
    · have there : link.targetId ∈ (expansionOf port seed wave).visited := seen
      rw [if_neg (by decide),if_pos there,if_pos seen,ite_self]
    · have there : link.targetId ∉ (expansionOf port seed wave).visited := seen
      rw [if_neg (by decide),if_neg there,if_neg seen]
      cases discounted : discountOf link.linkType with
      | none => rfl
      | some discount =>
        rw [loaded]
        unfold expansionOf
        simp only [Option.isSome_some,Bool.and_self,if_true,List.map_append,List.map_cons,List.map_nil,neighborAt,discounted,
          Option.getD_some]

theorem followEach {links : List MemoryLink} (loaded : ∀ link ∈ links, recordAt records link.targetId = known port link.targetId)
    (wave : BreadthFirst.Wave String String) :
    links.foldl (follow allowed records distance) (expansionOf port seed wave) =
      expansionOf port seed (((links.filter fun link => passing allowed link.linkType).map fun link =>
        (link.targetId,link.linkType)).foldl (BreadthFirst.visit distance) wave) := by
  induction links generalizing wave with
  | nil => rfl
  | cons link rest ih =>
    rw [List.foldl_cons,followOne (loaded link List.mem_cons_self),ih fun other member => loaded other (List.mem_cons_of_mem _ member)]
    cases passes : passing allowed link.linkType with
    | false =>
      rw [List.filter_cons_of_neg (by simp [passes])]
      rfl
    | true =>
      rw [List.filter_cons_of_pos (by exact passes)]
      rfl

/- What a level reads along of one node. -/
def Reads (port : ReadPort ε) (memoryId : String) : Prop := ∃ links, port.getLinks memoryId = .ok links ∧
  ∀ link ∈ links, link.targetId ≠ "" → ∃ found, port.getMemory link.targetId = .ok found

theorem advanceLevel {linksBySource : List (String × List MemoryLink)} {wave : BreadthFirst.Wave String String}
    (linked : ∀ node ∈ wave.frontier, ∃ links, port.getLinks node = .ok links ∧ linksBySource.lookup node = some links)
    (loaded : ∀ node links, linksBySource.lookup node = some links → ∀ link ∈ links,
      recordAt records link.targetId = known port link.targetId) :
    advance allowed linksBySource records distance (expansionOf port seed wave) =
      expansionOf port seed (BreadthFirst.level (linkEdges port (passing allowed)) distance wave) := by
  have each : ∀ (frontier : List String) (wave' : BreadthFirst.Wave String String), (∀ node ∈ frontier, node ∈ wave.frontier) →
      frontier.foldl (fun expansion sourceId => ((linksBySource.lookup sourceId).getD []).foldl
        (follow allowed records distance) expansion) (expansionOf port seed wave') =
      expansionOf port seed (frontier.foldl (fun wave node =>
        (linkEdges port (passing allowed) node).foldl (BreadthFirst.visit distance) wave) wave') := by
    intro frontier
    induction frontier with
    | nil => exact fun _ _ => rfl
    | cons node rest ih =>
      intro wave' within
      obtain ⟨links,read,found⟩ := linked node (within node List.mem_cons_self)
      have edges : linkEdges port (passing allowed) node = (links.filter fun link => passing allowed link.linkType).map
          fun link => (link.targetId,link.linkType) := by
        unfold linkEdges
        rw [read]
      rw [List.foldl_cons,List.foldl_cons,found,Option.getD_some,followEach (loaded node links found),edges]
      exact ih _ fun other member => within other (List.mem_cons_of_mem _ member)
  exact each wave.frontier { wave with frontier := [] } fun _ => id

end

section
variable {allowed : String → Bool} {pairs : List (RecordIdentity × BreadthFirst.Wave String String)}

def expansionsOf (port : ReadPort ε) (pairs : List (RecordIdentity × BreadthFirst.Wave String String)) : List Expansion :=
  pairs.map fun pair => expansionOf port pair.1 pair.2

theorem frontiersOf : (expansionsOf port pairs).flatMap (·.frontier) = pairs.flatMap (·.2.frontier) := List.flatMap_map ..

theorem levelExpands {distance : Nat} {expansions} (ran : expandLevel port allowed distance (expansionsOf port pairs) = .ok expansions) :
    expansions = expansionsOf port (pairs.map fun pair =>
      (pair.1,BreadthFirst.level (linkEdges port (passing allowed)) distance pair.2)) := by
  obtain ⟨linksBySource,linked,ran⟩ := checkedOk.mp ran
  obtain ⟨records,loaded,last⟩ := checkedOk.mp ran
  cases last
  unfold expansionsOf
  rw [List.map_map,List.map_map]
  refine List.map_congr_left fun pair member => advanceLevel (fun node there => ?_) fun node links found link listed => ?_
  · refine linksRead linked (List.mem_eraseDups.mpr ?_)
    rw [frontiersOf]
    exact List.mem_flatMap.mpr ⟨pair,member,there⟩
  · refine recordsKnown loaded (List.mem_eraseDups.mpr (List.mem_flatMap.mpr ⟨(node,links),Table.lookupMember found,?_⟩))
    exact List.mem_map_of_mem listed

/- Once no seed has anything to follow, it makes no difference whether the levels go on. -/
theorem expandCons {rest distance : Nat} {expansions : List Expansion} : expand port allowed (rest + 1) distance expansions =
    if (expansions.flatMap (·.frontier)).isEmpty then .ok expansions
    else expandLevel port allowed distance expansions >>= expand port allowed rest (distance + 1) := by
  have ended : ∀ rest distance (expansions : List Expansion), (expansions.flatMap (·.frontier)).isEmpty = true →
      expand port allowed rest distance expansions = .ok expansions := by
    intro rest distance expansions empty
    cases rest with
    | zero => rfl
    | succ rest => exact if_pos empty
  rw [expand]
  split
  · rfl
  · cases expandLevel port allowed distance expansions with
    | error error => rfl
    | ok expansions =>
      show (if (expansions.flatMap (·.frontier)).isEmpty = true then _ else _) = expand port allowed rest (distance + 1) expansions
      split
      · rename_i empty
        exact (ended _ _ _ empty).symm
      · rfl

theorem endedAll {rest distance : Nat} (ended : (pairs.flatMap (·.2.frontier)).isEmpty = true) :
    pairs.map (fun pair => (pair.1,BreadthFirst.search (linkEdges port (passing allowed)) rest distance pair.2)) = pairs := by
  refine (List.map_congr_left fun pair member => ?_).trans (List.map_id _)
  have none : pair.2.frontier = [] := List.flatMap_eq_nil_iff.mp (List.isEmpty_iff.mp ended) pair member
  exact Prod.ext rfl (BreadthFirst.searchEnded none rest distance)

theorem expandSearches {rest distance : Nat} {expansions}
    (ran : expand port allowed rest distance (expansionsOf port pairs) = .ok expansions) :
    expansions = expansionsOf port (pairs.map fun pair =>
      (pair.1,BreadthFirst.search (linkEdges port (passing allowed)) rest distance pair.2)) := by
  induction rest generalizing distance pairs with
  | zero =>
    cases ran
    exact congrArg (expansionsOf port) (List.map_id _).symm
  | succ rest ih =>
    rw [expandCons,frontiersOf] at ran
    split at ran
    · rename_i ended
      cases ran
      rw [endedAll ended]
    · obtain ⟨next,leveled,ran⟩ := checkedOk.mp ran
      rw [levelExpands leveled] at ran
      rw [ih ran,List.map_map]
      rfl

end

/- What answers and what raises. -/

theorem recordsAnswer {memoryIds : List String} : (∃ records, readRecords port memoryIds = .ok records) ↔
    ∀ memoryId ∈ memoryIds, ∃ found, port.getMemory memoryId = .ok found := by
  induction memoryIds with
  | nil => exact ⟨fun _ => nofun,fun _ => ⟨[],rfl⟩⟩
  | cons memoryId rest ih =>
    rw [List.forall_mem_cons,← ih]
    constructor
    · rintro ⟨records,ran⟩
      obtain ⟨found,read,ran⟩ := checkedOk.mp ran
      obtain ⟨others,below,_⟩ := checkedOk.mp ran
      exact ⟨⟨found,read⟩,others,below⟩
    · rintro ⟨⟨found,read⟩,others,below⟩
      exact ⟨_,checkedOk.mpr ⟨found,read,checkedOk.mpr ⟨others,below,rfl⟩⟩⟩

theorem loadAnswers {memoryIds : List String} : (∃ records, loadMemoryRecords port memoryIds = .ok records) ↔
    ∀ memoryId ∈ memoryIds, memoryId ≠ "" → ∃ found, port.getMemory memoryId = .ok found := by
  unfold loadMemoryRecords
  rw [recordsAnswer]
  simp only [List.mem_eraseDups,List.mem_filter,bne_iff_ne,and_imp]

theorem linksAnswer {memoryIds : List String} : (∃ linksBySource, getLinksMany port memoryIds = .ok linksBySource) ↔
    ∀ memoryId ∈ memoryIds, ∃ links, port.getLinks memoryId = .ok links := by
  induction memoryIds with
  | nil => exact ⟨fun _ => nofun,fun _ => ⟨[],rfl⟩⟩
  | cons memoryId rest ih =>
    rw [List.forall_mem_cons,← ih]
    constructor
    · rintro ⟨linksBySource,ran⟩
      obtain ⟨links,read,ran⟩ := checkedOk.mp ran
      obtain ⟨others,below,_⟩ := checkedOk.mp ran
      exact ⟨⟨links,read⟩,others,below⟩
    · rintro ⟨⟨links,read⟩,others,below⟩
      exact ⟨_,checkedOk.mpr ⟨links,read,checkedOk.mpr ⟨others,below,rfl⟩⟩⟩

theorem linksListed {memoryIds linksBySource} (ran : getLinksMany port memoryIds = .ok linksBySource) {memoryId : String} {links}
    (listed : (memoryId,links) ∈ linksBySource) : memoryId ∈ memoryIds ∧ port.getLinks memoryId = .ok links := by
  induction memoryIds generalizing linksBySource with
  | nil =>
    cases ran
    cases listed
  | cons first rest ih =>
    obtain ⟨found,read,ran⟩ := checkedOk.mp ran
    obtain ⟨others,below,last⟩ := checkedOk.mp ran
    cases last
    rcases List.mem_cons.mp listed with same | later
    · cases same
      exact ⟨List.mem_cons_self,read⟩
    · exact ⟨List.mem_cons_of_mem _ (ih below later).1,(ih below later).2⟩

section
variable {allowed : String → Bool} {pairs : List (RecordIdentity × BreadthFirst.Wave String String)}

theorem levelAnswers {distance : Nat} : (∃ expansions, expandLevel port allowed distance (expansionsOf port pairs) = .ok expansions) ↔
    ∀ pair ∈ pairs, ∀ node ∈ pair.2.frontier, Reads port node := by
  have sources : ∀ node, node ∈ ((expansionsOf port pairs).flatMap (·.frontier)).eraseDups ↔
      ∃ pair ∈ pairs, node ∈ pair.2.frontier := by
    intro node
    rw [List.mem_eraseDups,frontiersOf,List.mem_flatMap]
  constructor
  · rintro ⟨expansions,ran⟩ pair member node there
    obtain ⟨linksBySource,linked,ran⟩ := checkedOk.mp ran
    obtain ⟨records,loaded,_⟩ := checkedOk.mp ran
    obtain ⟨links,read,found⟩ := linksRead linked ((sources node).mpr ⟨pair,member,there⟩)
    refine ⟨links,read,fun link listed => loadAnswers.mp ⟨records,loaded⟩ _ (List.mem_eraseDups.mpr ?_)⟩
    exact List.mem_flatMap.mpr ⟨_,Table.lookupMember found,List.mem_map_of_mem listed⟩
  · intro reads
    obtain ⟨linksBySource,linked⟩ := linksAnswer.mpr fun node listed => by
      obtain ⟨pair,member,there⟩ := (sources node).mp listed
      obtain ⟨links,read,_⟩ := reads pair member node there
      exact ⟨links,read⟩
    obtain ⟨records,loaded⟩ := (@loadAnswers _ port ((linksBySource.flatMap fun entry => entry.2.map (·.targetId)).eraseDups)).mpr
      fun target listed => by
        obtain ⟨⟨node,links⟩,entry,mapped⟩ := List.mem_flatMap.mp (List.mem_eraseDups.mp listed)
        obtain ⟨link,within,rfl⟩ := List.mem_map.mp mapped
        obtain ⟨known,read⟩ := linksListed linked entry
        obtain ⟨pair,member,there⟩ := (sources node).mp known
        obtain ⟨others,again,targets⟩ := reads pair member node there
        cases read.symm.trans again
        exact targets link within
    exact ⟨_,checkedOk.mpr ⟨linksBySource,linked,checkedOk.mpr ⟨records,loaded,rfl⟩⟩⟩

theorem expandAnswers {rest distance : Nat} : (∃ expansions, expand port allowed rest distance (expansionsOf port pairs) = .ok expansions) ↔
    ∀ pair ∈ pairs, ∀ k, k < rest → ∀ node ∈
      (BreadthFirst.search (linkEdges port (passing allowed)) k distance pair.2).frontier, Reads port node := by
  induction rest generalizing distance pairs with
  | zero => exact ⟨fun _ _ _ _ less => absurd less (Nat.not_lt_zero _),fun _ => ⟨_,rfl⟩⟩
  | succ rest ih =>
    rw [expandCons,frontiersOf]
    split
    · rename_i ended
      refine ⟨fun _ pair member k _ node there => ?_,fun _ => ⟨_,rfl⟩⟩
      have none : pair.2.frontier = [] := List.flatMap_eq_nil_iff.mp (List.isEmpty_iff.mp ended) pair member
      rw [BreadthFirst.searchEnded none,none] at there
      cases there
    · have leveled := @ih (pairs.map fun pair =>
        (pair.1,BreadthFirst.level (linkEdges port (passing allowed)) distance pair.2)) (distance + 1)
      rw [List.forall_mem_map] at leveled
      constructor
      · rintro ⟨expansions,ran⟩ pair member k less
        obtain ⟨next,first,ran⟩ := checkedOk.mp ran
        cases k with
        | zero => exact levelAnswers.mp ⟨next,first⟩ pair member
        | succ k =>
          rw [levelExpands first] at ran
          exact leveled.mp ⟨expansions,ran⟩ pair member k (Nat.lt_of_succ_lt_succ less)
      · intro reads
        obtain ⟨next,first⟩ := (@levelAnswers _ port allowed pairs distance).mpr fun pair member =>
          reads pair member 0 (Nat.succ_pos rest)
        obtain ⟨expansions,ran⟩ := leveled.mpr fun pair member k less => reads pair member (k + 1) (Nat.succ_lt_succ less)
        refine ⟨expansions,checkedOk.mpr ⟨next,first,?_⟩⟩
        rw [levelExpands first]
        exact ran

end

/- An error is one of a read. -/
def Raised (port : ReadPort ε) (error : ε) : Prop := ∃ text, port.getMemory text = .error error ∨ port.getLinks text = .error error

theorem recordsRaise {memoryIds : List String} {error : ε} (failed : readRecords port memoryIds = .error error) : Raised port error := by
  induction memoryIds with
  | nil => cases failed
  | cons memoryId rest ih =>
    rcases checkedError.mp failed with read | ⟨found,_,later⟩
    · exact ⟨memoryId,.inl read⟩
    · rcases checkedError.mp later with below | ⟨_,_,last⟩
      · exact ih below
      · cases last

theorem linksRaise {memoryIds : List String} {error : ε} (failed : getLinksMany port memoryIds = .error error) : Raised port error := by
  induction memoryIds with
  | nil => cases failed
  | cons memoryId rest ih =>
    rcases checkedError.mp failed with read | ⟨links,_,later⟩
    · exact ⟨memoryId,.inr read⟩
    · rcases checkedError.mp later with below | ⟨_,_,last⟩
      · exact ih below
      · cases last

theorem levelRaises {allowed : String → Bool} {distance : Nat} {expansions : List Expansion} {error : ε}
    (failed : expandLevel port allowed distance expansions = .error error) : Raised port error := by
  rcases checkedError.mp failed with linked | ⟨_,_,later⟩
  · exact linksRaise linked
  · rcases checkedError.mp later with loaded | ⟨_,_,last⟩
    · exact recordsRaise loaded
    · cases last

theorem expandRaises {allowed : String → Bool} {rest distance : Nat} {expansions : List Expansion} {error : ε}
    (failed : expand port allowed rest distance expansions = .error error) : Raised port error := by
  induction rest generalizing distance expansions with
  | zero => cases failed
  | succ rest ih =>
    rw [expandCons] at failed
    split at failed
    · cases failed
    · rcases checkedError.mp failed with first | ⟨next,_,later⟩
      · exact levelRaises first
      · exact ih later

/- The whole of a call. -/

def founds (port : ReadPort ε) (edgeTypes : Option (List String)) (depth : Int) (seed : RecordIdentity) : List GraphNeighbor :=
  (BreadthFirst.search (linkEdges port (followed edgeTypes)) depth.toNat 1 (BreadthFirst.begin seed.sourceId)).found.map
    (neighborAt port seed)

def Answered (port : ReadPort ε) (edgeTypes : Option (List String)) (depth : Int) (identity : RecordIdentity) : Prop :=
  (identity.sourceId ≠ "" → ∃ found, port.getMemory identity.sourceId = .ok found) ∧ ∀ k, k < depth.toNat → ∀ node ∈
    (BreadthFirst.search (linkEdges port (followed edgeTypes)) k 1 (BreadthFirst.begin identity.sourceId)).frontier, Reads port node

theorem knownId {memoryId : String} {record : MemoryRecord} (found : known port memoryId = some record) : record.id = memoryId := by
  unfold known at found
  split at found
  · split at found
    · rename_i named
      cases found
      exact named
    · cases found
  · cases found

theorem seedSource (identity : RecordIdentity) : (seedIn port identity).sourceId = identity.sourceId := by
  unfold seedIn
  split
  · rename_i found
    exact knownId found
  · rfl

theorem seedRead {records} {identity : RecordIdentity} (loaded : recordAt records identity.sourceId = known port identity.sourceId) :
    seedOf records identity = seedIn port identity := by
  unfold seedOf seedIn
  rw [loaded]

section
variable {identities : List RecordIdentity} {edgeTypes : Option (List String)} {depth : Int}

theorem seedsRead {records} (loaded : loadMemoryRecords port (identities.eraseDups.map (·.sourceId)) = .ok records) :
    identities.eraseDups.map (seedOf records) = identities.eraseDups.map (seedIn port) :=
  List.map_congr_left fun _ member => seedRead (recordsKnown loaded (List.mem_map_of_mem member))

theorem startsOf (seeds : List RecordIdentity) :
    seeds.map start = expansionsOf port (seeds.map fun seed => (seed,BreadthFirst.begin seed.sourceId)) := by
  unfold expansionsOf
  rw [List.map_map]
  rfl

theorem manyFound {results} (ran : neighborsManySync kernel port identities edgeTypes depth = .ok results) :
    results = ((identities.eraseDups.map (seedIn port)).eraseDups).map fun seed =>
      (kernel.storageKey seed,founds port edgeTypes depth seed) := by
  obtain ⟨records,loaded,ran⟩ := checkedOk.mp ran
  obtain ⟨expansions,expanded,last⟩ := checkedOk.mp ran
  cases last
  rw [seedsRead loaded,@startsOf ε port] at expanded
  rw [expandSearches expanded]
  unfold expansionsOf
  rw [List.map_map,List.map_map,List.map_map]
  rfl

theorem manyAnswers : (∃ results, neighborsManySync kernel port identities edgeTypes depth = .ok results) ↔
    ∀ identity ∈ identities, Answered port edgeTypes depth identity := by
  have reads : (∃ records, loadMemoryRecords port (identities.eraseDups.map (·.sourceId)) = .ok records) ↔
      ∀ identity ∈ identities, identity.sourceId ≠ "" → ∃ found, port.getMemory identity.sourceId = .ok found := by
    rw [loadAnswers,List.forall_mem_map]
    simp only [List.mem_eraseDups]
  have expands : (∃ expansions, expand port (allowedTypes edgeTypes) depth.toNat 1
      (((identities.eraseDups.map (seedIn port)).eraseDups).map start) = .ok expansions) ↔ ∀ identity ∈ identities, ∀ k,
      k < depth.toNat → ∀ node ∈ (BreadthFirst.search (linkEdges port (followed edgeTypes)) k 1
        (BreadthFirst.begin identity.sourceId)).frontier, Reads port node := by
    rw [@startsOf ε port,expandAnswers,List.forall_mem_map]
    simp only [List.mem_eraseDups,List.mem_map,forall_exists_index,and_imp,forall_apply_eq_imp_iff₂,seedSource]
    exact Iff.rfl
  constructor
  · rintro ⟨results,ran⟩ identity member
    obtain ⟨records,loaded,ran⟩ := checkedOk.mp ran
    obtain ⟨expansions,expanded,_⟩ := checkedOk.mp ran
    rw [seedsRead loaded] at expanded
    exact ⟨reads.mp ⟨records,loaded⟩ identity member,expands.mp ⟨expansions,expanded⟩ identity member⟩
  · intro answered
    obtain ⟨records,loaded⟩ := reads.mpr fun identity member => (answered identity member).1
    obtain ⟨expansions,expanded⟩ := expands.mpr fun identity member => (answered identity member).2
    refine ⟨_,checkedOk.mpr ⟨records,loaded,checkedOk.mpr ⟨expansions,?_,rfl⟩⟩⟩
    rw [seedsRead loaded]
    exact expanded

theorem manyRaises {error : ε} (failed : neighborsManySync kernel port identities edgeTypes depth = .error error) :
    Raised port error := by
  rcases checkedError.mp failed with loaded | ⟨_,_,later⟩
  · exact recordsRaise loaded
  · rcases checkedError.mp later with expanded | ⟨_,_,last⟩
    · exact expandRaises expanded
    · cases last

/- One seed alone. -/
theorem aloneFound {identity : RecordIdentity} (answered : Answered port edgeTypes depth identity) :
    neighborsSync kernel port (.identity identity) edgeTypes depth none = .ok (founds port edgeTypes depth (seedIn port identity)) := by
  obtain ⟨results,ran⟩ := (@manyAnswers kernel _ port [identity] edgeTypes depth).mpr fun other member => by
    rwa [List.mem_singleton.mp member]
  refine checkedOk.mpr ⟨results,ran,?_⟩
  rw [manyFound ran]
  rfl

theorem aloneAnswers {identity : RecordIdentity} : (∃ neighbors, neighborsSync kernel port (.identity identity) edgeTypes depth none =
    .ok neighbors) ↔ Answered port edgeTypes depth identity := by
  refine ⟨fun ⟨neighbors,ran⟩ => ?_,fun answered => ⟨_,aloneFound answered⟩⟩
  obtain ⟨results,many,_⟩ := checkedOk.mp ran
  exact manyAnswers.mp ⟨results,many⟩ identity List.mem_cons_self

theorem foundsExact (source : RecordIdentity) : Exact port (followed edgeTypes) depth source.sourceId (founds port edgeTypes depth source) := by
  have reached := BreadthFirst.reachedSearch depth.toNat
    (@BreadthFirst.reachedBegin _ _ (linkEdges port (followed edgeTypes)) source.sourceId)
  rw [Nat.zero_add,Nat.zero_add] at reached
  have named : ∀ entry : String × String × Nat, (neighborAt port source entry).identity.sourceId = entry.1 := by
    intro entry
    unfold neighborAt memoryIdentity
    dsimp only
    split
    · rename_i found
      exact knownId found
    · rfl
  have ids : (founds port edgeTypes depth source).map (·.identity.sourceId) =
      (BreadthFirst.search (linkEdges port (followed edgeTypes)) depth.toNat 1 (BreadthFirst.begin source.sourceId)).found.map Prod.fst := by
    unfold founds
    rw [List.map_map]
    exact List.map_congr_left fun entry _ => named entry
  refine ⟨ids ▸ reached.once,fun node => ?_,fun neighbor member => ?_⟩
  · rw [ids,reached.nodes]
    refine and_congr_right fun apart => exists_congr fun n => and_congr_left fun steps => ?_
    have further : n ≠ 0 := by
      rintro rfl
      exact apart (BreadthFirst.stepsZero.mp steps)
    omega
  · obtain ⟨entry,listed,rfl⟩ := List.mem_map.mp member
    obtain ⟨n,at_,bound,distance,before,closer,edge⟩ := reached.entries entry listed
    rw [named]
    have discounted : ∃ discount, discountOf entry.2.1 = some discount := by
      unfold linkEdges at edge
      split at edge
      · obtain ⟨link,passed,same⟩ := List.mem_map.mp edge
        obtain ⟨_,both⟩ := List.mem_filter.mp passed
        rw [← (Prod.mk.inj same).2]
        exact Option.isSome_iff_exists.mp (Bool.and_eq_true _ _ |>.mp both).2
      · cases edge
    obtain ⟨discount,found⟩ := discounted
    refine ⟨n,discount,before,by omega,distance,closer,edge,found,?_⟩
    unfold neighborAt
    dsimp only
    rw [found,at_]
    rfl

/- Two seeds that are told apart have keys that are. -/
def Canonical (kernel : Kernel) (port : ReadPort ε) (identities : List RecordIdentity) : Prop :=
  ∀ a ∈ identities, ∀ b ∈ identities, kernel.storageKey (seedIn port a) = kernel.storageKey (seedIn port b) →
    seedIn port a = seedIn port b

theorem lookupKeyed {seeds : List RecordIdentity} {found : RecordIdentity → List GraphNeighbor} {seed : RecordIdentity}
    (member : seed ∈ seeds) (canonical : ∀ other ∈ seeds, kernel.storageKey seed = kernel.storageKey other → seed = other) :
    (seeds.map fun seed => (kernel.storageKey seed,found seed)).lookup (kernel.storageKey seed) = some (found seed) := by
  induction seeds with
  | nil => cases member
  | cons first rest ih =>
    rw [List.map_cons,List.lookup_cons]
    cases same : kernel.storageKey seed == kernel.storageKey first with
    | true => rw [canonical first List.mem_cons_self (eq_of_beq same)]
    | false =>
      have apart : seed ≠ first := by
        rintro rfl
        exact absurd same (by simp)
      exact ih ((List.mem_cons.mp member).resolve_left apart) fun other there => canonical other (List.mem_cons_of_mem _ there)

/- The traversal of any graph ends, with the nodes that can be reached over links of an allowed type
that has a discount, and the same for each seed alone as for all of them. -/
theorem expandsExactly (canonical : Canonical kernel port identities) :
    Expands kernel port identities edgeTypes depth (followed edgeTypes) := by
  refine ⟨fun error => manyRaises,fun results ran identity member => ?_,?_⟩
  · have seed : seedIn port identity ∈ (identities.eraseDups.map (seedIn port)).eraseDups :=
      List.mem_eraseDups.mpr (List.mem_map_of_mem (List.mem_eraseDups.mpr member))
    refine ⟨founds port edgeTypes depth (seedIn port identity),?_,foundsExact _,
      aloneFound (manyAnswers.mp ⟨results,ran⟩ identity member)⟩
    rw [manyFound ran]
    refine lookupKeyed seed fun other there same => ?_
    obtain ⟨given,listed,rfl⟩ := List.mem_map.mp (List.mem_eraseDups.mp there)
    exact canonical identity member given (List.mem_eraseDups.mp listed) same
  · rw [manyAnswers]
    exact forall₂_congr fun identity _ => aloneAnswers.symm

end

/- The plain repository is such a port. -/
def tablesPort (t : Tables) (full : ∀ row ∈ t.memories, row.id ≠ "") : ReadPort Curation.ActionError where
  getMemory := Relational.Reading.getMemory t
  getLinks memoryId := repositoryLinks t memoryId false
  own text record read := by
    obtain ⟨resolved,_,found⟩ := mappedOk.mp read
    obtain ⟨row,selected,rfl⟩ := Option.map_eq_some_iff.mp found
    obtain ⟨memoryId,_,selected⟩ := Option.bind_eq_some_iff.mp selected
    obtain ⟨member,named⟩ := Table.findSome selected
    have own : row.id = memoryId := beq_iff_eq.mp named
    exact ⟨full row member,@Relational.Reading.directRead t row (own ▸ selected)⟩

def jsonKeys : Kernel where
  storageKey identity := "record:[" ++ (identity.workspaceId.map fun workspaceId => "\"" ++ workspaceId ++ "\"").getD "null" ++
    ",\"" ++ identity.sourceKind ++ "\",\"" ++ identity.sourceId ++ "\"]"
  fromStorageKey _ := none

theorem linkedFull {linkType : String} : ∀ row ∈ (linked linkType).memories, row.id ≠ "" := by
  intro row member
  rcases List.mem_cons.mp member with rfl | member
  · decide
  · cases List.mem_singleton.mp member
    decide

def linkedPort (linkType : String) : ReadPort Curation.ActionError := tablesPort (linked linkType) linkedFull

theorem expandsExactlySample : Expands jsonKeys (linkedPort "AMENDS") [⟨none,"memory","n"⟩,⟨some "w","memory","m"⟩] none 2 (followed none) :=
  expandsExactly (by
    unfold Canonical
    decide +kernel)

/- A type that is allowed but has no discount is not followed. -/
theorem undiscounted : ¬ Expands jsonKeys (linkedPort "RELATED_TO") [⟨some "w","memory","n"⟩] (some ["RELATED_TO"]) 1
    (allowedTypes (some ["RELATED_TO"])) := by
  intro expands
  have ran : neighborsManySync jsonKeys (linkedPort "RELATED_TO") [⟨some "w","memory","n"⟩] (some ["RELATED_TO"]) 1 =
      .ok [("record:[\"w\",\"memory\",\"n\"]",[])] := rfl
  obtain ⟨neighbors,found,exact_,_⟩ := expands.exact _ ran _ List.mem_cons_self
  obtain rfl : [] = neighbors := Option.some.inj found
  have edge : ("m","RELATED_TO") ∈ linkEdges (linkedPort "RELATED_TO") (allowedTypes (some ["RELATED_TO"])) "n" := by
    decide +kernel
  have reached := (exact_.nodes "m").mpr ⟨by decide,1,le_rfl,.step .here ⟨"RELATED_TO",edge⟩⟩
  cases reached

end McpMemory.Search.Graph
