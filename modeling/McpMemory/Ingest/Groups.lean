import Mathlib
import McpMemory.Journal.Claims
import McpMemory.Lib.Grouping
import McpMemory.Maintenance.Deduplicate

/-! `_build_ingest_groups` of `task_handlers/ingest.py`. The embedder, the cosine of two
embeddings and the shuffle of `random.Random` come from outside; scores are rationals. What the
vector store is given is left out. -/
namespace McpMemory.Ingest
open Grouping Journal Text

variable {V : Type}

structure Embedder (V : Type) where
  embedInBatches : List String → List V
  cosineSimilarity : V → V → ℚ

/- `embedder` is there when the vector store is as well. -/
structure Env (V : Type) where
  unicode : Unicode
  embedder : Option (Embedder V)
  shuffle : String → List Entry → List Entry
  permutes : ∀ seed entries, (shuffle seed entries).Perm entries

structure Limits where
  clusterSize : Nat
  similarityThreshold : ℚ
  relatedThreshold : ℚ

/- `SEMANTIC_CLUSTER_SIZE`, `SEMANTIC_SIMILARITY_THRESHOLD` and the default of
`_group_related_entries`. -/
def sourceLimits : Limits := ⟨5,3 / 10,3 / 10⟩

/- The entries of a batch are rows of one table. -/
structure Batch where
  entries : List Entry
  distinct : Table.UniqueBy (·.id) entries

def fifoGroupingStrategy : String := "fifo"

/- `str.split` -/
def words (text : String) : List String :=
  ((text.toList.splitOnP isSpace).filter (!·.isEmpty)).map String.ofList

def jaccard (left right : List String) : ℚ :=
  (left.dedup.filter right.contains).length / (left ++ right).dedup.length

variable (env : Env V) (limits : Limits)

def wordSet (entry : Entry) : List String := words (env.unicode.lower entry.content)

def related (entry candidate : Entry) : Bool :=
  !(wordSet env entry ++ wordSet env candidate).isEmpty &&
    limits.relatedThreshold ≤ jaccard (wordSet env entry) (wordSet env candidate)

/- The inner loop of `_group_related_entries`; what remains is what is not yet in `used`. -/
def relatedGroup (entry : Entry) (remaining : List Entry) : List Entry :=
  entry :: remaining.filter fun candidate => candidate.id != entry.id && related env limits entry candidate

def groupRelatedEntries (entries seedEntries : List Entry) : List (List Entry) :=
  collect (relatedGroup env limits) seedEntries entries

def entrySimilarity (left right : String) (semanticSimilarity : ℚ) : ℚ :=
  let leftTokens := (Deduplicate.findTokens left).map String.toLower
  let rightTokens := (Deduplicate.findTokens right).map String.toLower
  max semanticSimilarity (if leftTokens.isEmpty || rightTokens.isEmpty then 0 else jaccard leftTokens rightTokens)

/- Every entry has its embedding by then. -/
def score (embedder : Embedder V) (byId : List (Int × V)) (entry candidate : Entry) : ℚ :=
  entrySimilarity entry.content candidate.content
    (((byId.lookup entry.id).bind fun seedEmbedding =>
      (byId.lookup candidate.id).map (embedder.cosineSimilarity seedEmbedding)).getD 0)

def admits (scores : Entry → Entry → ℚ) (entry candidate : Entry) : Bool :=
  candidate.id == entry.id || limits.similarityThreshold ≤ scores entry candidate

/- `scored`, sorted and cut; `remaining` is in the order of `pending_ids`. -/
def semanticGroup (scores : Entry → Entry → ℚ) (entry : Entry) (remaining : List Entry) : List Entry :=
  ((ranked (scores entry) remaining).filter (admits limits scores entry)).take limits.clusterSize

def seedEntriesForGrouping (entries : List Entry) (taskId : Option String) (groupingStrategy : String) : List Entry :=
  if groupingStrategy = fifoGroupingStrategy ∨ entries = [] then entries
  else env.shuffle (if taskId.getD "" = "" then "ingest-grouping" else taskId.getD "") entries

def buildIngestGroups (entries : List Entry) (taskId : Option String) (groupingStrategy : String) :
    Except JournalError (List (List Entry)) :=
  let seedEntries := seedEntriesForGrouping env entries taskId groupingStrategy
  match env.embedder with
  | none => .ok (groupRelatedEntries env limits entries seedEntries)
  | some embedder =>
    let embeddings := embedder.embedInBatches (entries.map (·.content))
    if embeddings.length ≠ entries.length then .error (.valueError "zip() arguments differ in length")
    else
      let byId := (entries.map (·.id)).zip embeddings
      let groups := collect (semanticGroup limits (score embedder byId)) seedEntries entries
      if groups.isEmpty then .ok (groupRelatedEntries env limits entries seedEntries) else .ok groups

/- The groups are a partition of the batch. -/
structure Partitions (entries : List Entry) (groups : List (List Entry)) : Prop where
  nonempty : ∀ group ∈ groups, group ≠ []
  disjoint : groups.Pairwise List.Disjoint
  within : ∀ group ∈ groups, ∀ entry ∈ group, entry ∈ entries
  once : ∀ entry ∈ entries, groups.flatten.count entry = 1

section
variable {pick : Entry → List Entry → List Entry} {entries seedEntries : List Entry}

/- Greedy groups are a partition when none is empty and every seed gets into one. -/
theorem collectPartitions (picks : Picks pick) (distinct : entries.Nodup) (seeded : ∀ entry ∈ entries, entry ∈ seedEntries) :
    Partitions entries (collect pick seedEntries entries) ↔
      (∀ turn ∈ turns pick seedEntries entries, pick turn.1 turn.2 ≠ []) ∧
      ∀ turn ∈ turns pick seedEntries entries,
        ∃ other ∈ turns pick seedEntries entries, turn.1 ∈ pick other.1 other.2 := by
  rw [← collectAll seeded]
  constructor
  · intro parts
    refine ⟨fun turn member => parts.nonempty _ (List.mem_map_of_mem member),fun entry member => ?_⟩
    exact List.count_pos_iff.mp (parts.once entry member ▸ Nat.one_pos)
  · rintro ⟨full,grouped⟩
    have nodup : (collect pick seedEntries entries).flatten.Nodup := collectNodup picks distinct
    refine ⟨fun group member => ?_,(List.nodup_flatten.mp nodup).2,fun group member entry inside => ?_,
      fun entry member => List.count_eq_one_of_mem nodup (grouped entry member)⟩
    · obtain ⟨turn,turned,rfl⟩ := List.mem_map.mp member
      exact full turn turned
    · exact collectWithin picks (List.mem_flatten.mpr ⟨group,member,inside⟩)

end

theorem relatedPicks : Picks (relatedGroup env limits) where
  within there member := by
    rcases List.mem_cons.mp member with rfl | other
    · exact there
    · exact (List.mem_filter.mp other).1
  once there distinct := by
    refine List.nodup_cons.mpr ⟨fun again => ?_,distinct.filter _⟩
    simpa using (List.mem_filter.mp again).2

theorem relatedPartitions {entries seedEntries : List Entry} (distinct : entries.Nodup)
    (seeded : ∀ entry ∈ entries, entry ∈ seedEntries) :
    Partitions entries (groupRelatedEntries env limits entries seedEntries) :=
  (collectPartitions (relatedPicks env limits) distinct seeded).mpr
    ⟨fun _ _ => List.cons_ne_nil _ _,fun turn member => ⟨turn,member,List.mem_cons_self⟩⟩

/- In this turn the entry has one of the places: it is like the seed, and fewer than the limit
of those that are still ungrouped and like the seed rank before it. -/
def Placed (scores : Entry → Entry → ℚ) (turn : Entry × List Entry) (entry : Entry) : Prop :=
  entry ∈ turn.2 ∧ admits limits scores turn.1 entry ∧
    (turn.2.filter fun other => admits limits scores turn.1 other &&
      Outranks (scores turn.1) turn.2 other entry).length < limits.clusterSize

instance (scores : Entry → Entry → ℚ) (turn : Entry × List Entry) (entry : Entry) :
    Decidable (Placed limits scores turn entry) := inferInstanceAs (Decidable (_ ∧ _ ∧ _))

/- Every seed whose turn comes has a place in this turn or in that of another seed. -/
def SeedsPlaced (scores : Entry → Entry → ℚ) (entries seedEntries : List Entry) : Prop :=
  ∀ turn ∈ turns (semanticGroup limits scores) seedEntries entries,
    ∃ other ∈ turns (semanticGroup limits scores) seedEntries entries, Placed limits scores other turn.1

instance (scores : Entry → Entry → ℚ) (entries seedEntries : List Entry) :
    Decidable (SeedsPlaced limits scores entries seedEntries) :=
  inferInstanceAs (Decidable (∀ turn ∈ turns _ _ _, ∃ other ∈ turns _ _ _, Placed limits scores other turn.1))

section
variable (scores : Entry → Entry → ℚ)

theorem semanticPicks : Picks (semanticGroup limits scores) where
  within _ member := by
    exact (rankedPerm _ _).mem_iff.mp (List.mem_filter.mp (List.mem_of_mem_take member)).1
  once := by
    intro entry remaining _ distinct
    have sorted := (rankedPerm (scores entry) remaining).nodup_iff.mpr distinct
    exact (sorted.filter _).sublist (List.take_sublist _ _)

theorem memSemanticGroup {entry candidate : Entry} {remaining : List Entry} (distinct : remaining.Nodup) :
    candidate ∈ semanticGroup limits scores entry remaining ↔ Placed limits scores (entry,remaining) candidate := by
  have arranged := (rankedOutranks (scores entry) distinct).filter (admits limits scores entry)
  have sorted := rankedPerm (scores entry) remaining
  rw [semanticGroup,memTake (outranksIrrefl _) (outranksAsymm _) arranged,List.mem_filter,List.filter_filter,
    (sorted.filter _).length_eq,and_assoc,sorted.mem_iff]
  simp only [Placed,Bool.and_comm]

theorem semanticNonempty {entry : Entry} {remaining : List Entry} (there : entry ∈ remaining)
    (room : 0 < limits.clusterSize) : semanticGroup limits scores entry remaining ≠ [] := by
  have first : entry ∈ (ranked (scores entry) remaining).filter (admits limits scores entry) :=
    List.mem_filter.mpr ⟨(rankedPerm _ _).mem_iff.mpr there,by simp [admits]⟩
  rw [semanticGroup,Ne,List.take_eq_nil_iff]
  rintro (none | empty)
  · omega
  · rw [empty] at first
    cases first

theorem semanticPartitions {entries seedEntries : List Entry} (distinct : entries.Nodup)
    (seeded : ∀ entry ∈ entries, entry ∈ seedEntries) :
    Partitions entries (collect (semanticGroup limits scores) seedEntries entries) ↔
      SeedsPlaced limits scores entries seedEntries := by
  have places {turn other : Entry × List Entry} (member : other ∈ turns (semanticGroup limits scores) seedEntries entries) :
      turn.1 ∈ semanticGroup limits scores other.1 other.2 ↔ Placed limits scores other turn.1 :=
    memSemanticGroup limits scores (turnsNodup distinct member)
  rw [collectPartitions (semanticPicks limits scores) distinct seeded]
  constructor
  · rintro ⟨_,grouped⟩ turn member
    obtain ⟨other,turned,inside⟩ := grouped turn member
    exact ⟨other,turned,(places turned).mp inside⟩
  · intro placed
    refine ⟨fun turn member => ?_,fun turn member => ?_⟩ <;> obtain ⟨other,turned,place⟩ := placed turn member
    · exact semanticNonempty limits scores (turnsWithin _ _ member).1 (by have := place.2.2; omega)
    · exact ⟨other,turned,(places turned).mpr place⟩

end

theorem seedsPermute (entries : List Entry) (taskId : Option String) (groupingStrategy : String) :
    (seedEntriesForGrouping env entries taskId groupingStrategy).Perm entries := by
  unfold seedEntriesForGrouping
  split
  · exact .refl _
  · exact env.permutes _ _

/- The groups that a batch gets are a partition of it exactly when, where there is an embedder,
every seed is placed. -/
theorem groupsPartition (batch : Batch) (taskId : Option String) (groupingStrategy : String) {groups : List (List Entry)}
    (built : buildIngestGroups env limits batch.entries taskId groupingStrategy = .ok groups) :
    Partitions batch.entries groups ↔ ∀ embedder, env.embedder = some embedder →
      SeedsPlaced limits (score embedder ((batch.entries.map (·.id)).zip
        (embedder.embedInBatches (batch.entries.map (·.content))))) batch.entries
        (seedEntriesForGrouping env batch.entries taskId groupingStrategy) := by
  have distinct : batch.entries.Nodup := batch.distinct.of_map
  have seeded : ∀ entry ∈ batch.entries, entry ∈ seedEntriesForGrouping env batch.entries taskId groupingStrategy :=
    fun entry member => (seedsPermute env _ _ _).mem_iff.mpr member
  unfold buildIngestGroups at built
  cases given : env.embedder with
  | none =>
    simp only [given] at built
    cases built
    exact ⟨fun _ _ same => (by cases same),fun _ => relatedPartitions env limits distinct seeded⟩
  | some embedder =>
    simp only [given] at built
    split at built
    · cases built
    · have only {holds : Embedder V → Prop} : (∀ other, some embedder = some other → holds other) ↔ holds embedder :=
        ⟨fun every => every embedder rfl,fun own other same => Option.some.inj same ▸ own⟩
      rw [only]
      split at built
      · -- No group at all: no seed had a turn, so the batch is empty.
        rename_i empty
        cases built
        have none := List.map_eq_nil_iff.mp (List.isEmpty_iff.mp empty)
        refine ⟨fun _ turn member => ?_,fun _ => relatedPartitions env limits distinct seeded⟩
        rw [none] at member
        cases member
      · cases built
        exact semanticPartitions limits _ distinct seeded

/- Six times the same thought; the shuffle for this task turns the batch round. -/
def thought (id : Int) : Entry := ⟨id,"todo",none,0,.claimed,some "ingest-5",some 0,none⟩

def sixThoughts : Batch := ⟨[thought 1,thought 2,thought 3,thought 4,thought 5,thought 6],by decide⟩

def alike : Env Unit := ⟨ascii,some ⟨fun contents => contents.map fun _ => (),fun _ _ => 1⟩,fun _ => List.reverse,
  fun _ => List.reverse_perm⟩

def firstFive : List Entry := [thought 1,thought 2,thought 3,thought 4,thought 5]

theorem groupsPartitionSample : Partitions sixThoughts.entries [firstFive,[thought 6]] := by
  have built : buildIngestGroups alike sourceLimits sixThoughts.entries (some "ingest-5") fifoGroupingStrategy =
      .ok [firstFive,[thought 6]] := by decide +kernel
  refine (groupsPartition alike sourceLimits sixThoughts _ _ built).mpr fun embedder same => ?_
  cases same
  decide +kernel

/- The seed that comes first is the sixth of six that score the same. -/
theorem seedCrowdedOut : buildIngestGroups alike sourceLimits sixThoughts.entries (some "ingest-5") "semantic-seeded" =
    .ok [firstFive] ∧ ¬ Partitions sixThoughts.entries [firstFive] := by
  refine ⟨by decide +kernel,fun parts => ?_⟩
  have once := parts.once (thought 6) (by decide)
  exact absurd once (by decide)

end McpMemory.Ingest
