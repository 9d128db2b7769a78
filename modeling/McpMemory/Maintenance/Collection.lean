import Mathlib.Data.Prod.Lex
import McpMemory.Curation.Policy
import McpMemory.Lib.IsoTime
import McpMemory.Lib.Rounds
import McpMemory.Maintenance.Housekeeping

/-! What sweeps of `gc_archived_memories` take away in the end. The collector compares the
texts of times, and where an offset is written these are in the order of the clocks on the wall.
And a sweep looks at one page of the archived memories, those included that it must not take. -/
namespace McpMemory.Maintenance
open Memory Text Table Rounds
open Curation (Protection isProtectionActive)
open IsoTime (DateTime isoformat wall)

structure Embedding where
  sourceKind : String
  sourceId : String
  deriving DecidableEq, Repr

structure Archive where
  database : Database
  embeddings : List Embedding

def Archive.memories (a : Archive) : List MemoryRow := a.database.memory.memories

def isEmbedded (memoryId : String) (embedding : Embedding) : Bool :=
  embedding.sourceKind == "memory" && embedding.sourceId == memoryId

/- The guard of the DELETE. -/
def isDeletable (sweep : Sweep) (database : Database) (memoryId : String) : Bool :=
  database.memory.memories.any (fun row => row.id == memoryId && isExpired sweep.cutoff row) &&
    isEligible sweep database memoryId

def collect (sweep : Sweep) (a : Archive) (memoryId : String) : Archive where
  database := deleteArchived sweep a.database memoryId
  embeddings := if isDeletable sweep a.database memoryId then a.embeddings.filter (!isEmbedded memoryId ·)
    else a.embeddings

/- `gc_archived_memories` with the embeddings. -/
def gc (sweep : Sweep) (a : Archive) : Archive :=
  let rows := ((a.memories.filter (isExpired sweep.cutoff)).insertionSort (expiredLe · ·)).take sweep.batchSize
  let eligible := (rows.map (·.id)).filter (isEligible sweep a.database)
  if sweep.delete then eligible.foldl (collect sweep) a else a

theorem gcDatabase (sweep : Sweep) (a : Archive) : (gc sweep a).database = gcArchivedMemories sweep a.database := by
  have folded : ∀ (ids : List String) (a : Archive),
      (ids.foldl (collect sweep) a).database = ids.foldl (deleteArchived sweep) a.database := by
    intro ids
    induction ids with
    | nil => exact fun _ => rfl
    | cons first rest ih => exact fun a => ih (collect sweep a first)
  unfold gc gcArchivedMemories
  dsimp only
  split
  · exact folded _ a
  · rfl

variable {sweep : Sweep} {a : Archive} {row : MemoryRow} {memoryId : String}

/- All rows of some memories, and those that refer to them, taken out. -/
def without (gone : List String) (a : Archive) : Archive where
  database := { a.database with
    memory := { a.database.memory with
      memories := a.database.memory.memories.filter (!gone.contains ·.id)
      workspaces := a.database.memory.workspaces.filter (!gone.contains ·.1)
      memoryTags := a.database.memory.memoryTags.filter (!gone.contains ·.1)
      links := a.database.memory.links.filter fun link => !(gone.contains link.sourceId || gone.contains link.targetId)
      searchDocuments := a.database.memory.searchDocuments.filter (!gone.contains ·.memoryId) }
    protections := a.database.protections.filter (!gone.contains ·.memoryId) }
  embeddings := a.embeddings.filter fun embedding => !(embedding.sourceKind == "memory" && gone.contains embedding.sourceId)

theorem containsOne {first value : String} : [first].contains value = (value == first) := by
  rw [List.contains_cons,List.contains_nil,Bool.or_false]

theorem withoutNone : without [] a = a := by
  have kept {ρ : Type} (rows : List ρ) : rows.filter (fun _ => true) = rows := List.filter_eq_self.mpr fun _ _ => rfl
  unfold without
  simp only [List.contains_nil,Bool.or_self,Bool.not_false,Bool.and_false,kept]

theorem containsAppend {gone more : List String} {value : String} :
    (gone ++ more).contains value = (gone.contains value || more.contains value) := by
  rw [Bool.eq_iff_iff,Bool.or_eq_true]
  simp only [List.contains_iff_mem,List.mem_append]

theorem withoutMore (gone more : List String) : without more (without gone a) = without (gone ++ more) a := by
  have one {ρ : Type} (rows : List ρ) (key : ρ → String) :
      (rows.filter fun row => !gone.contains (key row)).filter (fun row => !more.contains (key row)) =
        rows.filter fun row => !(gone ++ more).contains (key row) := by
    rw [List.filter_filter]
    refine List.filter_congr fun row _ => ?_
    rw [containsAppend,Bool.not_or,Bool.and_comm]
  unfold without
  dsimp only
  rw [one,one,one,one,one,List.filter_filter,List.filter_filter]
  congr 1
  · congr 2
    refine List.filter_congr fun link _ => ?_
    rw [containsAppend,containsAppend]
    grind
  · refine List.filter_congr fun embedding _ => ?_
    rw [containsAppend]
    grind

theorem collectOne (deletable : isDeletable sweep a.database memoryId = true) : collect sweep a memoryId = without [memoryId] a := by
  have guard := deletable
  unfold isDeletable at guard
  unfold collect deleteArchived without
  dsimp only
  rw [if_pos deletable,if_pos guard]
  simp only [containsOne,bne]
  rfl

/- What is taken out does not change whether the rest may be. -/
theorem eligibleWithout {gone : List String} (eligible : ∀ other ∈ gone, isEligible sweep a.database other)
    (stays : memoryId ∉ gone) : isEligible sweep (without gone a).database memoryId = isEligible sweep a.database memoryId := by
  have shields : isProtected sweep.now (without gone a).database.protections memoryId =
      isProtected sweep.now a.database.protections memoryId := by
    refine List.any_filter.trans (congrArg a.database.protections.any (funext fun protection => ?_))
    by_cases here : protection.memoryId = memoryId
    · rw [here,List.contains_eq_mem,decide_eq_false stays,Bool.not_false,Bool.true_and]
    · rw [beq_false_of_ne here,Bool.false_and,Bool.and_false]
  have links : isLinked (without gone a).database.memory memoryId = isLinked a.database.memory memoryId := by
    rw [Bool.eq_iff_iff]
    unfold isLinked
    rw [List.any_eq_true,List.any_eq_true]
    refine ⟨fun ⟨link,there,ends⟩ => ⟨link,List.mem_of_mem_filter there,ends⟩,fun ⟨link,there,ends⟩ => ?_⟩
    refine ⟨link,List.mem_filter.mpr ⟨there,?_⟩,ends⟩
    -- A link that counts has no end that may go.
    have apart (other : String) (touches : link.sourceId = other ∨ link.targetId = other) : other ∉ gone := by
      intro member
      have free := (Bool.and_eq_true_iff.mp (eligible other member)).2
      have held : isLinked a.database.memory other = true := by
        refine List.any_eq_true.mpr ⟨link,there,?_⟩
        simpa [touches] using (Bool.and_eq_true_iff.mp ends).2
      rw [held] at free
      cases free
    simp [apart _ (.inl rfl),apart _ (.inr rfl)]
  unfold isEligible
  rw [shields,links]

theorem memWithout {gone : List String} : row ∈ (without gone a).memories ↔ row ∈ a.memories ∧ row.id ∉ gone := by
  refine List.mem_filter.trans (and_congr_right fun _ => ?_)
  rw [Bool.not_eq_true',List.contains_eq_mem,decide_eq_false_iff_not]

theorem deletableIff : isDeletable sweep a.database memoryId = true ↔
    (∃ row ∈ a.memories, row.id = memoryId ∧ isExpired sweep.cutoff row = true) ∧ isEligible sweep a.database memoryId = true := by
  unfold isDeletable
  rw [Bool.and_eq_true,List.any_eq_true]
  simp only [Bool.and_eq_true,beq_iff_eq]
  rfl

theorem foldCollect {ids : List String} (nodup : ids.Nodup) (deletable : ∀ id ∈ ids, isDeletable sweep a.database id = true) :
    ids.foldl (collect sweep) a = without ids a := by
  induction ids generalizing a with
  | nil => exact withoutNone.symm
  | cons first rest ih =>
    obtain ⟨fresh,nodup⟩ := List.nodup_cons.mp nodup
    have here := deletable first List.mem_cons_self
    rw [List.foldl_cons,collectOne here]
    refine (ih nodup fun id member => ?_).trans (withoutMore [first] rest)
    have apart : id ∉ [first] := fun same => fresh (List.mem_singleton.mp same ▸ member)
    obtain ⟨⟨row,there,same,expired⟩,eligible⟩ := deletableIff.mp (deletable id (List.mem_cons_of_mem first member))
    refine deletableIff.mpr ⟨⟨row,memWithout.mpr ⟨there,same ▸ apart⟩,same,expired⟩,?_⟩
    rw [eligibleWithout (fun other one => List.mem_singleton.mp one ▸ (deletableIff.mp here).2) apart,eligible]

/- The order in which the archived memories are looked at. -/
theorem expiredLeIff {left right : MemoryRow} : expiredLe left right = true ↔
    toLex (left.archivedAt.getD "",left.id) ≤ toLex (right.archivedAt.getD "",right.id) := by
  unfold expiredLe
  rw [Prod.Lex.toLex_le_toLex]
  simp

def isBefore (left right : MemoryRow) : Bool := !expiredLe right left

theorem beforeSelf : isBefore row row = false := by
  unfold isBefore
  rw [expiredLeIff.mpr (le_refl _),Bool.not_true]

def queue (sweep : Sweep) (a : Archive) : List MemoryRow :=
  (a.memories.filter (isExpired sweep.cutoff)).insertionSort (expiredLe · ·)

theorem memQueue : row ∈ queue sweep a ↔ row ∈ a.memories ∧ isExpired sweep.cutoff row = true := by
  rw [queue,List.mem_insertionSort,List.mem_filter]

theorem queueSorted : (queue sweep a).Pairwise fun left right => expiredLe left right = true := by
  have total : Std.Total fun left right => expiredLe left right = true :=
    ⟨fun left right => (le_total (toLex (left.archivedAt.getD "",left.id)) (toLex (right.archivedAt.getD "",right.id))).imp
      expiredLeIff.mpr expiredLeIff.mpr⟩
  have trans : IsTrans MemoryRow fun left right => expiredLe left right = true :=
    ⟨fun _ _ _ first second => expiredLeIff.mpr ((expiredLeIff.mp first).trans (expiredLeIff.mp second))⟩
  exact List.pairwise_insertionSort _ _

/- Every memory has an id of its own. -/
def Unique (a : Archive) : Prop := (a.memories.map (·.id)).Nodup

theorem sameRow (unique : Unique a) {other : MemoryRow} (left : row ∈ a.memories) (right : other ∈ a.memories)
    (same : row.id = other.id) : row = other := List.inj_on_of_nodup_map unique left right same

theorem sameOrder {left right : MemoryRow} (first : expiredLe left right = true) (second : expiredLe right left = true) :
    left.id = right.id := congrArg Prod.snd (congrArg ofLex (le_antisymm (expiredLeIff.mp first) (expiredLeIff.mp second)))

theorem queueIds (unique : Unique a) : ((queue sweep a).map (·.id)).Nodup :=
  ((List.perm_insertionSort _ _).map _).nodup_iff.mpr (unique.sublist (List.filter_sublist.map _))

/- The order is strict, as no two memories are equal. -/
theorem queueStrict (unique : Unique a) :
    (queue sweep a).Pairwise fun left right => isBefore left right = true ∧ isBefore right left = false := by
  have distinct := List.pairwise_map.mp (@queueIds sweep _ unique)
  refine (queueSorted.and distinct).imp fun {left right} ⟨first,apart⟩ => ?_
  unfold isBefore
  rw [first]
  refine ⟨?_,rfl⟩
  rw [Bool.not_eq_true',← Bool.not_eq_true]
  exact fun second => apart (sameOrder first second)

theorem queueWithout (unique : Unique a) (gone : List String) :
    queue sweep (without gone a) = (queue sweep a).filter (!gone.contains ·.id) := by
  refine List.Perm.eq_of_pairwise (fun left right one two first second => ?_) queueSorted (queueSorted.filter _) ?_
  · have there := (memWithout.mp (memQueue.mp one).1).1
    exact sameRow unique there (memQueue.mp (List.mem_of_mem_filter two)).1 (sameOrder first second)
  · refine (List.perm_insertionSort _ _).trans (List.Perm.trans (.of_eq ?_) ((List.perm_insertionSort _ _).filter _).symm)
    exact List.filter_comm _ _ _

/- What one sweep takes. -/
def taken (sweep : Sweep) (a : Archive) : List String :=
  (((queue sweep a).take sweep.batchSize).map (·.id)).filter (isEligible sweep a.database)

def isReady (sweep : Sweep) (a : Archive) (row : MemoryRow) : Bool := isEligible sweep a.database row.id

theorem memTaken (unique : Unique a) (listed : row ∈ queue sweep a) :
    row.id ∈ taken sweep a ↔ row ∈ (queue sweep a).take sweep.batchSize ∧ isReady sweep a row = true := by
  unfold taken
  rw [List.mem_filter,List.mem_map]
  refine and_congr_left fun _ => ⟨fun ⟨other,there,same⟩ => ?_,fun there => ⟨row,there,rfl⟩⟩
  exact sameRow unique (memQueue.mp (List.mem_of_mem_take there)).1 (memQueue.mp listed).1 same ▸ there

theorem takenOf {id : String} (member : id ∈ taken sweep a) : ∃ row ∈ queue sweep a, row.id = id ∧ isReady sweep a row = true := by
  obtain ⟨there,eligible⟩ := List.mem_filter.mp member
  obtain ⟨row,among,same⟩ := List.mem_map.mp there
  subst same
  exact ⟨row,List.mem_of_mem_take among,rfl,eligible⟩

theorem gcTaken (unique : Unique a) (delete : sweep.delete = true) : gc sweep a = without (taken sweep a) a := by
  unfold gc
  dsimp only
  rw [if_pos delete]
  refine foldCollect (((queueIds unique).sublist ((List.take_sublist _ _).map _)).filter _) fun id member => ?_
  obtain ⟨row,listed,rfl,ready⟩ := takenOf member
  obtain ⟨there,expired⟩ := memQueue.mp listed
  exact deletableIff.mpr ⟨⟨row,there,rfl,expired⟩,ready⟩

theorem uniqueWithout (unique : Unique a) (gone : List String) : Unique (without gone a) :=
  unique.sublist (List.filter_sublist.map _)

theorem roundAlike {ready other : MemoryRow → Bool} {n : Nat} {rows : List MemoryRow} (same : ∀ row ∈ rows, ready row = other row) :
    round ready n rows = round other n rows := by
  unfold Rounds.round
  rw [List.filter_congr fun row member => congrArg not (same row (List.mem_of_mem_take member))]

theorem queueRound (unique : Unique a) :
    (queue sweep a).filter (!(taken sweep a).contains ·.id) = round (isReady sweep a) sweep.batchSize (queue sweep a) := by
  have distinct : (queue sweep a).Nodup := (queueIds unique).of_map
  rw [← List.take_append_drop sweep.batchSize (queue sweep a)] at distinct
  have apart := (List.nodup_append'.mp distinct).2.2
  unfold Rounds.round
  conv => lhs; rw [← List.take_append_drop sweep.batchSize (queue sweep a)]
  rw [List.filter_append]
  congr 1
  · refine List.filter_congr fun row member => ?_
    rw [Bool.eq_iff_iff,Bool.not_eq_true',Bool.not_eq_true',List.contains_eq_mem,decide_eq_false_iff_not,
      memTaken unique (List.mem_of_mem_take member),← Bool.not_eq_true]
    simp [member]
  · refine List.filter_eq_self.mpr fun row member => ?_
    rw [Bool.not_eq_true',List.contains_eq_mem,decide_eq_false_iff_not,memTaken unique (List.mem_of_mem_drop member)]
    exact fun both => apart both.1 member

/- After some sweeps what is gone could go, and the queue is that after as many rounds. -/
theorem gcRounds (unique : Unique a) (delete : sweep.delete = true) (count : Nat) : ∃ gone,
    (gc sweep)^[count] a = without gone a ∧
    (∀ id ∈ gone, ∃ row ∈ queue sweep a, row.id = id ∧ isReady sweep a row = true) ∧
    queue sweep (without gone a) = (round (isReady sweep a) sweep.batchSize)^[count] (queue sweep a) := by
  induction count with
  | zero => exact ⟨[],withoutNone.symm,fun _ member => absurd member List.not_mem_nil,congrArg (queue sweep) withoutNone⟩
  | succ count ih =>
    obtain ⟨gone,reached,could,rows⟩ := ih
    have unique' := uniqueWithout unique gone
    have eligible : ∀ other ∈ gone, isEligible sweep a.database other = true := by
      intro other member
      obtain ⟨row,_,rfl,ready⟩ := could other member
      exact ready
    have same : ∀ row ∈ queue sweep (without gone a), isReady sweep (without gone a) row = isReady sweep a row :=
      fun row member => eligibleWithout eligible (memWithout.mp (memQueue.mp member).1).2
    refine ⟨gone ++ taken sweep (without gone a),?_,fun id member => ?_,?_⟩
    · rw [Function.iterate_succ_apply',reached,gcTaken unique' delete,withoutMore]
    · rcases List.mem_append.mp member with member | member
      · exact could id member
      · obtain ⟨row,listed,named,ready⟩ := takenOf member
        rw [same row listed] at ready
        rw [queueWithout unique gone] at listed
        exact ⟨row,List.mem_of_mem_filter listed,named,ready⟩
    · rw [← withoutMore,queueWithout unique',queueRound unique',roundAlike same,rows,Function.iterate_succ_apply']

/- How many of the archived memories that stay have been looked at before this one. -/
def blockers (sweep : Sweep) (a : Archive) (row : MemoryRow) : Nat :=
  a.memories.countP fun other => isExpired sweep.cutoff other && !isReady sweep a other && isBefore other row

theorem gcEnds (unique : Unique a) (delete : sweep.delete = true) : ∃ count gone, (gc sweep)^[count] a = without gone a ∧
    gc sweep (without gone a) = without gone a ∧ ∀ row ∈ a.memories, row.id ∈ gone ↔ isExpired sweep.cutoff row = true ∧
      isReady sweep a row = true ∧ blockers sweep a row < sweep.batchSize := by
  obtain ⟨count,rows,still⟩ := roundsReach (queue sweep a)
  obtain ⟨gone,reached,could,after⟩ := gcRounds unique delete count
  rw [rows] at after
  refine ⟨count,gone,reached,?_,fun row there => ?_⟩
  · rw [gcTaken (uniqueWithout unique gone) delete]
    have none : taken sweep (without gone a) = [] := by
      refine List.filter_eq_nil_iff.mpr fun id member => ?_
      obtain ⟨row,among,rfl⟩ := List.mem_map.mp member
      have stays := (memWithout.mp (memQueue.mp (List.mem_of_mem_take among)).1).2
      rw [eligibleWithout (fun other one => ?_) stays]
      · rw [after] at among
        exact fun ready => Bool.false_ne_true ((still row among).symm.trans ready)
      · obtain ⟨row,_,rfl,ready⟩ := could other one
        exact ready
    rw [none,withoutNone]
  · by_cases expired : isExpired sweep.cutoff row = true
    · have listed := memQueue.mpr ⟨there,expired⟩
      have stays : row ∈ left (isReady sweep a) sweep.batchSize (queue sweep a) ↔ row.id ∉ gone := by
        rw [← after,memQueue,memWithout]
        exact ⟨fun both => both.1.2,fun apart => ⟨⟨there,apart⟩,expired⟩⟩
      have counted : (queue sweep a).countP (fun other => !isReady sweep a other && isBefore other row) = blockers sweep a row := by
        unfold queue blockers
        rw [(List.perm_insertionSort _ _).countP_eq,List.countP_filter]
        exact List.countP_congr fun other _ => by simp [and_comm,and_left_comm]
      have whole := @memLeft MemoryRow (isReady sweep a) sweep.batchSize _ _ (queueStrict unique) (fun _ => beforeSelf) row listed
      rw [stays,counted] at whole
      rw [← not_iff_not,whole,← Nat.not_lt,← Bool.not_eq_true]
      tauto
    · refine iff_of_false (fun member => ?_) fun all => expired all.1
      obtain ⟨other,listed,same,_⟩ := could _ member
      obtain ⟨among,old⟩ := memQueue.mp listed
      exact expired (sameRow unique among there same ▸ old)

/- The clock of `is_protection_active` at `now`. -/
def clockAt (now : DateTime) : Curation.Clock where
  fromIsoFormat text := (IsoTime.read text).map fun d => ⟨wall d,d.offset⟩
  now := wall now

/- `set_protection` takes any text that `datetime.fromisoformat` takes, and the table has `isoformat` of it. -/
def Stored (protections : List Protection) : Prop :=
  ∀ protection ∈ protections, ∀ text ∈ protection.expiresAt, ∃ d, text = isoformat d

def isActive (now : DateTime) (a : Archive) (memoryId : String) : Bool :=
  a.database.protections.any fun protection => protection.memoryId == memoryId && isProtectionActive (clockAt now) protection.expiresAt

/- Later as clocks on the wall show it, or at the same time there and away from UTC. -/
def isLater (now d : DateTime) : Bool := wall now < wall d || wall now == wall d && d.offset.getD 0 != 0

def outlasts (now : DateTime) (protection : Protection) : Bool :=
  protection.expiresAt.all fun text => (IsoTime.read text).all (isLater now)

def isShielded (now : DateTime) (a : Archive) (memoryId : String) : Bool :=
  a.database.protections.any fun protection => protection.memoryId == memoryId && outlasts now protection

variable {now : DateTime}

theorem laterIff {d : DateTime} (utc : now.offset = some 0) : decide (isoformat now < isoformat d) = isLater now d := by
  rw [Bool.eq_iff_iff,decide_eq_true_iff,IsoTime.isoLater utc]
  unfold isLater
  simp

theorem outlastsLater (utc : now.offset = some 0) {expiresAt : Option String} (stored : ∀ text ∈ expiresAt, ∃ d, text = isoformat d) :
    (expiresAt.all fun text => isoformat now < text) = expiresAt.all fun text => (IsoTime.read text).all (isLater now) := by
  cases expiresAt with
  | none => rw [Option.all_none,Option.all_none]
  | some text =>
    obtain ⟨d,same⟩ := stored text rfl
    rw [Option.all_some,Option.all_some,same,IsoTime.readBack,Option.all_some,laterIff utc]

theorem protectedShielded (utc : now.offset = some 0) (stored : Stored a.database.protections) :
    isProtected (isoformat now) a.database.protections memoryId = isShielded now a memoryId := by
  refine Bool.eq_iff_iff.mpr ?_
  unfold isProtected isShielded outlasts
  rw [List.any_eq_true,List.any_eq_true]
  refine exists_congr fun protection => and_congr_right fun there => ?_
  rw [outlastsLater utc (stored protection there)]

structure Sound (sweep : Sweep) (now : DateTime) (a : Archive) : Prop where
  instant : sweep.now = isoformat now
  utc : now.offset = some 0
  stored : Stored a.database.protections
  unique : Unique a

theorem readyIff (sound : Sound sweep now a) : isReady sweep a row = true ↔
    isShielded now a row.id = false ∧ isLinked a.database.memory row.id = false := by
  unfold isReady isEligible
  rw [sound.instant,protectedShielded sound.utc sound.stored,Bool.and_eq_true,Bool.not_eq_true',Bool.not_eq_true']

/- How many archived memories are looked at before this one. -/
def ahead (sweep : Sweep) (a : Archive) (row : MemoryRow) : Nat :=
  a.memories.countP fun other => isExpired sweep.cutoff other && isBefore other row

theorem memGc (sound : Sound sweep now a) (there : row ∈ a.memories) : row ∉ (gc sweep a).memories ↔
    sweep.delete = true ∧ isExpired sweep.cutoff row = true ∧ ahead sweep a row < sweep.batchSize ∧
      isShielded now a row.id = false ∧ isLinked a.database.memory row.id = false := by
  cases delete : sweep.delete with
  | false =>
    unfold gc
    dsimp only
    rw [if_neg (by rw [delete]; exact Bool.false_ne_true)]
    simp [there]
  | true =>
    rw [gcTaken sound.unique delete,memWithout,← readyIff sound]
    by_cases expired : isExpired sweep.cutoff row = true
    · have listed := memQueue.mpr ⟨there,expired⟩
      have counted : (queue sweep a).countP (isBefore · row) = ahead sweep a row := by
        unfold queue ahead
        rw [(List.perm_insertionSort _ _).countP_eq,List.countP_filter]
        exact List.countP_congr fun other _ => by simp [and_comm]
      rw [memTaken sound.unique listed,takeBefore beforeSelf (queueStrict sound.unique) listed,counted]
      simp [there,expired]
    · refine iff_of_false (fun out => ?_) fun all => expired all.2.1
      refine out ⟨there,fun member => ?_⟩
      obtain ⟨other,listed,same,_⟩ := takenOf member
      obtain ⟨among,old⟩ := memQueue.mp listed
      exact expired (sameRow sound.unique among there same ▸ old)

/- No memory that a sweep takes has an active protection. -/
def Spares (sweep : Sweep) (now : DateTime) (a : Archive) : Prop :=
  ∀ row ∈ a.memories, row ∉ (gc sweep a).memories → isActive now a row.id = false

theorem gcSpares (sound : Sound sweep now a) : Spares sweep now a ↔ (sweep.delete = true → ∀ row ∈ a.memories,
    isExpired sweep.cutoff row = true → isLinked a.database.memory row.id = false → ahead sweep a row < sweep.batchSize →
      isActive now a row.id = true → isShielded now a row.id = true) := by
  unfold Spares
  constructor
  · intro spares delete row there expired linked within active
    by_contra shield
    have out := (memGc sound there).mpr ⟨delete,expired,within,eq_false_of_ne_true shield,linked⟩
    rw [spares row there out] at active
    cases active
  · intro holds row there out
    obtain ⟨delete,expired,within,shield,linked⟩ := (memGc sound there).mp out
    rw [← Bool.not_eq_true]
    intro active
    rw [holds delete row there expired linked within active] at shield
    cases shield

/- At noon of the first day of 2026 a protection has two hours to go, in the time of a place that
is two hours behind. -/

def noon : DateTime where
  year := 2026
  month := 1
  day := 1
  hour := 12
  minute := 0
  second := 0
  microsecond := 0
  offset := some 0
  years := by decide
  months := by decide
  days := by decide
  times := by decide
  offsets := by simp

def noonThere : DateTime := { noon with
  offset := some (-7200000000)
  offsets := by simp }

def afternoonThere : DateTime := { noonThere with
  hour := 13
  times := by decide }

def morningThere : DateTime := { noonThere with
  hour := 11
  times := by decide }

def archivedNote (memoryId : String) (day : String) : MemoryRow :=
  ⟨memoryId,none,"note","of old",none,"fact","archived",day,day,some day,[]⟩

def archiveOf (notes : List MemoryRow) (links : List MemoryLink) (expiries : List (String × DateTime)) : Archive where
  database := { Database.empty with
    memory := { Memory.empty with
      memories := notes
      links := links }
    protections := expiries.map fun expiry =>
      ⟨expiry.1,"no_autonomous_mutation","until then",none,"2025-01-01T00:00:00+00:00",some (isoformat expiry.2)⟩ }
  embeddings := []

def noonSweep : Sweep := ⟨"2025-07-01T00:00:00+00:00",isoformat noon,1,true⟩

def oneNote (expiry : DateTime) : Archive := archiveOf [archivedNote "a" "2025-01-01T00:00:00+00:00"] [] [("a",expiry)]

theorem archiveSound {notes : List MemoryRow} {links : List MemoryLink} {expiries : List (String × DateTime)}
    (unique : (notes.map (·.id)).Nodup) : Sound noonSweep noon (archiveOf notes links expiries) where
  instant := rfl
  utc := rfl
  unique := unique
  stored protection member text there := by
    obtain ⟨expiry,_,rfl⟩ := List.mem_map.mp member
    exact ⟨expiry.2,(Option.some.inj there).symm⟩

theorem gcSparesSample : Spares noonSweep noon (oneNote afternoonThere) := by
  refine (gcSpares (archiveSound (by decide))).mpr fun _ row there _ _ _ _ => ?_
  rw [List.mem_singleton.mp there]
  decide +kernel

theorem activeTaken : ¬ Spares noonSweep noon (oneNote morningThere) := by
  intro spares
  have gone : (gc noonSweep (oneNote morningThere)).memories = [] := List.isEmpty_iff.mp (by decide +kernel)
  have active : isActive noon (oneNote morningThere) "a" = true := by decide +kernel
  have inactive := spares (archivedNote "a" "2025-01-01T00:00:00+00:00") List.mem_cons_self (by rw [gone]; exact List.not_mem_nil)
  exact Bool.false_ne_true (inactive.symm.trans active)

/- Some row besides its own has this id. -/
def Refers (a : Archive) (memoryId : String) : Prop :=
  (∃ workspace ∈ a.database.memory.workspaces, workspace.1 = memoryId) ∨
    (∃ memoryTag ∈ a.database.memory.memoryTags, memoryTag.1 = memoryId) ∨
    (∃ link ∈ a.database.memory.links, link.sourceId = memoryId ∨ link.targetId = memoryId) ∨
    (∃ document ∈ a.database.memory.searchDocuments, document.memoryId = memoryId) ∨
    (∃ embedding ∈ a.embeddings, isEmbedded memoryId embedding = true) ∨
    ∃ protection ∈ a.database.protections, protection.memoryId = memoryId

theorem refersNone {gone : List String} (member : memoryId ∈ gone) : ¬ Refers (without gone a) memoryId := by
  have listed {ρ : Type} {rows : List ρ} {key : ρ → String} :
      ¬ ∃ row ∈ rows.filter (fun row => !gone.contains (key row)), key row = memoryId := by
    rintro ⟨row,there,rfl⟩
    have kept := (List.mem_filter.mp there).2
    rw [List.contains_iff_mem.mpr member] at kept
    cases kept
  rintro (workspace | memoryTag | ⟨link,there,ends⟩ | document | ⟨embedding,there,own⟩ | protection)
  · exact listed workspace
  · exact listed memoryTag
  · have kept := (List.mem_filter.mp there).2
    rcases ends with rfl | rfl <;> simp [member] at kept
  · exact listed document
  · have kept := (List.mem_filter.mp there).2
    unfold isEmbedded at own
    simp only [Bool.and_eq_true,beq_iff_eq] at own
    obtain ⟨own,rfl⟩ := own
    simp [own,member] at kept
  · exact listed protection

/- Sweep after sweep comes to an end with the memories that no sweep may take, and with no row
of another. -/
def Cleans (sweep : Sweep) (now : DateTime) (a : Archive) : Prop :=
  ∃ count after, after = (gc sweep)^[count] a ∧ gc sweep after = after ∧
    (∀ row, row ∈ after.memories ↔ row ∈ a.memories ∧ ¬ (isExpired sweep.cutoff row = true ∧
      isActive now a row.id = false ∧ isLinked a.database.memory row.id = false)) ∧
    ∀ row ∈ a.memories, row ∉ after.memories → ¬ Refers after row.id

theorem fixedAlike {α : Type} {f : α → α} {x : α} {n m : Nat} (left : f (f^[n] x) = f^[n] x) (right : f (f^[m] x) = f^[m] x) :
    f^[n] x = f^[m] x := by
  have reach {n m : Nat} (still : f (f^[n] x) = f^[n] x) : f^[m + n] x = f^[n] x := by
    rw [Function.iterate_add_apply,Function.iterate_fixed still]
  rw [← @reach n m left,Nat.add_comm,reach right]

theorem gcCleans (sound : Sound sweep now a) (delete : sweep.delete = true) : Cleans sweep now a ↔ ∀ row ∈ a.memories,
    isExpired sweep.cutoff row = true → isLinked a.database.memory row.id = false →
      (isShielded now a row.id = false ∧ blockers sweep a row < sweep.batchSize ↔ isActive now a row.id = false) := by
  obtain ⟨count,gone,reached,still,takes⟩ := gcEnds sound.unique delete
  constructor
  · rintro ⟨other,after,rfl,ends,stays,_⟩ row there expired linked
    have same := fixedAlike (reached ▸ still) ends
    have known := stays row
    rw [← same,reached,memWithout,takes row there,readyIff sound] at known
    rw [and_congr_right_iff] at known
    have known := not_iff_not.mp (known there)
    simpa [expired,linked] using known
  · intro holds
    refine ⟨count,_,rfl,reached ▸ still,fun row => ?_,fun row there out => ?_⟩
    · rw [reached,memWithout]
      refine and_congr_right fun there => not_congr ?_
      rw [takes row there,readyIff sound]
      have known := holds row there
      tauto
    · rw [reached] at out ⊢
      exact refersNone (not_not.mp fun apart => out (memWithout.mpr ⟨there,apart⟩))

/- The first of two archived memories is linked for good, and a sweep looks at one. -/
def starved : Archive := archiveOf [archivedNote "a" "2025-01-01T00:00:00+00:00",archivedNote "b" "2025-01-02T00:00:00+00:00"]
  [⟨"a","c","RELATES_TO",""⟩] []

theorem gcCleansSample : Cleans noonSweep noon (archiveOf
    [archivedNote "a" "2025-01-01T00:00:00+00:00",archivedNote "b" "2025-01-02T00:00:00+00:00"] [] [("b",noonThere)]) := by
  refine (gcCleans (archiveSound (by decide)) rfl).mpr fun row there _ _ => ?_
  rcases List.mem_cons.mp there with rfl | there
  · decide +kernel
  · rw [List.mem_singleton.mp there]
    decide +kernel

theorem starvedStays : ¬ Cleans noonSweep noon starved := by
  rintro ⟨count,after,rfl,_,stays,_⟩
  have none : taken noonSweep starved = [] := List.isEmpty_iff.mp (by decide +kernel)
  have unique : (starved.memories.map (·.id)).Nodup := by decide
  have still : gc noonSweep starved = starved := by rw [gcTaken unique rfl,none,withoutNone]
  have last : archivedNote "b" "2025-01-02T00:00:00+00:00" ∈ starved.memories := List.mem_cons_of_mem _ List.mem_cons_self
  have both := stays (archivedNote "b" "2025-01-02T00:00:00+00:00")
  rw [Function.iterate_fixed still] at both
  exact (both.mp last).2 (by decide +kernel)

end McpMemory.Maintenance
