import McpMemory.Lib.Json
import McpMemory.Lib.Table
import Mathlib.Data.List.Dedup

/-! `core/curation_quality_structural.py`: whether the deltas of a direct mutation show what its
operation is to leave behind. A delta is a mapping, so a field may be absent or of any type; `str`
is that of a value that is no text. -/
namespace McpMemory.Structural

abbrev EntityDelta := Json.Object

structure StructuralAssessment where
  relevant : Bool
  verified : Bool
  reason : Option String
  details : Json.Object

inductive StructuralOperation where
  | archiveMemory
  | deleteMemory
  | createLink
  | removeLink
  | removeDanglingLink
  | reconcileDanglingLinks
  | cleanupDanglingLinks
  | splitMemory
  | mergeMemories
  | deduplicateMemories
  deriving DecidableEq, Repr

def StructuralOperation.value : StructuralOperation → String
  | .archiveMemory => "archive_memory"
  | .deleteMemory => "delete_memory"
  | .createLink => "create_link"
  | .removeLink => "remove_link"
  | .removeDanglingLink => "remove_dangling_link"
  | .reconcileDanglingLinks => "reconcile_dangling_links"
  | .cleanupDanglingLinks => "cleanup_dangling_links"
  | .splitMemory => "split_memory"
  | .mergeMemories => "merge_memories"
  | .deduplicateMemories => "deduplicate_memories"

/- `_STRUCTURAL_OPERATIONS` -/
def structuralOperations : List StructuralOperation :=
  [.archiveMemory,.deleteMemory,.createLink,.removeLink,.removeDanglingLink,.reconcileDanglingLinks,
    .cleanupDanglingLinks,.splitMemory,.mergeMemories,.deduplicateMemories]

def structuralOperation (operation : String) : Option StructuralOperation :=
  structuralOperations.find? (·.value == operation)

theorem structuralValue (operation : StructuralOperation) : structuralOperation operation.value = some operation := by
  cases operation <;> decide

/- A mapping of entity ids to transitions. -/
structure EntitySet where
  entries : List (String × String)
  distinct : (entries.map (·.1)).Nodup

def has (delta : EntityDelta) (key text : String) : Bool :=
  match Json.get delta key with
  | some (.str found) => found == text
  | _ => false

/- `is True` and `is False`: no number is. -/
def leaves (delta : EntityDelta) (afterExists : Bool) : Bool :=
  match Json.get delta "after_exists" with
  | some (.bool found) => found == afterExists
  | _ => false

def isRecord (delta : EntityDelta) : Bool := has delta "kind" "record"

def isLink (delta : EntityDelta) : Bool := has delta "kind" "link"

/- A set holds no list and no mapping, and raises when it is asked for one. -/
def isHashable : Option Json → Bool
  | some (.arr _) | some (.obj _) => false
  | _ => true

section
variable (str : Json → String)

def entityId (delta : EntityDelta) : String :=
  match Json.get delta "entity_id" with
  | some (.str text) => text
  | some value => str value
  | none => "None"

def isExpected (expected : List (String × String)) (delta : EntityDelta) : Bool :=
  isRecord delta && (expected.lookup (entityId str delta)).any (has delta "transition" ·) && leaves delta true

/- `_matched_expected_records` -/
def matchedExpectedRecords (deltas : List EntityDelta) (expected : List (String × String)) : Nat :=
  ((deltas.filter (isExpected str expected)).map (entityId str)).dedup.length

def result (valid : Bool) (reason : String) (matchedDeltaCount : Nat) : StructuralAssessment :=
  ⟨true,valid,if valid then none else some reason,[("delta_count",.int matchedDeltaCount)]⟩

def counted (deltas : List EntityDelta) (found : EntityDelta → Bool) (reason : String) : StructuralAssessment :=
  result (0 < deltas.countP found) reason (deltas.countP found)

def isArchived (delta : EntityDelta) : Bool := isRecord delta && has delta "transition" "archived"

def isCreated (delta : EntityDelta) : Bool := isRecord delta && has delta "transition" "created"

def remains (delta : EntityDelta) : Bool := isRecord delta && leaves delta true

def withExpected (deltas : List EntityDelta) (expected : List (String × String)) (reason : String) : StructuralAssessment :=
  result (matchedExpectedRecords str deltas expected == expected.length) reason (matchedExpectedRecords str deltas expected)

def merged (deltas : List EntityDelta) (expected : List (String × String)) : StructuralAssessment :=
  if expected.isEmpty then
    result (deltas.any isArchived && deltas.any remains) "merge_sources_not_archived"
      (deltas.countP fun delta => isRecord delta && (has delta "transition" "archived" || leaves delta true))
  else withExpected str deltas expected "merge_sources_not_archived"

def split (deltas : List EntityDelta) (expected : List (String × String)) : Except String StructuralAssessment :=
  if expected.isEmpty then
    if deltas.any fun delta => isRecord delta && !isHashable (Json.get delta "transition") then
      .error "TypeError: unhashable type"
    else .ok (result (deltas.any isCreated && deltas.any isArchived) "split_boundary_missing"
      (deltas.countP fun delta => isCreated delta || isArchived delta))
  else .ok (withExpected str deltas expected "split_boundary_missing")

def evaluateStructuralMutation (operation : String) (deltas : List EntityDelta) (expectedEntitySet : Option EntitySet) :
    Except String StructuralAssessment :=
  match structuralOperation operation with
  | none => .ok ⟨false,false,none,[]⟩
  | some operation =>
    if deltas.isEmpty then .ok ⟨true,true,none,[("evidence",.str "typed_receipt")]⟩
    else
      let expected := (expectedEntitySet.map (·.entries)).getD []
      match operation with
      | .createLink => .ok (counted deltas (fun delta => isLink delta && leaves delta true) "link_not_created")
      | .removeLink | .removeDanglingLink | .reconcileDanglingLinks | .cleanupDanglingLinks =>
        .ok (counted deltas (fun delta => isLink delta && leaves delta false) "dangling_link_remains")
      | .archiveMemory => .ok (counted deltas (fun delta => isArchived delta && leaves delta true) "memory_not_archived")
      | .deleteMemory => .ok (counted deltas (fun delta => isRecord delta && leaves delta false) "memory_not_deleted")
      | .mergeMemories | .deduplicateMemories => .ok (merged str deltas expected)
      | .splitMemory => split str deltas expected

/- What the deltas are to show. -/

/- Of every link delta, one as is asked and none the other way. -/
structure Settles (deltas : List EntityDelta) (afterExists : Bool) : Prop where
  settled : ∃ delta ∈ deltas, isLink delta = true ∧ leaves delta afterExists = true
  agreed : ∀ delta ∈ deltas, isLink delta = true → leaves delta (!afterExists) = false

/- A record that is still there, of which no delta says that it was archived. -/
structure Retained (deltas : List EntityDelta) (delta : EntityDelta) : Prop where
  remains : remains delta = true
  kept : ∀ other ∈ deltas, isArchived other = true → entityId str other ≠ entityId str delta

def Exhibits (deltas : List EntityDelta) : StructuralOperation → Prop
  | .createLink => Settles deltas true
  | .removeLink | .removeDanglingLink | .reconcileDanglingLinks | .cleanupDanglingLinks => Settles deltas false
  | .archiveMemory => ∃ delta ∈ deltas, isArchived delta = true ∧ leaves delta true = true
  | .deleteMemory => ∃ delta ∈ deltas, isRecord delta = true ∧ leaves delta false = true
  | .mergeMemories | .deduplicateMemories =>
    (∃ delta ∈ deltas, isArchived delta = true) ∧ ∃ delta ∈ deltas, Retained str deltas delta
  | .splitMemory => (∃ delta ∈ deltas, isCreated delta = true) ∧ ∃ delta ∈ deltas, isArchived delta = true

structure Matches (entry : String × String) (delta : EntityDelta) : Prop where
  record : isRecord delta = true
  entity : entityId str delta = entry.1
  transition : has delta "transition" entry.2 = true
  exists_ : leaves delta true = true

def AllMatched (deltas : List EntityDelta) (expected : List (String × String)) : Prop :=
  ∀ entry ∈ expected, ∃ delta ∈ deltas, Matches str entry delta

def verified (operation : StructuralOperation) (deltas : List EntityDelta) (expectedEntitySet : Option EntitySet) : Prop :=
  ∃ assessment, evaluateStructuralMutation str operation.value deltas expectedEntitySet = .ok assessment ∧
    assessment.verified = true

def entriesOf (expectedEntitySet : Option EntitySet) : List (String × String) := (expectedEntitySet.map (·.entries)).getD []

theorem entriesDistinct (expectedEntitySet : Option EntitySet) : ((entriesOf expectedEntitySet).map (·.1)).Nodup := by
  cases expectedEntitySet with
  | none => exact List.nodup_nil
  | some given => exact given.distinct

theorem countedVerified (deltas : List EntityDelta) (found : EntityDelta → Bool) (reason : String) :
    (counted deltas found reason).verified = true ↔ ∃ delta ∈ deltas, found delta = true := by
  simp [counted,result]

theorem expectedMatches {expected : List (String × String)} (distinct : (expected.map (·.1)).Nodup) {delta : EntityDelta}
    {entry : String × String} (listed : entry ∈ expected) (same : entityId str delta = entry.1) :
    isExpected str expected delta = true ↔ Matches str entry delta := by
  have found : expected.lookup (entityId str delta) = some entry.2 := Table.lookupDistinct distinct (same ▸ listed)
  simp only [isExpected,found,Option.any_some,Bool.and_eq_true]
  exact ⟨fun ⟨⟨record,transition⟩,there⟩ => ⟨record,same,transition,there⟩,
    fun matched => ⟨⟨matched.record,matched.transition⟩,matched.exists_⟩⟩

/- A set of ids among distinct keys has as many as there are keys where it has every key. -/
theorem matchedAll (deltas : List EntityDelta) {expected : List (String × String)} (distinct : (expected.map (·.1)).Nodup) :
    matchedExpectedRecords str deltas expected = expected.length ↔ AllMatched str deltas expected := by
  have keyed : ((deltas.filter (isExpected str expected)).map (entityId str)).dedup ⊆ expected.map (·.1) := by
    intro id member
    obtain ⟨delta,chosen,rfl⟩ := List.mem_map.mp (List.mem_dedup.mp member)
    have wanted := (List.mem_filter.mp chosen).2
    unfold isExpected at wanted
    cases found : expected.lookup (entityId str delta) with
    | none => simp [found] at wanted
    | some transition => exact List.mem_map.mpr ⟨_,Table.lookupMember found,rfl⟩
  have within := List.subperm_of_subset (List.nodup_dedup _) keyed
  unfold matchedExpectedRecords
  constructor
  · intro full entry listed
    have same := within.perm_of_length_le (by rw [full,List.length_map])
    have member := same.mem_iff.mpr (List.mem_map.mpr ⟨entry,listed,rfl⟩)
    obtain ⟨delta,chosen,named⟩ := List.mem_map.mp (List.mem_dedup.mp member)
    have ⟨there,wanted⟩ := List.mem_filter.mp chosen
    exact ⟨delta,there,(expectedMatches str distinct listed named).mp wanted⟩
  · intro all
    refine le_antisymm (by simpa using within.length_le) ?_
    have covers : expected.map (·.1) ⊆ ((deltas.filter (isExpected str expected)).map (entityId str)).dedup := by
      intro id member
      obtain ⟨entry,listed,rfl⟩ := List.mem_map.mp member
      obtain ⟨delta,there,matched⟩ := all entry listed
      have wanted := (expectedMatches str distinct listed matched.entity).mpr matched
      exact List.mem_dedup.mpr (List.mem_map.mpr ⟨delta,List.mem_filter.mpr ⟨there,wanted⟩,matched.entity⟩)
    simpa using (List.subperm_of_subset distinct covers).length_le

theorem withExpectedVerified (deltas : List EntityDelta) {expected : List (String × String)}
    (distinct : (expected.map (·.1)).Nodup) (reason : String) :
    (withExpected str deltas expected reason).verified = true ↔ AllMatched str deltas expected := by
  simp [withExpected,result,matchedAll str deltas distinct]

theorem mergedVerified (deltas : List EntityDelta) {expected : List (String × String)} (distinct : (expected.map (·.1)).Nodup) :
    (merged str deltas expected).verified = true ↔
      if expected = [] then (∃ delta ∈ deltas, isArchived delta = true) ∧ ∃ delta ∈ deltas, remains delta = true
      else AllMatched str deltas expected := by
  unfold merged
  simp only [List.isEmpty_iff]
  split
  · simp [result]
  · exact withExpectedVerified str deltas distinct _

theorem splitVerified (deltas : List EntityDelta) {expected : List (String × String)} (distinct : (expected.map (·.1)).Nodup) :
    ∀ assessment, split str deltas expected = .ok assessment → (assessment.verified = true ↔
      if expected = [] then (∃ delta ∈ deltas, isCreated delta = true) ∧ ∃ delta ∈ deltas, isArchived delta = true
      else AllMatched str deltas expected) := by
  intro assessment done
  unfold split at done
  simp only [List.isEmpty_iff] at done
  split at done
  · split at done
    · cases done
    · cases done
      simp_all [result]
  · cases done
    simpa [*] using withExpectedVerified str deltas distinct _

/- A verdict says that the deltas show the operation, and with expected entities that each was met. -/
structure Sound (operation : StructuralOperation) (deltas : List EntityDelta) (expectedEntitySet : Option EntitySet) : Prop where
  exhibits : verified str operation deltas expectedEntitySet → Exhibits str deltas operation
  expected : entriesOf expectedEntitySet ≠ [] →
    (verified str operation deltas expectedEntitySet ↔ AllMatched str deltas (entriesOf expectedEntitySet))

/- When one delta decides without a look at the others or at what is expected. -/

/- No two link deltas speak against each other. -/
def OneSided (deltas : List EntityDelta) (afterExists : Bool) : Prop :=
  (∃ delta ∈ deltas, isLink delta = true ∧ leaves delta afterExists = true) →
    ∀ delta ∈ deltas, isLink delta = true → leaves delta (!afterExists) = false

/- Where the expected entities are not looked at, they say the same as the one delta. -/
def Aligned (deltas : List EntityDelta) (expected : List (String × String)) (found : EntityDelta → Bool) : Prop :=
  expected ≠ [] → ((∃ delta ∈ deltas, found delta = true) ↔ AllMatched str deltas expected)

/- Where one delta may play both roles of a merge, another plays the second as well. -/
structure TwoRoles (deltas : List EntityDelta) (expected : List (String × String)) : Prop where
  plain : expected = [] → (∃ delta ∈ deltas, isArchived delta = true) → (∃ delta ∈ deltas, remains delta = true) →
    ∃ delta ∈ deltas, Retained str deltas delta
  named : expected ≠ [] → AllMatched str deltas expected →
    (∃ delta ∈ deltas, isArchived delta = true) ∧ ∃ delta ∈ deltas, Retained str deltas delta

def Unequivocal (deltas : List EntityDelta) (expected : List (String × String)) : StructuralOperation → Prop
  | .createLink => OneSided deltas true ∧ Aligned str deltas expected fun delta => isLink delta && leaves delta true
  | .removeLink | .removeDanglingLink | .reconcileDanglingLinks | .cleanupDanglingLinks =>
    OneSided deltas false ∧ Aligned str deltas expected fun delta => isLink delta && leaves delta false
  | .archiveMemory => Aligned str deltas expected fun delta => isArchived delta && leaves delta true
  | .deleteMemory => Aligned str deltas expected fun delta => isRecord delta && leaves delta false
  | .mergeMemories | .deduplicateMemories => TwoRoles str deltas expected
  | .splitMemory => expected ≠ [] → AllMatched str deltas expected →
    (∃ delta ∈ deltas, isCreated delta = true) ∧ ∃ delta ∈ deltas, isArchived delta = true

theorem evaluated (operation : StructuralOperation) {deltas : List EntityDelta} (nonempty : deltas ≠ [])
    (expectedEntitySet : Option EntitySet) : evaluateStructuralMutation str operation.value deltas expectedEntitySet =
      match operation with
      | .createLink => .ok (counted deltas (fun delta => isLink delta && leaves delta true) "link_not_created")
      | .removeLink | .removeDanglingLink | .reconcileDanglingLinks | .cleanupDanglingLinks =>
        .ok (counted deltas (fun delta => isLink delta && leaves delta false) "dangling_link_remains")
      | .archiveMemory => .ok (counted deltas (fun delta => isArchived delta && leaves delta true) "memory_not_archived")
      | .deleteMemory => .ok (counted deltas (fun delta => isRecord delta && leaves delta false) "memory_not_deleted")
      | .mergeMemories | .deduplicateMemories => .ok (merged str deltas (entriesOf expectedEntitySet))
      | .splitMemory => split str deltas (entriesOf expectedEntitySet) := by
  unfold evaluateStructuralMutation
  rw [structuralValue]
  dsimp only
  rw [if_neg (by simpa using nonempty)]
  rfl

/- The operations that one delta decides. -/
theorem oneDecides {operation : StructuralOperation} {deltas : List EntityDelta} {expectedEntitySet : Option EntitySet}
    {found : EntityDelta → Bool} {reason : String}
    (decided : evaluateStructuralMutation str operation.value deltas expectedEntitySet = .ok (counted deltas found reason)) :
    verified str operation deltas expectedEntitySet ↔ ∃ delta ∈ deltas, found delta = true := by
  unfold verified
  rw [decided]
  simp [countedVerified]

theorem oneSound {operation : StructuralOperation} {deltas : List EntityDelta} {expectedEntitySet : Option EntitySet}
    {found : EntityDelta → Bool} {reason : String}
    (decided : evaluateStructuralMutation str operation.value deltas expectedEntitySet = .ok (counted deltas found reason)) :
    Sound str operation deltas expectedEntitySet ↔ ((∃ delta ∈ deltas, found delta = true) → Exhibits str deltas operation) ∧
      Aligned str deltas (entriesOf expectedEntitySet) found := by
  rw [← oneDecides str decided]
  constructor
  · intro sound
    exact ⟨sound.exhibits,fun given => by rw [← oneDecides str decided]; exact sound.expected given⟩
  · intro ⟨exhibits,aligned⟩
    exact ⟨exhibits,fun given => by rw [oneDecides str decided]; exact aligned given⟩

theorem linkSound {operation : StructuralOperation} {deltas : List EntityDelta} {expectedEntitySet : Option EntitySet}
    {afterExists : Bool} {reason : String} (settles : Exhibits str deltas operation = Settles deltas afterExists)
    (decided : evaluateStructuralMutation str operation.value deltas expectedEntitySet =
      .ok (counted deltas (fun delta => isLink delta && leaves delta afterExists) reason)) :
    Sound str operation deltas expectedEntitySet ↔ OneSided deltas afterExists ∧
      Aligned str deltas (entriesOf expectedEntitySet) fun delta => isLink delta && leaves delta afterExists := by
  rw [oneSound str decided,settles]
  refine and_congr_left fun _ => ?_
  simp only [Bool.and_eq_true]
  exact ⟨fun shows found => (shows found).agreed,fun agrees found => ⟨found,agrees found⟩⟩

theorem mergeSound {operation : StructuralOperation} {deltas : List EntityDelta} {expectedEntitySet : Option EntitySet}
    (shows : Exhibits str deltas operation =
      ((∃ delta ∈ deltas, isArchived delta = true) ∧ ∃ delta ∈ deltas, Retained str deltas delta))
    (decided : evaluateStructuralMutation str operation.value deltas expectedEntitySet =
      .ok (merged str deltas (entriesOf expectedEntitySet))) :
    Sound str operation deltas expectedEntitySet ↔ TwoRoles str deltas (entriesOf expectedEntitySet) := by
  have verdict : verified str operation deltas expectedEntitySet ↔
      (merged str deltas (entriesOf expectedEntitySet)).verified = true := by
    unfold verified
    rw [decided]
    simp
  rw [mergedVerified str deltas (entriesDistinct expectedEntitySet)] at verdict
  constructor
  · intro sound
    have exhibits := sound.exhibits
    rw [verdict,shows] at exhibits
    exact ⟨fun none archived left => (exhibits (by rw [if_pos none]; exact ⟨archived,left⟩)).2,
      fun given all => exhibits (by rw [if_neg given]; exact all)⟩
  · intro roles
    refine ⟨?_,fun given => by rw [verdict,if_neg given]⟩
    rw [verdict,shows]
    split
    · rename_i none
      exact fun ⟨archived,left⟩ => ⟨archived,roles.plain none archived left⟩
    · rename_i given
      exact roles.named given

theorem splitSound {deltas : List EntityDelta} (nonempty : deltas ≠ []) (expectedEntitySet : Option EntitySet) :
    Sound str .splitMemory deltas expectedEntitySet ↔
      Unequivocal str deltas (entriesOf expectedEntitySet) .splitMemory := by
  have decided := evaluated str .splitMemory nonempty expectedEntitySet
  have verdict := splitVerified str deltas (entriesDistinct expectedEntitySet)
  dsimp only at decided
  by_cases given : entriesOf expectedEntitySet = []
  · refine ⟨fun _ named => absurd given named,fun _ => ⟨fun ⟨assessment,done,passed⟩ => ?_,fun named => absurd given named⟩⟩
    rw [decided] at done
    have shown := (verdict assessment done).mp passed
    rwa [if_pos given] at shown
  · have done : split str deltas (entriesOf expectedEntitySet) =
        .ok (withExpected str deltas (entriesOf expectedEntitySet) "split_boundary_missing") := by
      unfold split
      rw [if_neg (by simpa using given)]
    have verdict : verified str .splitMemory deltas expectedEntitySet ↔ AllMatched str deltas (entriesOf expectedEntitySet) := by
      unfold verified
      rw [decided,done]
      simpa using withExpectedVerified str deltas (entriesDistinct expectedEntitySet) _
    exact ⟨fun sound _ all => sound.exhibits (verdict.mpr all),
      fun named => ⟨fun passed => named given (verdict.mp passed),fun _ => verdict⟩⟩

theorem structuralSound (operation : StructuralOperation) (deltas : List EntityDelta) (nonempty : deltas ≠ [])
    (expectedEntitySet : Option EntitySet) : Sound str operation deltas expectedEntitySet ↔
      Unequivocal str deltas (entriesOf expectedEntitySet) operation := by
  have decided := evaluated str operation nonempty expectedEntitySet
  cases operation with
  | createLink => exact linkSound str rfl decided
  | removeLink => exact linkSound str rfl decided
  | removeDanglingLink => exact linkSound str rfl decided
  | reconcileDanglingLinks => exact linkSound str rfl decided
  | cleanupDanglingLinks => exact linkSound str rfl decided
  | archiveMemory =>
    rw [oneSound str decided]
    exact ⟨And.right,fun aligned => ⟨by simp [Exhibits],aligned⟩⟩
  | deleteMemory =>
    rw [oneSound str decided]
    exact ⟨And.right,fun aligned => ⟨by simp [Exhibits],aligned⟩⟩
  | mergeMemories => exact mergeSound str rfl decided
  | deduplicateMemories => exact mergeSound str rfl decided
  | splitMemory => exact splitSound str nonempty expectedEntitySet

end

/- A merge of which only the archived record is seen. -/
def archivedAlone : EntityDelta :=
  [("kind",.str "record"),("entity_id",.str "source"),("transition",.str "archived"),("after_exists",.bool true)]

theorem structuralSoundSample : Sound (fun _ => "") .mergeMemories
    [archivedAlone,[("kind",.str "record"),("entity_id",.str "canonical"),("transition",.str "updated"),("after_exists",.bool true)]]
    none := by
  refine (structuralSound (fun _ => "") .mergeMemories _ (by simp) none).mpr ⟨fun _ _ _ => ?_,fun named => absurd rfl named⟩
  exact ⟨_,List.mem_cons_of_mem _ List.mem_cons_self,by decide,by decide⟩

theorem archivedVerifies : ¬ Sound (fun _ => "") .mergeMemories [archivedAlone] none := by
  intro sound
  obtain ⟨_,delta,member,retained⟩ := sound.exhibits ⟨_,rfl,by decide⟩
  rw [List.mem_singleton] at member
  subst member
  exact retained.kept archivedAlone List.mem_cons_self (by decide) rfl

end McpMemory.Structural
