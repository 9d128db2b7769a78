import McpMemory.Memory.Database

/-! What `evaluate_curation_action` of `core/curation_policy.py` makes of protections, and
which protections `is_protection_active` of `mutation_history.py` counts. The evidence and
manifest checks of a planned action are not here: a tool call carries neither. -/
namespace McpMemory.Curation

inductive ProtectionMode where
  | noAutonomousMutation
  | noAutonomousDestructiveChange
  | manualReviewRequired
  | localProviderOnly
  | noExternalProviderDisclosure
  | pinnedActive
  deriving DecidableEq, Repr

/- `ProtectionMode(text)`. -/
def protectionMode (text : String) : Option ProtectionMode :=
  [("no_autonomous_mutation",.noAutonomousMutation),
    ("no_autonomous_destructive_change",.noAutonomousDestructiveChange),
    ("manual_review_required",.manualReviewRequired),("local_provider_only",.localProviderOnly),
    ("no_external_provider_disclosure",.noExternalProviderDisclosure),
    ("pinned_active",ProtectionMode.pinnedActive)].lookup text

/- A `datetime` in microseconds; without an offset it is naive. -/
structure Stamp where
  wall : Int
  offset : Option Int

/- The clock at one instant and `datetime.fromisoformat`, which refuses a malformed text. -/
structure Clock where
  fromIsoFormat : String → Option Stamp
  now : Int

variable (clock : Clock)

/- Naive stamps are UTC, malformed ones never expire, and an expiry that equals now is past. -/
def isProtectionActive (expiresAt : Option String) : Bool :=
  match expiresAt with
  | none => true
  | some text => match clock.fromIsoFormat text with
    | none => true
    | some expiry => clock.now < expiry.wall - expiry.offset.getD 0

inductive RejectionCode where
  | noAutonomousMutation
  | destructiveChangeRequiresReview
  | manualReviewRequired
  | pinnedActive
  deriving DecidableEq, Repr

def destructiveOperations : List String := ["rewrite_memory","remove_link","merge_memories","split_memory",
  "archive_memory","delete_memory"]

def rejectionCodes (operation : String) (protections : List ProtectionMode) : List RejectionCode :=
  let destructive := destructiveOperations.contains operation
  (if protections.contains .noAutonomousMutation then [.noAutonomousMutation] else []) ++
  (if protections.contains .noAutonomousDestructiveChange && destructive then
    [.destructiveChangeRequiresReview] else []) ++
  (if protections.contains .manualReviewRequired then [.manualReviewRequired] else []) ++
  (if destructive && protections.contains .pinnedActive then [.pinnedActive] else [])

def activeModes (protections : List Protection) (memoryId : String) : List ProtectionMode :=
  (protections.filter fun protection => protection.memoryId == memoryId &&
    isProtectionActive clock protection.expiresAt).filterMap (protectionMode ·.mode)

/- The policy draws no objection from the active protections of the affected memories. -/
def permits (protections : List Protection) (operation : String) (affectedIds : List String) : Bool :=
  (rejectionCodes operation (affectedIds.flatMap (activeModes clock protections))).isEmpty

def forbids (operation : String) : ProtectionMode → Bool
  | .noAutonomousMutation | .manualReviewRequired => true
  | .noAutonomousDestructiveChange | .pinnedActive => destructiveOperations.contains operation
  | .localProviderOnly | .noExternalProviderDisclosure => false

theorem rejectsNone {operation modes} :
    (rejectionCodes operation modes).isEmpty ↔ ∀ mode ∈ modes, forbids operation mode = false := by
  unfold rejectionCodes
  simp only [List.isEmpty_iff,List.append_eq_nil_iff]
  constructor
  · rintro ⟨⟨⟨mutation,change⟩,review⟩,pinned⟩ mode member
    cases mode <;> simp_all [forbids]
  · intro fine
    have mutation := fine .noAutonomousMutation
    have change := fine .noAutonomousDestructiveChange
    have review := fine .manualReviewRequired
    have pinned := fine .pinnedActive
    simp only [forbids] at mutation change review pinned
    grind

/- The policy looks at each affected memory by itself. -/
theorem permitsEach {protections operation affectedIds} :
    permits clock protections operation affectedIds ↔
      ∀ memoryId ∈ affectedIds, permits clock protections operation [memoryId] := by
  simp only [permits,rejectsNone,List.mem_flatMap,List.mem_singleton]
  constructor
  · rintro fine memoryId member mode ⟨_,rfl,active⟩
    exact fine mode ⟨_,member,active⟩
  · rintro fine mode ⟨memoryId,member,active⟩
    exact fine memoryId member mode ⟨_,rfl,active⟩

end McpMemory.Curation
