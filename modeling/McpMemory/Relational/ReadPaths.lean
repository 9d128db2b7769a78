import McpMemory.Relational.Repository

/-! The reads of `relational/repository.py`. `get_memory` asks for the workspaces and the tags of
a memory row by row; the searches get them as one text with commas in between, which they split
again. All take the row itself as it is, less `archived_at` in two of the three. -/
namespace McpMemory.Relational.Reading
open Memory Table Text
open Curation (ActionError resolveMemoryId)

/- `_hydrate_record`, which leaves `archived_at` at its default. -/
def hydrateRecord (t : Tables) (row : MemoryRow) : MemoryRecord := { Memory.hydrateRecord t row with archivedAt := none }

def getMemory (t : Tables) (memoryId : String) : Except ActionError (Option MemoryRecord) :=
  (resolveMemoryId t memoryId).map fun resolved => (resolved.bind (selectRow · t)).map (hydrateRecord t)

def incomingLinks (t : Tables) (memoryId : String) : List MemoryLink := t.links.filter (·.targetId == memoryId)

def splitCsvValues (value : String) : List String :=
  if value = "" then [] else ((value.toList.splitOn ',').map String.ofList).filter (· ≠ "")

/- `order` is the order in which an aggregate without ORDER BY comes to its rows. -/
variable (order : List String → List String)

/- `GROUP_CONCAT(DISTINCT …)` of the rows, and '' where there is none. -/
def groupConcat (values : List String) : String := String.intercalate "," (order values.dedup)

/- The row of `get_searchable_memories`. -/
def searchableRecord (t : Tables) (row : MemoryRow) : MemoryRecord := { row with
  workspaceIds := splitCsvValues (groupConcat order ((t.workspaces.filter (·.1 == row.id)).map (·.2)))
  tags := splitCsvValues (groupConcat order (t.tags.filterMap fun tag =>
    if t.memoryTags.contains (row.id,tag.id) then some tag.name else none)) }

structure RankedMemoryCandidate where
  record : MemoryRecord
  incomingLinksCount : Nat
  hasIncomingSupersedes : Bool
  incomingLinkTypeCounts : List (String × Nat)

def countedTypes : List String := ["DEPENDS_ON","AMENDS","CONTRADICTS","SUPERSEDES"]

/- The row of `get_ranking_candidates`, which leaves `archived_at` out as well. -/
def rankingCandidate (t : Tables) (row : MemoryRow) : RankedMemoryCandidate where
  record := { searchableRecord order t row with archivedAt := none }
  incomingLinksCount := t.links.countP (·.targetId == row.id)
  hasIncomingSupersedes := t.links.any fun link => link.targetId == row.id && link.linkType == "SUPERSEDES"
  incomingLinkTypeCounts := countedTypes.map fun linkType =>
    (linkType,t.links.countP fun link => link.targetId == row.id && link.linkType == linkType)

def resolveIds (t : Tables) : List String → Except ActionError (List String)
  | [] => .ok []
  | memoryId::rest => do
    let resolved ← resolveMemoryId t memoryId
    let others ← resolveIds t rest
    .ok (resolved.toList ++ others)

structure Filter where
  status : Option String
  includeSuperseded : Bool

def selects (t : Tables) (filter : Filter) (row : MemoryRow) : Bool :=
  filter.status.all (· == row.status) &&
    (filter.includeSuperseded || !t.links.any fun link => link.targetId == row.id && link.linkType == "SUPERSEDES")

/- The rows of a query, in the order of the ids that were asked for. -/
def selectRows (t : Tables) (memoryIds : List String) (filter : Filter) : Except ActionError (List MemoryRow) :=
  (resolveIds t (normalizeValues memoryIds)).map fun resolved =>
    resolved.filterMap fun memoryId => (selectRow memoryId t).filter (selects t filter)

def getSearchableMemories (t : Tables) (memoryIds : List String) (filter : Filter) : Except ActionError (List MemoryRecord) :=
  (selectRows t memoryIds filter).map (·.map (searchableRecord order t))

def getRankingCandidates (t : Tables) (memoryIds : List String) (filter : Filter) :
    Except ActionError (List RankedMemoryCandidate) :=
  (selectRows t memoryIds filter).map (·.map (rankingCandidate order t))

/- Two readings of one memory, with the tags and the workspaces as sets. -/
structure Alike (a b : MemoryRecord) : Prop where
  row : a.toMemoryRow = b.toMemoryRow
  workspaceIds : ∀ workspaceId, workspaceId ∈ a.workspaceIds ↔ workspaceId ∈ b.workspaceIds
  tags : ∀ tag, tag ∈ a.tags ↔ tag ∈ b.tags

/- What a candidate tells of the links is what `get_links` gives. -/
structure Counted (links : List MemoryLink) (candidate : RankedMemoryCandidate) : Prop where
  count : candidate.incomingLinksCount = links.length
  supersedes : candidate.hasIncomingSupersedes = links.any (·.linkType == "SUPERSEDES")
  types : candidate.incomingLinkTypeCounts = countedTypes.map fun linkType =>
    (linkType,links.countP (·.linkType == linkType))

/- Whatever is read with the searches reads the same with `get_memory` and `get_links`. -/
structure Agrees (t : Tables) : Prop where
  searchable : ∀ order, (∀ values, (order values).Perm values) → ∀ memoryIds filter records,
    getSearchableMemories order t memoryIds filter = .ok records → ∀ record ∈ records,
      ∃ direct, getMemory t record.id = .ok (some direct) ∧ Alike direct record
  ranking : ∀ order, (∀ values, (order values).Perm values) → ∀ memoryIds filter candidates,
    getRankingCandidates order t memoryIds filter = .ok candidates → ∀ candidate ∈ candidates,
      (∃ direct, getMemory t candidate.record.id = .ok (some direct) ∧ Alike direct candidate.record) ∧
        Counted (incomingLinks t candidate.record.id) candidate

/- A search can be asked for the memory. -/
def Named (t : Tables) (row : MemoryRow) : Prop :=
  ∃ text, strip text = text ∧ text ≠ "" ∧ resolveMemoryId t text = .ok (some row.id)

def Clear (value : String) : Prop := value ≠ "" ∧ ',' ∉ value.toList

/- What the searches read back of a memory. -/
structure Readable (t : Tables) (row : MemoryRow) : Prop where
  archivedAt : row.archivedAt = none
  workspaceIds : ∀ pair ∈ t.workspaces, pair.1 = row.id → Clear pair.2
  tags : ∀ tag ∈ t.tags, (row.id,tag.id) ∈ t.memoryTags → Clear tag.name

variable {order} {t : Tables} {row : MemoryRow}

/- A text that was put together with commas falls apart at them. -/

theorem pieceClear {c : Char} {text piece : List Char} (member : piece ∈ text.splitOn c) : c ∉ piece := by
  induction text generalizing piece with
  | nil =>
    rw [List.splitOn_nil] at member
    cases List.mem_singleton.mp member
    exact List.not_mem_nil
  | cons first rest ih =>
    rw [List.splitOn_cons_eq_if_modifyHead] at member
    split at member
    · rcases List.mem_cons.mp member with rfl | member
      · exact List.not_mem_nil
      · exact ih member
    · rename_i apart
      obtain ⟨next,others,split⟩ := List.exists_cons_of_ne_nil (List.splitOn_ne_nil c rest)
      rw [split,List.modifyHead_cons] at member
      rcases List.mem_cons.mp member with rfl | member
      · intro here
        rcases List.mem_cons.mp here with rfl | here
        · exact apart (beq_self_eq_true _)
        · exact ih (split ▸ List.mem_cons_self) here
      · exact ih (split ▸ List.mem_cons_of_mem _ member)

theorem splitClear {text value : String} (member : value ∈ splitCsvValues text) : Clear value := by
  unfold splitCsvValues at member
  split at member
  · cases member
  · obtain ⟨listed,solid⟩ := List.mem_filter.mp member
    obtain ⟨piece,there,rfl⟩ := List.mem_map.mp listed
    refine ⟨of_decide_eq_true solid,?_⟩
    rw [String.toList_ofList]
    exact pieceClear there

theorem splitJoined {values : List String} (clear : ∀ value ∈ values, Clear value) :
    splitCsvValues (String.intercalate "," values) = values := by
  cases values with
  | nil => rfl
  | cons first rest =>
    have pieces : (String.intercalate "," (first::rest)).toList.splitOn ',' = (first::rest).map String.toList := by
      rw [String.toList_intercalate]
      refine List.splitOn_intercalate ',' (fun piece member => ?_) (List.cons_ne_nil _ _)
      obtain ⟨value,there,rfl⟩ := List.mem_map.mp member
      exact (clear value there).2
    have solid : String.intercalate "," (first::rest) ≠ "" := by
      intro empty
      rw [empty] at pieces
      have alone : first.toList = [] ∧ rest = [] := by simpa using pieces.symm
      exact (clear first List.mem_cons_self).1 (String.toList_eq_nil_iff.mp alone.1)
    unfold splitCsvValues
    rw [if_neg solid,pieces,List.map_map]
    have back : String.ofList ∘ String.toList = id := funext fun text => String.ofList_toList
    rw [back,List.map_id]
    exact List.filter_eq_self.mpr fun value member => decide_eq_true (clear value member).1

/- Put together and split again the values are the same set where none is empty or has a comma. -/
theorem groupExact (arranges : ∀ values, (order values).Perm values) {values : List String} :
    (∀ value, value ∈ values ↔ value ∈ splitCsvValues (groupConcat order values)) ↔ ∀ value ∈ values, Clear value := by
  have same : ∀ value, value ∈ order values.dedup ↔ value ∈ values := fun value =>
    (arranges _).mem_iff.trans List.mem_dedup
  constructor
  · exact fun exact_ value member => splitClear ((exact_ value).mp member)
  · intro clear value
    unfold groupConcat
    rw [splitJoined fun value member => clear value ((same value).mp member)]
    exact (same value).symm

theorem memHydrated {workspaceId tag : String} :
    (workspaceId ∈ (hydrateRecord t row).workspaceIds ↔
      workspaceId ∈ (t.workspaces.filter (·.1 == row.id)).map (·.2)) ∧
    (tag ∈ (hydrateRecord t row).tags ↔ tag ∈ t.tags.filterMap fun tag =>
      if t.memoryTags.contains (row.id,tag.id) then some tag.name else none) :=
  ⟨List.mem_insertionSort _,List.mem_insertionSort _⟩

/- The sets that a search reads of a memory. -/

theorem workspacesAlike (arranges : ∀ values, (order values).Perm values) :
    (∀ workspaceId, workspaceId ∈ (hydrateRecord t row).workspaceIds ↔
      workspaceId ∈ (searchableRecord order t row).workspaceIds) ↔ ∀ pair ∈ t.workspaces, pair.1 = row.id → Clear pair.2 := by
  refine (forall_congr' fun workspaceId => iff_congr (@memHydrated t row workspaceId "").1 Iff.rfl).trans
    ((groupExact arranges).trans ?_)
  simp only [List.forall_mem_map,List.mem_filter,beq_iff_eq,and_imp]

theorem tagsAlike (arranges : ∀ values, (order values).Perm values) :
    (∀ tag, tag ∈ (hydrateRecord t row).tags ↔ tag ∈ (searchableRecord order t row).tags) ↔
      ∀ tag ∈ t.tags, (row.id,tag.id) ∈ t.memoryTags → Clear tag.name := by
  refine (forall_congr' fun tag => iff_congr (@memHydrated t row "" tag).2 Iff.rfl).trans ((groupExact arranges).trans ?_)
  constructor
  · intro clear tag member mapped
    exact clear tag.name (List.mem_filterMap.mpr ⟨tag,member,if_pos (List.contains_iff_mem.mpr mapped)⟩)
  · intro clear name listed
    obtain ⟨tag,member,named⟩ := List.mem_filterMap.mp listed
    split at named
    · rename_i mapped
      cases named
      exact clear tag member (List.contains_iff_mem.mp mapped)
    · cases named

/- A memory read directly and by a search. -/
theorem searchableAlike (arranges : ∀ values, (order values).Perm values) :
    Alike (hydrateRecord t row) (searchableRecord order t row) ↔ Readable t row := by
  constructor
  · intro alike
    exact ⟨(congrArg MemoryRow.archivedAt alike.row).symm,(workspacesAlike arranges).mp alike.workspaceIds,
      (tagsAlike arranges).mp alike.tags⟩
  · intro readable
    refine ⟨?_,(workspacesAlike arranges).mpr readable.workspaceIds,(tagsAlike arranges).mpr readable.tags⟩
    have unarchived := readable.archivedAt
    cases row
    cases unarchived
    rfl

theorem rankingAlike (arranges : ∀ values, (order values).Perm values) (readable : Readable t row) :
    Alike (hydrateRecord t row) (rankingCandidate order t row).record :=
  ⟨rfl,(workspacesAlike arranges).mpr readable.workspaceIds,(tagsAlike arranges).mpr readable.tags⟩

theorem rankingCounted : Counted (incomingLinks t row.id) (rankingCandidate order t row) where
  count := List.countP_eq_length_filter
  supersedes := by
    unfold incomingLinks
    rw [List.any_filter]
    rfl
  types := by
    unfold incomingLinks
    simp only [List.countP_filter,Bool.and_comm]
    rfl

theorem normalized {values : List String} {text} (member : text ∈ normalizeValues values) : strip text = text ∧ text ≠ "" := by
  obtain ⟨⟨value,_,rfl⟩,solid⟩ := memNormalize.mp member
  exact ⟨stripIdem value,solid⟩

theorem directRead (found : selectRow row.id t = some row) :
    getMemory t row.id = .ok (some (hydrateRecord t row)) := by
  have there : t.has row.id := List.any_eq_true.mpr ⟨row,List.mem_of_find?_eq_some found,beq_self_eq_true _⟩
  unfold getMemory resolveMemoryId
  rw [if_pos there]
  exact congrArg (fun row => Except.ok (Option.map (hydrateRecord t) row)) found

theorem resolvedSource {texts resolved} (ran : resolveIds t texts = .ok resolved) {memoryId} (member : memoryId ∈ resolved) :
    ∃ text ∈ texts, resolveMemoryId t text = .ok (some memoryId) := by
  induction texts generalizing resolved with
  | nil =>
    cases ran
    cases member
  | cons text rest ih =>
    unfold resolveIds at ran
    cases here : resolveMemoryId t text with
    | error error =>
      rw [here] at ran
      cases ran
    | ok found =>
      cases below : resolveIds t rest with
      | error error =>
        rw [here,below] at ran
        cases ran
      | ok others =>
        rw [here,below] at ran
        cases ran
        rcases List.mem_append.mp member with first | later
        · exact ⟨text,List.mem_cons_self,here.trans (congrArg Except.ok (Option.mem_toList.mp first))⟩
        · obtain ⟨other,there,same⟩ := ih below later
          exact ⟨other,List.mem_cons_of_mem _ there,same⟩

/- A row that a query gives is one that it was asked for. -/
theorem selectSource {memoryIds filter rows} (selected : selectRows t memoryIds filter = .ok rows) (member : row ∈ rows) :
    selectRow row.id t = some row ∧ Named t row := by
  unfold selectRows at selected
  cases resolved : resolveIds t (normalizeValues memoryIds) with
  | error error =>
    rw [resolved] at selected
    cases selected
  | ok ids =>
    rw [resolved] at selected
    cases selected
    obtain ⟨memoryId,listed,found⟩ := List.mem_filterMap.mp member
    have found : selectRow memoryId t = some row := (Option.filter_eq_some_iff.mp found).1
    obtain rfl : row.id = memoryId := beq_iff_eq.mp (@findSome MemoryRow (fun row => row.id == memoryId) _ row found).2
    obtain ⟨text,asked,names⟩ := resolvedSource resolved listed
    exact ⟨found,text,(normalized asked).1,(normalized asked).2,names⟩

theorem selectUnique (unique : UniqueBy (·.id) t.memories) (member : row ∈ t.memories) : selectRow row.id t = some row := by
  unfold selectRow
  cases found : t.memories.find? (·.id == row.id) with
  | none => simpa using findNone found row member
  | some other => rw [equalOfKey unique (findSome found).1 member (beq_iff_eq.mp (findSome found).2)]

/- One memory asked for by a name of it. -/
theorem selectNamed (unique : UniqueBy (·.id) t.memories) (member : row ∈ t.memories) (named : Named t row) :
    ∃ text, selectRows t [text] ⟨none,true⟩ = .ok [row] := by
  obtain ⟨text,stripped,solid,names⟩ := named
  refine ⟨text,?_⟩
  have asked : normalizeValues [text] = [text] := by
    simp [normalizeValues,stripped,solid,List.eraseDups_cons]
  have resolved : resolveIds t [text] = .ok [row.id] := by
    unfold resolveIds
    rw [names]
    rfl
  unfold selectRows
  rw [asked,resolved]
  have found : (selectRow row.id t).filter (selects t ⟨none,true⟩) = some row := by
    rw [selectUnique unique member]
    rfl
  simp only [Except.map,List.filterMap_cons,List.filterMap_nil,found]

theorem agreesReadable (unique : UniqueBy (·.id) t.memories) (agrees : Agrees t) (member : row ∈ t.memories)
    (named : Named t row) : Readable t row := by
  obtain ⟨text,selected⟩ := selectNamed unique member named
  have ran : getSearchableMemories id t [text] ⟨none,true⟩ = .ok [searchableRecord id t row] := by
    unfold getSearchableMemories
    rw [selected]
    rfl
  obtain ⟨direct,read,alike⟩ := agrees.searchable id (fun _ => List.Perm.refl _) _ _ _ ran _ List.mem_cons_self
  have same := read.symm.trans (directRead (selectUnique unique member))
  cases same
  exact (searchableAlike fun _ => List.Perm.refl _).mp alike

theorem readPathsAgree (unique : UniqueBy (·.id) t.memories) :
    Agrees t ↔ ∀ row ∈ t.memories, Named t row → Readable t row := by
  constructor
  · exact fun agrees row member named => agreesReadable unique agrees member named
  · intro readable
    have reads : ∀ {memoryIds filter rows}, selectRows t memoryIds filter = .ok rows → ∀ row ∈ rows,
        getMemory t row.id = .ok (some (hydrateRecord t row)) ∧ Readable t row := by
      intro memoryIds filter rows selected row member
      obtain ⟨found,named⟩ := selectSource selected member
      exact ⟨directRead found,readable row (List.mem_of_find?_eq_some found) named⟩
    constructor
    · intro order arranges memoryIds filter records ran record member
      unfold getSearchableMemories at ran
      cases selected : selectRows t memoryIds filter with
      | error error =>
        rw [selected] at ran
        cases ran
      | ok rows =>
        rw [selected] at ran
        cases ran
        obtain ⟨row,there,rfl⟩ := List.mem_map.mp member
        exact ⟨_,(reads selected row there).1,(searchableAlike arranges).mpr (reads selected row there).2⟩
    · intro order arranges memoryIds filter candidates ran candidate member
      unfold getRankingCandidates at ran
      cases selected : selectRows t memoryIds filter with
      | error error =>
        rw [selected] at ran
        cases ran
      | ok rows =>
        rw [selected] at ran
        cases ran
        obtain ⟨row,there,rfl⟩ := List.mem_map.mp member
        exact ⟨⟨_,(reads selected row there).1,rankingAlike arranges (reads selected row there).2⟩,rankingCounted⟩

/- A memory with one tag, in its workspace. -/
def tagged (archivedAt : Option String) (tag : String) : Tables := { Memory.empty with
  memories := [⟨"m",some 1,"title","content",some "summary","fact","active","t0","t0",archivedAt,[]⟩]
  workspaces := [("m","w")]
  tags := [⟨1,tag⟩]
  tagSequence := 1
  memoryTags := [("m",1)] }

theorem readPathsAgreeSample : Agrees (tagged none "a b") := by
  refine (readPathsAgree (by decide)).mpr fun row member _ => ?_
  cases List.mem_singleton.mp member
  exact ⟨rfl,by unfold Clear; decide,by unfold Clear; decide⟩

/- The tag `a,b` is read as two, and the time of an archiving by one search alone. -/
theorem readPathsDiffer : ¬ Agrees (tagged none "a,b") ∧ ¬ Agrees (tagged (some "t1") "a b") := by
  have named : ∀ archivedAt tag, Named (tagged archivedAt tag) ⟨"m",some 1,"title","content",some "summary","fact","active",
      "t0","t0",archivedAt,[]⟩ := fun _ _ => ⟨"m",by decide,by decide,rfl⟩
  constructor
  · intro agrees
    have readable := agreesReadable (by decide) agrees List.mem_cons_self (named _ _)
    exact absurd (readable.tags _ List.mem_cons_self List.mem_cons_self).2 (by decide)
  · intro agrees
    cases (agreesReadable (by decide) agrees List.mem_cons_self (named _ _)).archivedAt

end McpMemory.Relational.Reading
