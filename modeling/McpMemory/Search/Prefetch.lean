import McpMemory.Relational.ReadPaths

/-! `integrations/searchkernel_record_pipeline.py`: the records and links that one search keeps at
hand. What a memory is ranked by comes from there, put in with its record and its links one by one
or with a whole set of candidates, whose links are known by their types only. -/
namespace McpMemory.Search
open Memory hiding hydrateRecord
open Table Text Transaction
open Curation (ActionError resolveMemoryId)
open Relational (normalizeValues)
open Relational.Reading (RankedMemoryCandidate getRankingCandidates rankingCandidate countedTypes incomingLinks hydrateRecord
  Alike Counted Clear)

structure PolicyContext where
  records : String → Option (Option MemoryRecord)
  links : String × Bool → Option (List MemoryLink)

def noneCached : PolicyContext := ⟨fun _ => none,fun _ => none⟩

def repositoryLinks (t : Tables) (memoryId : String) (incoming : Bool) : Except ActionError (List MemoryLink) :=
  (resolveMemoryId t memoryId).map fun resolved => match resolved with
    | none => []
    | some memoryId => (t.links.filter fun link =>
        (if incoming then link.targetId else link.sourceId) == memoryId).insertionSort fun a b =>
          a.sourceId < b.sourceId || a.sourceId == b.sourceId && a.targetId ≤ b.targetId

variable (order : List String → List String) (t : Tables)

def PolicyContext.getMemory (context : PolicyContext) (memoryId : String) :
    Except ActionError (PolicyContext × Option MemoryRecord) :=
  match context.records memoryId with
  | some found => .ok (context,found)
  | none => (Relational.Reading.getMemory t memoryId).map fun found =>
    ({ context with records := Function.update context.records memoryId (some found) },found)

/- The links are kept whole, and filtered for each reader. -/
def PolicyContext.getLinks (context : PolicyContext) (memoryId : String) (incoming : Bool) (linkType : Option String) :
    Except ActionError (PolicyContext × List MemoryLink) :=
  let wanted := fun links : List MemoryLink => links.filter fun link => linkType.all (· == link.linkType)
  match context.links (memoryId,incoming) with
  | some links => .ok (context,wanted links)
  | none => (repositoryLinks t memoryId incoming).map fun links =>
    ({ context with links := Function.update context.links (memoryId,incoming) (some links) },wanted links)

/- A candidate knows how many links of a type there are, and no more of them. -/
def rebuiltLinks (memoryId : String) (counts : List (String × Nat)) : List MemoryLink :=
  counts.flatMap fun entry => List.replicate entry.2 ⟨"",memoryId,entry.1,""⟩

def PolicyContext.put (context : PolicyContext) (memoryId : String) (record : Option MemoryRecord) (links : List MemoryLink) :
    PolicyContext :=
  ⟨Function.update context.records memoryId (some record),Function.update context.links (memoryId,true) (some links)⟩

def keepCandidate (candidates : List RankedMemoryCandidate) (context : PolicyContext) (memoryId : String) : PolicyContext :=
  match candidates.reverse.find? (·.record.id == memoryId) with
  | none => context.put memoryId none []
  | some candidate => context.put memoryId (some candidate.record) (rebuiltLinks memoryId candidate.incomingLinkTypeCounts)

def PolicyContext.misses (context : PolicyContext) (memoryId : String) : Bool :=
  (context.records memoryId).isNone || (context.links (memoryId,true)).isNone

def PolicyContext.prefetch (context : PolicyContext) (memoryIds : List String) : Except ActionError PolicyContext :=
  match memoryIds.eraseDups.filter context.misses with
  | [] => .ok context
  | missing => (getRankingCandidates order t missing ⟨none,true⟩).map fun candidates =>
    missing.foldl (keepCandidate candidates) context

def countTypes (links : List MemoryLink) : List (String × Nat) :=
  (links.map (·.linkType)).eraseDups.map fun linkType => (linkType,links.countP (·.linkType == linkType))

/- `counts.get(link_type, 0)`. -/
def countOf (counts : List (String × Nat)) (linkType : String) : Nat := (counts.lookup linkType).getD 0

def builtCandidate (record : MemoryRecord) (links : List MemoryLink) : RankedMemoryCandidate :=
  ⟨record,links.length,0 < countOf (countTypes links) "SUPERSEDES",countTypes links⟩

def PolicyContext.rankingCandidate (context : PolicyContext) (memoryId : String) :
    Except ActionError (PolicyContext × Option RankedMemoryCandidate) :=
  (context.prefetch order t [memoryId]).map fun context =>
    (context,(context.records memoryId).join.map fun record =>
      builtCandidate record ((context.links (memoryId,true)).getD []))

/- What a search may have asked for before, in any order. -/
inductive Use where
  | getMemory (memoryId : String)
  | getLinks (memoryId : String) (incoming : Bool) (linkType : Option String)
  | prefetch (memoryIds : List String)
  | rankingCandidate (memoryId : String)

/- What raises leaves the context as it was. -/
def PolicyContext.after (context : PolicyContext) (use : Use) : PolicyContext :=
  let done := match use with
    | .getMemory memoryId => (context.getMemory t memoryId).map Prod.fst
    | .getLinks memoryId incoming linkType => (context.getLinks t memoryId incoming linkType).map Prod.fst
    | .prefetch memoryIds => context.prefetch order t memoryIds
    | .rankingCandidate memoryId => (context.rankingCandidate order t memoryId).map Prod.fst
  done.toOption.getD context

def used (uses : List Use) : PolicyContext := uses.foldl (PolicyContext.after order t) noneCached

/- The tags and workspaces are sets, and a type that is not counted counts nothing. -/
structure Same (a b : RankedMemoryCandidate) : Prop where
  record : Alike a.record b.record
  count : a.incomingLinksCount = b.incomingLinksCount
  supersedes : a.hasIncomingSupersedes = b.hasIncomingSupersedes
  types : ∀ linkType, countOf a.incomingLinkTypeCounts linkType = countOf b.incomingLinkTypeCounts linkType

/- What is ranked, against what the repository has of the memory, alone or among others. -/
structure Agrees (cached : Except ActionError (Option RankedMemoryCandidate)) (memoryId : String) : Prop where
  answered : ∀ memoryIds candidates, memoryId ∈ memoryIds → getRankingCandidates order t memoryIds ⟨none,true⟩ = .ok candidates →
    ∃ found, cached = .ok found ∧ Option.Rel Same found (candidates.find? (·.record.id == memoryId))
  raised : ∀ error, getRankingCandidates order t [memoryId] ⟨none,true⟩ = .error error → cached = .error error

/- No matter what the search has at hand by then. -/
def Independent (memoryId : String) : Prop := ∀ order other, (∀ values, (order values).Perm values) →
  (∀ values, (other values).Perm values) → ∀ uses,
    Agrees other t (((used order t uses).rankingCandidate order t memoryId).map Prod.snd) memoryId

/- The search query finds the memory by its id, and has all there is of it. -/
structure Whole (row : MemoryRow) : Prop where
  offered : strip row.id ≠ "" ∧ resolveMemoryId t (strip row.id) = .ok (some row.id)
  counted : ∀ link ∈ t.links, link.targetId = row.id → link.linkType ∈ countedTypes
  workspaceIds : ∀ pair ∈ t.workspaces, pair.1 = row.id → Clear pair.2
  tags : ∀ tag ∈ t.tags, (row.id,tag.id) ∈ t.memoryTags → Clear tag.name

variable {order} {t} {other : List String → List String} {row : MemoryRow}

theorem incomingRead {memoryId : String} (there : t.has memoryId = true) : repositoryLinks t memoryId true =
    .ok ((incomingLinks t memoryId).insertionSort fun a b =>
      a.sourceId < b.sourceId || a.sourceId == b.sourceId && a.targetId ≤ b.targetId) := by
  unfold repositoryLinks resolveMemoryId
  rw [if_pos there]
  rfl

theorem countGraph {keys : List String} {count : String → Nat} (linkType : String) :
    countOf (keys.map fun key => (key,count key)) linkType = if linkType ∈ keys then count linkType else 0 := by
  unfold countOf
  split
  · rename_i member
    rw [List.lookup_graph count member]
    rfl
  · rename_i apart
    have none : (keys.map fun key => (key,count key)).lookup linkType = none := by
      refine List.lookup_eq_none_iff.mpr fun entry member => ?_
      obtain ⟨key,there,rfl⟩ := List.mem_map.mp member
      exact bne_iff_ne.mpr fun same => apart (same ▸ there)
    rw [none]
    rfl

theorem countedLinks {links : List MemoryLink} (linkType : String) :
    countOf (countTypes links) linkType = (links.map (·.linkType)).count linkType := by
  unfold countTypes
  rw [countGraph,List.count_eq_countP,List.countP_map]
  split
  · rfl
  · rename_i apart
    refine (List.countP_eq_zero.mpr fun link member same => apart ?_).symm
    exact List.mem_eraseDups.mpr (List.mem_map.mpr ⟨link,member,eq_of_beq same⟩)

theorem countSpread {keys : List String} (distinct : keys.Nodup) (count : String → Nat) (linkType : String) :
    (keys.flatMap fun key => List.replicate (count key) key).count linkType = if linkType ∈ keys then count linkType else 0 := by
  induction keys with
  | nil => rfl
  | cons key rest ih =>
    obtain ⟨apart,distinct⟩ := List.nodup_cons.mp distinct
    rw [List.flatMap_cons,List.count_append,ih distinct,List.count_replicate]
    by_cases same : key = linkType
    · subst same
      simp [apart]
    · have other : ¬ linkType = key := fun back => same back.symm
      simp [same,other]

/- The links that are rebuilt have the types that are counted. -/
theorem rebuiltTypes (memoryId : String) (links : List MemoryLink) :
    ((rebuiltLinks memoryId (countedTypes.map fun linkType =>
      (linkType,links.countP (·.linkType == linkType)))).map (·.linkType)).Perm
    ((links.filter fun link => countedTypes.contains link.linkType).map (·.linkType)) := by
  refine List.perm_iff_count.mpr fun linkType => ?_
  have spread : (rebuiltLinks memoryId (countedTypes.map fun linkType =>
      (linkType,links.countP (·.linkType == linkType)))).map (·.linkType) =
      countedTypes.flatMap fun linkType => List.replicate (links.countP (·.linkType == linkType)) linkType := by
    unfold rebuiltLinks
    rw [List.flatMap_map,List.map_flatMap]
    exact congrArg (List.flatMap · countedTypes) (funext fun linkType => List.map_replicate)
  rw [spread,countSpread (by decide),List.count_eq_countP,List.countP_map,List.countP_filter]
  split
  · rename_i member
    refine List.countP_congr fun link _ => ?_
    simp only [Function.comp,beq_iff_eq,Bool.and_eq_true,List.contains_iff_mem]
    exact ⟨fun same => ⟨same,same ▸ member⟩,And.left⟩
  · rename_i apart
    refine (List.countP_eq_zero.mpr fun link _ both => apart ?_).symm
    simp only [Function.comp,beq_iff_eq,Bool.and_eq_true,List.contains_iff_mem] at both
    exact both.1 ▸ both.2

theorem freshTypes : (rankingCandidate other t row).incomingLinkTypeCounts = countedTypes.map fun linkType =>
    (linkType,(incomingLinks t row.id).countP (·.linkType == linkType)) := Relational.Reading.rankingCounted.types

/- A record and links that a candidate may be made of. -/
theorem builtSame {record : MemoryRecord} {links : List MemoryLink} (whole : Whole t row)
    (alike : Alike record (rankingCandidate other t row).record)
    (types : (links.map (·.linkType)).Perm ((incomingLinks t row.id).map (·.linkType))) :
    Same (builtCandidate record links) (rankingCandidate other t row) := by
  have counts : ∀ linkType, countOf (countTypes links) linkType =
      countOf (rankingCandidate other t row).incomingLinkTypeCounts linkType := by
    intro linkType
    rw [countedLinks,types.count_eq,freshTypes,countGraph,List.count_eq_countP,List.countP_map]
    split
    · rfl
    · rename_i apart
      refine List.countP_eq_zero.mpr fun link member same => apart ?_
      obtain ⟨listed,target⟩ := List.mem_filter.mp member
      exact eq_of_beq same ▸ whole.counted link listed (eq_of_beq target)
  have length : links.length = (incomingLinks t row.id).length := by
    rw [← List.length_map (f := (·.linkType)),types.length_eq,List.length_map]
  have counted : Counted (incomingLinks t row.id) (rankingCandidate other t row) := Relational.Reading.rankingCounted
  refine ⟨alike,length.trans counted.count.symm,?_,counts⟩
  show decide (0 < countOf (countTypes links) "SUPERSEDES") = _
  rw [counted.supersedes,countedLinks,types.count_eq,Bool.eq_iff_iff,decide_eq_true_eq,List.count_pos_iff,
    List.any_eq_true,List.mem_map]
  exact exists_congr fun link => and_congr_right fun _ => beq_iff_eq.symm

theorem resolvedIn {texts resolved : List String} (ran : Relational.Reading.resolveIds t texts = .ok resolved) {text memoryId : String}
    (member : text ∈ texts) (read : resolveMemoryId t text = .ok (some memoryId)) : memoryId ∈ resolved := by
  induction texts generalizing resolved with
  | nil => cases member
  | cons first rest ih =>
    obtain ⟨here,own,ran⟩ := checkedOk.mp ran
    obtain ⟨others,below,last⟩ := checkedOk.mp ran
    cases last
    rcases List.mem_cons.mp member with rfl | member
    · cases own.symm.trans read
      exact List.mem_cons_self
    · exact List.mem_append_right _ (ih below member)

section
variable (unique : UniqueBy (·.id) t.memories) (member : row ∈ t.memories)
include unique member

/- A candidate with the id of the memory is its own, and where the query finds the memory it has it. -/
theorem candidateOf {memoryIds candidates} (ran : getRankingCandidates order t memoryIds ⟨none,true⟩ = .ok candidates)
    {candidate} (listed : candidate ∈ candidates) (named : candidate.record.id = row.id) :
    candidate = rankingCandidate order t row := by
  obtain ⟨rows,selected,rfl⟩ := mappedOk.mp ran
  obtain ⟨other,there,rfl⟩ := List.mem_map.mp listed
  have found := (Relational.Reading.selectSource selected there).1
  have named : other.id = row.id := named
  rw [named,Relational.Reading.selectUnique unique member] at found
  rw [Option.some.inj found]

theorem candidateIn (whole : strip row.id ≠ "" ∧ resolveMemoryId t (strip row.id) = .ok (some row.id)) {memoryIds candidates}
    (asked : row.id ∈ memoryIds) (ran : getRankingCandidates order t memoryIds ⟨none,true⟩ = .ok candidates) :
    rankingCandidate order t row ∈ candidates := by
  obtain ⟨rows,selected,rfl⟩ := mappedOk.mp ran
  obtain ⟨resolved,read,rfl⟩ := mappedOk.mp selected
  have there : strip row.id ∈ normalizeValues memoryIds := Relational.memNormalize.mpr ⟨⟨row.id,asked,rfl⟩,whole.1⟩
  refine List.mem_map_of_mem (List.mem_filterMap.mpr ⟨row.id,resolvedIn read there whole.2,?_⟩)
  rw [Relational.Reading.selectUnique unique member]
  rfl

theorem candidateFound (whole : strip row.id ≠ "" ∧ resolveMemoryId t (strip row.id) = .ok (some row.id)) {memoryIds candidates}
    (asked : row.id ∈ memoryIds) (ran : getRankingCandidates order t memoryIds ⟨none,true⟩ = .ok candidates) :
    candidates.find? (·.record.id == row.id) = some (rankingCandidate order t row) ∧
    candidates.reverse.find? (·.record.id == row.id) = some (rankingCandidate order t row) := by
  have listed := candidateIn unique member whole asked ran
  have only : ∀ candidate ∈ candidates, (candidate.record.id == row.id) = true → candidate = rankingCandidate order t row :=
    fun candidate there named => candidateOf unique member ran there (eq_of_beq named)
  exact ⟨findOnly listed (beq_self_eq_true _) only,findOnly (List.mem_reverse.mpr listed) (beq_self_eq_true _)
    fun candidate there => only candidate (List.mem_reverse.mp there)⟩

theorem candidateAlone (whole : strip row.id ≠ "" ∧ resolveMemoryId t (strip row.id) = .ok (some row.id)) :
    getRankingCandidates order t [row.id] ⟨none,true⟩ = .ok [rankingCandidate order t row] := by
  have asked : normalizeValues [row.id] = [strip row.id] := by
    simp [normalizeValues,whole.1,List.eraseDups_cons]
  have resolved : Relational.Reading.resolveIds t [strip row.id] = .ok [row.id] := by
    unfold Relational.Reading.resolveIds
    rw [whole.2]
    rfl
  have found : (selectRow row.id t).filter (Relational.Reading.selects t ⟨none,true⟩) = some row := by
    rw [Relational.Reading.selectUnique unique member]
    rfl
  unfold getRankingCandidates Relational.Reading.selectRows
  rw [asked,resolved]
  simp only [Except.map,List.filterMap_cons,List.filterMap_nil,found,List.map_cons,List.map_nil]

end

/- What a context holds of the memory, one by one or of a whole set, the candidate can be made of. -/
structure Holds (context : PolicyContext) (row : MemoryRow) (t : Tables) : Prop where
  records : ∀ found, context.records row.id = some found → ∃ record, found = some record ∧ Alike (hydrateRecord t row) record
  links : ∀ links, context.links (row.id,true) = some links →
    (links.map (·.linkType)).Perm ((incomingLinks t row.id).map (·.linkType))

theorem putOwn {context : PolicyContext} {memoryId : String} {record : Option MemoryRecord} {links : List MemoryLink} :
    (context.put memoryId record links).records memoryId = some record ∧
      (context.put memoryId record links).links (memoryId,true) = some links :=
  ⟨Function.update_self memoryId _ _,Function.update_self (memoryId,true) _ _⟩

theorem putOther {context : PolicyContext} {memoryId other : String} {record : Option MemoryRecord} {links : List MemoryLink}
    (apart : other ≠ memoryId) : (context.put memoryId record links).records other = context.records other ∧
      (context.put memoryId record links).links (other,true) = context.links (other,true) :=
  ⟨Function.update_of_ne apart _ _,Function.update_of_ne (fun same => apart (congrArg Prod.fst same)) _ _⟩

theorem alikeTrans {a b c : MemoryRecord} (first : Alike a b) (rest : Alike b c) : Alike a c :=
  ⟨first.row.trans rest.row,fun workspaceId => (first.workspaceIds workspaceId).trans (rest.workspaceIds workspaceId),
    fun tag => (first.tags tag).trans (rest.tags tag)⟩

theorem alikeSymm {a b : MemoryRecord} (alike : Alike a b) : Alike b a :=
  ⟨alike.row.symm,fun workspaceId => (alike.workspaceIds workspaceId).symm,fun tag => (alike.tags tag).symm⟩

theorem wholeAlike (arranges : ∀ values, (order values).Perm values) (whole : Whole t row) :
    Alike (hydrateRecord t row) (rankingCandidate order t row).record :=
  ⟨rfl,(Relational.Reading.workspacesAlike arranges).mpr whole.workspaceIds,
    (Relational.Reading.tagsAlike arranges).mpr whole.tags⟩

theorem wholeTypes (whole : Whole t row) :
    ((rebuiltLinks row.id (rankingCandidate order t row).incomingLinkTypeCounts).map (·.linkType)).Perm
      ((incomingLinks t row.id).map (·.linkType)) := by
  have all : (incomingLinks t row.id).filter (fun link => countedTypes.contains link.linkType) = incomingLinks t row.id := by
    refine List.filter_eq_self.mpr fun link member => List.contains_iff_mem.mpr ?_
    obtain ⟨listed,target⟩ := List.mem_filter.mp member
    exact whole.counted link listed (eq_of_beq target)
  have types := rebuiltTypes row.id (incomingLinks t row.id)
  rwa [all,← @freshTypes t order row] at types

section
variable (unique : UniqueBy (·.id) t.memories) (member : row ∈ t.memories) (whole : Whole t row)
  (arranges : ∀ values, (order values).Perm values) {context : PolicyContext}
include unique member whole arranges

theorem holdsPut {memoryIds candidates} (ran : getRankingCandidates order t memoryIds ⟨none,true⟩ = .ok candidates)
    {memoryId} (asked : memoryId ∈ memoryIds) (holds : Holds context row t) :
    Holds (keepCandidate candidates context memoryId) row t := by
  by_cases own : memoryId = row.id
  · subst own
    unfold keepCandidate
    rw [(candidateFound unique member whole.offered asked ran).2]
    refine ⟨fun found kept => ?_,fun links kept => ?_⟩
    · cases putOwn.1.symm.trans kept
      exact ⟨_,rfl,wholeAlike arranges whole⟩
    · cases putOwn.2.symm.trans kept
      exact wholeTypes whole
  · have apart : row.id ≠ memoryId := fun same => own same.symm
    have same : (keepCandidate candidates context memoryId).records row.id = context.records row.id ∧
        (keepCandidate candidates context memoryId).links (row.id,true) = context.links (row.id,true) := by
      unfold keepCandidate
      split <;> exact putOther apart
    exact ⟨fun found kept => holds.records found (same.1 ▸ kept),fun links kept => holds.links links (same.2 ▸ kept)⟩

theorem holdsPrefetch {memoryIds after} (ran : context.prefetch order t memoryIds = .ok after) (holds : Holds context row t) :
    Holds after row t := by
  unfold PolicyContext.prefetch at ran
  split at ran
  · cases ran
    exact holds
  · obtain ⟨candidates,read,rfl⟩ := mappedOk.mp ran
    exact List.foldlRecOn (motive := fun context => Holds context row t) _ _ holds
      fun context holds memoryId asked => holdsPut unique member whole arranges read asked holds

theorem holdsAfter {use : Use} (holds : Holds context row t) : Holds (context.after order t use) row t := by
  unfold PolicyContext.after
  cases use with
  | getMemory memoryId =>
    dsimp only
    unfold PolicyContext.getMemory
    cases kept : context.records memoryId with
    | some found => exact holds
    | none =>
      cases read : Relational.Reading.getMemory t memoryId with
      | error error => exact holds
      | ok found =>
        refine ⟨fun other there => ?_,holds.links⟩
        have there : Function.update context.records memoryId (some found) row.id = some other := there
        by_cases own : memoryId = row.id
        · subst own
          rw [Function.update_self] at there
          rw [Relational.Reading.directRead (Relational.Reading.selectUnique unique member)] at read
          cases there
          cases read
          exact ⟨_,rfl,⟨rfl,fun _ => Iff.rfl,fun _ => Iff.rfl⟩⟩
        · rw [Function.update_of_ne fun same => own same.symm] at there
          exact holds.records other there
  | getLinks memoryId incoming linkType =>
    dsimp only
    unfold PolicyContext.getLinks
    cases kept : context.links (memoryId,incoming) with
    | some links => exact holds
    | none =>
      cases read : repositoryLinks t memoryId incoming with
      | error error => exact holds
      | ok links =>
        refine ⟨holds.records,fun others there => ?_⟩
        have there : Function.update context.links (memoryId,incoming) (some links) (row.id,true) = some others := there
        by_cases own : (memoryId,incoming) = (row.id,true)
        · cases own
          rw [Function.update_self] at there
          cases there
          unfold repositoryLinks resolveMemoryId at read
          rw [if_pos (show t.has row.id = true from List.any_eq_true.mpr ⟨row,member,beq_self_eq_true row.id⟩)] at read
          cases read
          exact (List.perm_insertionSort _ _).map _
        · rw [Function.update_of_ne fun same => own same.symm] at there
          exact holds.links others there
  | prefetch memoryIds =>
    dsimp only
    cases ran : context.prefetch order t memoryIds with
    | error error => exact holds
    | ok after => exact holdsPrefetch unique member whole arranges ran holds
  | rankingCandidate memoryId =>
    dsimp only
    unfold PolicyContext.rankingCandidate
    cases ran : context.prefetch order t [memoryId] with
    | error error => exact holds
    | ok after => exact holdsPrefetch unique member whole arranges ran holds

theorem holdsUsed (uses : List Use) : Holds (used order t uses) row t :=
  List.foldlRecOn (motive := fun context => Holds context row t) _ _ ⟨nofun,nofun⟩
    fun _ holds _ _ => holdsAfter unique member whole arranges holds

end

/- Asked for the memory alone, a context that lacks it takes it from the query. -/
theorem prefetchOwn {context : PolicyContext} {memoryId : String} : context.prefetch order t [memoryId] =
    if context.misses memoryId then (getRankingCandidates order t [memoryId] ⟨none,true⟩).map fun candidates =>
      keepCandidate candidates context memoryId else .ok context := by
  have once : [memoryId].eraseDups = [memoryId] := by simp [List.eraseDups_cons]
  unfold PolicyContext.prefetch
  rw [once]
  cases lacking : context.misses memoryId with
  | true =>
    rw [List.filter_cons_of_pos lacking]
    rfl
  | false =>
    rw [List.filter_cons_of_neg (by rw [lacking]; decide)]
    rfl

theorem candidateBuilt {context : PolicyContext} {memoryId : String} {record : MemoryRecord} {links : List MemoryLink}
    (kept : context.records memoryId = some (some record)) (linked : context.links (memoryId,true) = some links) :
    (context.rankingCandidate order t memoryId).map Prod.snd = .ok (some (builtCandidate record links)) := by
  have here : context.prefetch order t [memoryId] = .ok context := by
    rw [prefetchOwn,if_neg]
    unfold PolicyContext.misses
    rw [kept,linked]
    exact Bool.false_ne_true
  unfold PolicyContext.rankingCandidate
  rw [here]
  simp only [Except.map,kept,linked,Option.join_some,Option.map_some,Option.getD_some]

section
variable (unique : UniqueBy (·.id) t.memories) (member : row ∈ t.memories)
include unique member

/- A context that lacks the memory makes the candidate of what the query counts. -/
theorem candidateFetched (offered : strip row.id ≠ "" ∧ resolveMemoryId t (strip row.id) = .ok (some row.id))
    {context : PolicyContext} (lacking : context.misses row.id = true) :
    (context.rankingCandidate order t row.id).map Prod.snd = .ok (some (builtCandidate (rankingCandidate order t row).record
      (rebuiltLinks row.id (rankingCandidate order t row).incomingLinkTypeCounts))) := by
  have alone : getRankingCandidates order t [row.id] ⟨none,true⟩ = .ok [rankingCandidate order t row] :=
    candidateAlone unique member offered
  have fetched : context.prefetch order t [row.id] = .ok (context.put row.id (some (rankingCandidate order t row).record)
      (rebuiltLinks row.id (rankingCandidate order t row).incomingLinkTypeCounts)) := by
    rw [prefetchOwn,if_pos lacking,alone]
    unfold keepCandidate
    simp only [Except.map]
    rw [(candidateFound unique member offered List.mem_cons_self alone).2]
  unfold PolicyContext.rankingCandidate
  rw [fetched]
  simp only [Except.map,putOwn.1,putOwn.2,Option.join_some,Option.map_some,Option.getD_some]

theorem wholeIndependent (whole : Whole t row) : Independent t row.id := by
  intro order other arranges ranges uses
  have holds := holdsUsed unique member whole arranges uses
  have answer : ∃ candidate, ((used order t uses).rankingCandidate order t row.id).map Prod.snd = .ok (some candidate) ∧
      Same candidate (rankingCandidate other t row) := by
    have fresh := wholeAlike ranges whole
    cases lacking : (used order t uses).misses row.id with
    | true =>
      exact ⟨_,candidateFetched unique member whole.offered lacking,
        builtSame whole (alikeTrans (alikeSymm (wholeAlike arranges whole)) fresh) (wholeTypes whole)⟩
    | false =>
      obtain ⟨noRecord,noLinks⟩ := Bool.or_eq_false_iff.mp lacking
      obtain ⟨found,kept⟩ := Option.isSome_iff_exists.mp (Option.isNone_eq_false_iff.mp noRecord)
      obtain ⟨links,linked⟩ := Option.isSome_iff_exists.mp (Option.isNone_eq_false_iff.mp noLinks)
      obtain ⟨record,rfl,alike⟩ := holds.records found kept
      exact ⟨_,candidateBuilt kept linked,builtSame whole (alikeTrans (alikeSymm alike) fresh) (holds.links links linked)⟩
  obtain ⟨candidate,ran,same⟩ := answer
  refine ⟨fun memoryIds candidates asked listed => ⟨_,ran,?_⟩,fun error failed => ?_⟩
  · rw [(candidateFound unique member whole.offered asked listed).1]
    exact .some same
  · rw [candidateAlone unique member whole.offered] at failed
    cases failed

/- A memory whose record and links were read first is ranked by them. -/
theorem candidateDirect : ((used order t [.getMemory row.id,.getLinks row.id true none]).rankingCandidate order t row.id).map Prod.snd =
    .ok (some (builtCandidate (hydrateRecord t row) ((incomingLinks t row.id).insertionSort fun a b =>
      a.sourceId < b.sourceId || a.sourceId == b.sourceId && a.targetId ≤ b.targetId))) := by
  have read := Relational.Reading.directRead (Relational.Reading.selectUnique unique member)
  have linked := incomingRead (show t.has row.id = true from List.any_eq_true.mpr ⟨row,member,beq_self_eq_true row.id⟩)
  have first : noneCached.after order t (.getMemory row.id) =
      { noneCached with records := Function.update noneCached.records row.id (some (some (hydrateRecord t row))) } := by
    unfold PolicyContext.after PolicyContext.getMemory
    dsimp only [noneCached]
    rw [read]
    rfl
  have second : used order t [.getMemory row.id,.getLinks row.id true none] =
      ⟨Function.update noneCached.records row.id (some (some (hydrateRecord t row))),
        Function.update noneCached.links (row.id,true) (some ((incomingLinks t row.id).insertionSort fun a b =>
          a.sourceId < b.sourceId || a.sourceId == b.sourceId && a.targetId ≤ b.targetId))⟩ := by
    unfold used
    rw [List.foldl_cons,first,List.foldl_cons,List.foldl_nil]
    unfold PolicyContext.after PolicyContext.getLinks
    dsimp only [noneCached]
    rw [linked]
    rfl
  rw [second]
  exact candidateBuilt (Function.update_self row.id _ _) (Function.update_self (row.id,true) _ _)

omit unique member in
theorem offeredFound {candidates : List RankedMemoryCandidate} (ran : getRankingCandidates order t [row.id] ⟨none,true⟩ = .ok candidates)
    {candidate : RankedMemoryCandidate} (listed : candidate ∈ candidates) (named : candidate.record.id = row.id) :
    strip row.id ≠ "" ∧ resolveMemoryId t (strip row.id) = .ok (some row.id) := by
  obtain ⟨rows,selected,rfl⟩ := mappedOk.mp ran
  obtain ⟨other,there,rfl⟩ := List.mem_map.mp listed
  obtain ⟨resolved,read,rfl⟩ := mappedOk.mp selected
  obtain ⟨memoryId,within,found⟩ := List.mem_filterMap.mp there
  have found : selectRow memoryId t = some other := (Option.filter_eq_some_iff.mp found).1
  have own : other.id = memoryId := beq_iff_eq.mp (@findSome MemoryRow (fun row => row.id == memoryId) _ other found).2
  obtain rfl : memoryId = row.id := own.symm.trans named
  obtain ⟨text,asked,names⟩ := Relational.Reading.resolvedSource read within
  obtain ⟨⟨value,only,rfl⟩,solid⟩ := Relational.memNormalize.mp asked
  obtain rfl := List.mem_singleton.mp only
  exact ⟨solid,names⟩

theorem independentWhole (independent : Independent t row.id) : Whole t row := by
  have still : ∀ values : List String, (id values).Perm values := fun _ => List.Perm.refl _
  have direct := independent id id still still [.getMemory row.id,.getLinks row.id true none]
  rw [candidateDirect unique member] at direct
  cases ran : getRankingCandidates id t [row.id] ⟨none,true⟩ with
  | error error => cases direct.raised error ran
  | ok candidates =>
    obtain ⟨found,same,related⟩ := direct.answered [row.id] candidates List.mem_cons_self ran
    cases same
    cases here : candidates.find? (·.record.id == row.id) with
    | none =>
      rw [here] at related
      cases related
    | some candidate =>
      rw [here] at related
      obtain ⟨same⟩ := related
      have listed := List.mem_of_find?_eq_some here
      have named : candidate.record.id = row.id := by simpa using List.find?_some here
      have own := candidateOf unique member ran listed named
      subst own
      have offered := offeredFound ran listed rfl
      have fetched := independent id id still still []
      rw [candidateFetched unique member offered rfl] at fetched
      obtain ⟨found,same',related⟩ := fetched.answered [row.id] candidates List.mem_cons_self ran
      cases same'
      rw [here] at related
      obtain ⟨rebuilt⟩ := related
      refine ⟨offered,fun link linked target => ?_,(Relational.Reading.workspacesAlike still).mp same.record.workspaceIds,
        (Relational.Reading.tagsAlike still).mp same.record.tags⟩
      have types := rebuiltTypes row.id (incomingLinks t row.id)
      have length : (rebuiltLinks row.id (rankingCandidate id t row).incomingLinkTypeCounts).length =
          (incomingLinks t row.id).length := rebuilt.count.trans Relational.Reading.rankingCounted.count
      have all := types.length_eq
      rw [← @freshTypes t id row,List.length_map,List.length_map,length] at all
      exact List.contains_iff_mem.mp (List.length_filter_eq_length_iff.mp all.symm link
        (List.mem_filter.mpr ⟨linked,beq_iff_eq.mpr target⟩))

end

/- What a memory is ranked by does not depend on what the search has at hand exactly where the query
finds it and has all of it. -/
theorem prefetchIndependent (unique : UniqueBy (·.id) t.memories) (member : row ∈ t.memories) :
    Independent t row.id ↔ Whole t row :=
  ⟨independentWhole unique member,wholeIndependent unique member⟩

/- A memory with a tag, to which another is linked. -/

def target : MemoryRow := ⟨"m",some 1,"title","content",some "summary","fact","active","t0","t0",none,[]⟩

def linked (linkType : String) : Tables := { Memory.empty with
  memories := [target,{ target with id := "n", memoryRef := some 2 }]
  workspaces := [("m","w"),("n","w")]
  tags := [⟨1,"a b"⟩]
  tagSequence := 1
  memoryTags := [("m",1)]
  links := [⟨"n","m",linkType,""⟩] }

theorem linkedWhole {linkType : String} (counted : linkType ∈ countedTypes) : Whole (linked linkType) target where
  offered := ⟨by decide,rfl⟩
  counted link member _ := by
    cases List.mem_singleton.mp member
    exact counted
  workspaceIds pair member _ := by
    rcases List.mem_cons.mp member with rfl | member
    · unfold Clear
      decide
    · cases List.mem_singleton.mp member
      unfold Clear
      decide
  tags tag member _ := by
    cases List.mem_singleton.mp member
    unfold Clear
    decide

theorem prefetchIndependentSample : Independent (linked "DEPENDS_ON") "m" :=
  (@prefetchIndependent (linked "DEPENDS_ON") target (by simp [UniqueBy,linked,target]) List.mem_cons_self).mpr (linkedWhole (by decide))

/- A link of another type is lost when the links are rebuilt. -/
theorem prefetchForgets : ¬ Independent (linked "RELATED_TO") "m" := by
  intro independent
  have whole : Whole (linked "RELATED_TO") target :=
    independentWhole (by simp [UniqueBy,linked,target]) List.mem_cons_self independent
  exact absurd (whole.counted _ List.mem_cons_self rfl) (by decide)

end McpMemory.Search
