import Mathlib.Logic.Function.Basic
import McpMemory.Memory.Rows

/-! The search documents beside the memories that they describe. A page is what the tables
hold of one memory; each statement turns one page at most. -/
namespace McpMemory.Memory
open Table Transaction

structure Page where
  rows : List MemoryRow
  documents : List SearchDocument
  tags : List String

def storedTags (t : Tables) (memoryId : String) : List String := t.tags.filterMap fun tag =>
  if t.memoryTags.contains (memoryId,tag.id) then some tag.name else none

def page (t : Tables) (memoryId : String) : Page := ⟨t.memories.filter (·.id == memoryId),
  t.searchDocuments.filter (·.memoryId == memoryId),storedTags t memoryId⟩

/- The tags are joined in some order. -/
structure Describes (row : MemoryRow) (tags : List String) (document : SearchDocument) : Prop where
  title : document.title = row.title
  summary : document.summary = row.summary.getD ""
  content : document.content = row.content
  tags : ∃ names, names.Perm tags ∧ document.tags = String.intercalate " " names

/- One document for the memory, and none where there is no memory. -/
inductive Synced : Page → Prop
  | absent (tags) : Synced ⟨[],[],tags⟩
  | described {row tags document} (describes : Describes row tags document) : Synced ⟨[row],[document],tags⟩

/- The tags are numbered in their order, named apart, and only such are given to a memory. -/
structure Labelled (t : Tables) : Prop where
  unique : UniqueBy (·.id) t.tags
  named : UniqueBy (·.name) t.tags
  numbered : ∀ tag ∈ t.tags, tag.id ≤ t.tagSequence
  tagged : ∀ pair ∈ t.memoryTags, ∃ tag ∈ t.tags, tag.id = pair.2

structure Indexed (t : Tables) : Prop where
  labelled : Labelled t
  synced : ∀ memoryId, Synced (page t memoryId)

theorem indexedEmpty : Indexed empty :=
  ⟨⟨List.nodup_nil,List.nodup_nil,fun _ member => (by cases member),fun _ member => (by cases member)⟩,fun _ => .absent []⟩

variable {t before middle after : Tables} {memoryId : String}

theorem storedSorted (row : MemoryRow) : (hydrateRecord t row).tags = sorted (storedTags t row.id) := rfl

theorem pageTurned (elsewhere : ∀ other, other ≠ memoryId → page after other = page before other) :
    page after = Function.update (page before) memoryId (page after memoryId) := by
  funext other
  by_cases here : other = memoryId
  · rw [here,Function.update_self]
  · rw [Function.update_of_ne here,elsewhere other here]

theorem pageTurnedTo {turned : Page} (elsewhere : ∀ other, other ≠ memoryId → page after other = page before other)
    (here : page after memoryId = turned) : page after = Function.update (page before) memoryId turned :=
  here ▸ pageTurned elsewhere

/- What a page needs of the tables. -/
theorem pageSame {other : String} (rows : after.memories.filter (·.id == other) = before.memories.filter (·.id == other))
    (documents : after.searchDocuments.filter (·.memoryId == other) =
      before.searchDocuments.filter (·.memoryId == other))
    (tags : storedTags after other = storedTags before other) : page after other = page before other := by
  simp only [page,rows,documents,tags]

theorem pageUpdateMemory {set : MemoryRow → MemoryRow} (same : ∀ row, (set row).id = row.id) :
    page { t with memories := update (·.id == memoryId) set t.memories } =
      Function.update (page t) memoryId { page t memoryId with rows := (page t memoryId).rows.map set } := by
  refine pageTurnedTo (fun other apart => pageSame (filterUpdate fun row _ hit => ?_) rfl rfl) ?_
  · rw [same,beq_iff_eq.mp hit]
    simpa using apart.symm
  · have rows := @filterUpdated _ (·.id == memoryId) set t.memories fun row => congrArg (· == memoryId) (same row)
    simp only [page,rows]
    rfl

theorem pageDeleteDocuments : page { t with searchDocuments := t.searchDocuments.filter (·.memoryId != memoryId) } =
    Function.update (page t) memoryId { page t memoryId with documents := [] } := by
  refine pageTurnedTo (fun other apart => pageSame rfl (filterOut fun document _ hit => ?_) rfl) ?_
  · rw [beq_iff_eq.mp hit]
    simpa using apart
  · simp [page,storedTags,List.filter_filter]

theorem pageInsertDocument {document : SearchDocument} :
    page { t with searchDocuments := t.searchDocuments ++ [document] } = Function.update (page t) document.memoryId
      { page t document.memoryId with documents := (page t document.memoryId).documents ++ [document] } := by
  refine pageTurnedTo (fun other apart => pageSame rfl ?_ rfl) ?_
  · simp [List.filter_append,apart.symm]
  · simp [page,storedTags,List.filter_append]

theorem pageInsertMemory {row : MemoryRow} : page { t with memories := t.memories ++ [row] } =
    Function.update (page t) row.id { page t row.id with rows := (page t row.id).rows ++ [row] } := by
  refine pageTurnedTo (fun other apart => pageSame ?_ rfl rfl) ?_
  · simp [List.filter_append,apart.symm]
  · simp [page,storedTags,List.filter_append]

theorem pageFresh (absent : t.has memoryId = false) : (page t memoryId).rows = [] := by
  simpa [page,Tables.has] using absent

theorem storedWithout {other : String} (apart : other ≠ memoryId) :
    storedTags { t with memoryTags := t.memoryTags.filter (·.1 != memoryId) } other = storedTags t other := by
  simp [storedTags,apart]

theorem storedNone : storedTags { t with memoryTags := t.memoryTags.filter (·.1 != memoryId) } memoryId = [] := by
  simp [storedTags]

theorem pageDeleteMemoryTags : page { t with memoryTags := t.memoryTags.filter (·.1 != memoryId) } =
    Function.update (page t) memoryId { page t memoryId with tags := [] } :=
  pageTurnedTo (fun _ apart => pageSame rfl rfl (storedWithout apart)) (by simp only [page,storedNone])

theorem pageDeleteMemory : page { t with
    memories := t.memories.filter (·.id != memoryId)
    workspaces := t.workspaces.filter (·.1 != memoryId)
    memoryTags := t.memoryTags.filter (·.1 != memoryId)
    links := t.links.filter (·.sourceId != memoryId) } =
    Function.update (page t) memoryId { page t memoryId with rows := [], tags := [] } := by
  refine pageTurnedTo (fun other apart => pageSame (filterOut fun row _ hit => ?_) rfl (storedWithout apart)) ?_
  · rw [beq_iff_eq.mp hit]
    simpa using apart
  · simp [page,storedTags,List.filter_filter]

/- A tag that comes is not given to any memory yet. -/
theorem pageInsertTag (labelled : Labelled t) {name : String} :
    page { t with tags := t.tags ++ [⟨t.tagSequence + 1,name⟩], tagSequence := t.tagSequence + 1 } = page t := by
  funext other
  refine pageSame rfl rfl ?_
  have fresh : t.memoryTags.contains (other,t.tagSequence + 1) = false := by
    refine Bool.eq_false_iff.mpr fun worn => ?_
    obtain ⟨tag,there,same⟩ := labelled.tagged _ (List.contains_iff_mem.mp worn)
    have := labelled.numbered tag there
    dsimp only at same
    omega
  simp only [storedTags,List.filterMap_append,List.filterMap_cons,fresh]
  simp

theorem storedInsert (labelled : Labelled t) {tag : Tag} (there : tag ∈ t.tags)
    (fresh : t.memoryTags.contains (memoryId,tag.id) = false) :
    (storedTags { t with memoryTags := t.memoryTags ++ [(memoryId,tag.id)] } memoryId).Perm
      (tag.name :: storedTags t memoryId) := by
  obtain ⟨first,last,split⟩ := List.append_of_mem there
  have unique := labelled.unique
  unfold UniqueBy at unique
  rw [split,List.map_append,List.map_cons,List.nodup_middle,List.nodup_cons] at unique
  have apart : ∀ other ∈ first ++ last, other.id ≠ tag.id := fun other member same =>
    unique.1 (List.map_append ▸ List.mem_map.mpr ⟨other,member,same⟩)
  have same : ∀ tags : List Tag, (∀ other ∈ tags, other.id ≠ tag.id) → tags.filterMap (fun other =>
      if (t.memoryTags ++ [(memoryId,tag.id)]).contains (memoryId,other.id) then some other.name else none) =
      tags.filterMap fun other => if t.memoryTags.contains (memoryId,other.id) then some other.name else none := by
    intro tags apart
    refine List.filterMap_congr fun other member => ?_
    have missed := apart other member
    simp [missed]
  simp only [storedTags,split,List.filterMap_append,List.filterMap_cons,fresh]
  rw [same first fun other member => apart other (List.mem_append_left _ member),
    same last fun other member => apart other (List.mem_append_right _ member)]
  simp

theorem labelledInsertTag (labelled : Labelled t) {name : String} (fresh : ∀ tag ∈ t.tags, tag.name ≠ name) :
    Labelled { t with tags := t.tags ++ [⟨t.tagSequence + 1,name⟩], tagSequence := t.tagSequence + 1 } where
  unique := insertUnique (fun tag member => by have := labelled.numbered tag member; dsimp only; omega) labelled.unique
  named := insertUnique fresh labelled.named
  numbered tag member := by
    rcases List.mem_append.mp member with old | new
    · have := labelled.numbered tag old
      dsimp only
      omega
    · cases List.mem_singleton.mp new
      exact le_refl _
  tagged pair member := by
    obtain ⟨tag,there,same⟩ := labelled.tagged pair member
    exact ⟨tag,List.mem_append_left _ there,same⟩

theorem insertedTag (labelled : Labelled before) {name : String} (ran : insertTag name before = .ok ((),after)) :
    Labelled after ∧ page after = page before ∧ ∃ tagId, selectTagId name after = some tagId := by
  cases ran
  dsimp only
  split
  · rename_i there
    obtain ⟨tag,found⟩ := Option.isSome_iff_exists.mp (List.find?_isSome.mpr (List.any_eq_true.mp there))
    exact ⟨labelled,rfl,tag.id,by rw [selectTagId,found]; rfl⟩
  · rename_i absent
    have missed : before.tags.find? (·.name == name) = none := by simpa using absent
    exact ⟨labelledInsertTag labelled (by simpa using absent),pageInsertTag labelled,before.tagSequence + 1,by
      simp [selectTagId,List.find?_append,missed]⟩

theorem givenTag (labelled : Labelled before) {name : String} {tagId : Int} (found : selectTagId name before = some tagId)
    (ran : insertMemoryTag memoryId tagId before = .ok ((),after)) : Labelled after ∧
      ∃ tags, tags.Perm (name :: (page before memoryId).tags) ∧
        page after = Function.update (page before) memoryId { page before memoryId with tags := tags } := by
  obtain ⟨tag,first,same⟩ := Option.map_eq_some_iff.mp found
  obtain ⟨there,named⟩ := findSome first
  subst same
  unfold insertMemoryTag at ran
  repeat' split at ran
  all_goals first | cases ran; done | skip
  rename_i fresh _
  cases ran
  have fresh := Bool.eq_false_iff.mpr fresh
  have given := storedInsert labelled there fresh
  rw [beq_iff_eq.mp named] at given
  refine ⟨⟨labelled.unique,labelled.named,labelled.numbered,fun pair member => ?_⟩,_,given,pageTurnedTo (fun other apart =>
    pageSame rfl rfl ?_) rfl⟩
  · rcases List.mem_append.mp member with old | new
    · exact labelled.tagged pair old
    · cases List.mem_singleton.mp new
      exact ⟨tag,there,rfl⟩
  · simp [storedTags,apart]

theorem labelledFewer (labelled : Labelled before) (tags : after.tags = before.tags)
    (sequence : after.tagSequence = before.tagSequence) (fewer : after.memoryTags ⊆ before.memoryTags) :
    Labelled after :=
  ⟨tags ▸ labelled.unique,tags ▸ labelled.named,by rw [tags,sequence]; exact labelled.numbered,fun pair member => by
    rw [tags]
    exact labelled.tagged pair (fewer member)⟩

/- Where a memory is found, its page has the row. -/
theorem pageRecord {record : MemoryRecord} (found : recordById memoryId t = some record) :
    (page t memoryId).rows.head? = some record.toMemoryRow ∧ record.tags = sorted (page t memoryId).tags := by
  obtain ⟨row,selected,same⟩ := Option.map_eq_some_iff.mp found
  have named : row.id = memoryId := by simpa using List.find?_some selected
  subst same
  refine ⟨?_,by rw [storedSorted,named]; rfl⟩
  simp only [page,List.head?_filter]
  exact selected

theorem syncedRow {p : Page} {row : MemoryRow} (synced : Synced p) (first : p.rows.head? = some row) :
    p.rows = [row] := by
  cases synced with
  | absent tags => cases first
  | described describes =>
    cases first
    rfl

/- Changes of many pages at once. -/

theorem indexedNotes (indexed : Indexed before) (notes : Notes before after) : Indexed after := by
  refine ⟨labelledFewer indexed.labelled notes.tags notes.sequence fun _ member => notes.memoryTags ▸ member,
    fun memoryId => ?_⟩
  have same : page after memoryId = page before memoryId := pageSame (by rw [notes.memories])
    (by rw [notes.searchDocuments]) (by simp only [storedTags,notes.tags,notes.memoryTags])
  exact same ▸ indexed.synced memoryId

/- What a document does not tell of a row may change. -/
theorem indexedRows {set : MemoryRow → MemoryRow} (indexed : Indexed t) (same : ∀ row, (set row).id = row.id ∧
    (set row).title = row.title ∧ (set row).summary = row.summary ∧ (set row).content = row.content) (sel : MemoryRow → Bool) :
    Indexed { t with memories := update sel set t.memories } := by
  refine ⟨labelledFewer indexed.labelled rfl rfl fun _ => id,fun memoryId => ?_⟩
  have rows : (update sel set t.memories).filter (·.id == memoryId) =
      update sel set (t.memories.filter (·.id == memoryId)) := by
    simp only [update,List.filter_map]
    refine congrArg _ (List.filter_congr fun row _ => ?_)
    simp only [Function.comp]
    split
    · rw [(same row).1]
    · rfl
  have synced := indexed.synced memoryId
  generalize here : page t memoryId = p at synced
  have turned : page { t with memories := update sel set t.memories } memoryId =
      { p with rows := update sel set p.rows } := by
    simp only [page,rows,← here]
    rfl
  rw [turned]
  cases synced with
  | absent tags => exact .absent tags
  | @described row tags document describes =>
    refine @Synced.described (if sel row then set row else row) tags document ?_
    split
    · obtain ⟨_,title,summary,content⟩ := same row
      exact ⟨describes.title.trans title.symm,by rw [summary]; exact describes.summary,
        describes.content.trans content.symm,describes.tags⟩
    · exact describes

theorem indexedDrop (indexed : Indexed t) (memoryId : String) {workspaces links} : Indexed { t with
    memories := t.memories.filter (·.id != memoryId)
    workspaces := workspaces
    memoryTags := t.memoryTags.filter (·.1 != memoryId)
    links := links
    searchDocuments := t.searchDocuments.filter (·.memoryId != memoryId) } := by
  refine ⟨labelledFewer indexed.labelled rfl rfl (List.filter_subset_self _),fun other => ?_⟩
  by_cases here : other = memoryId
  · subst here
    have empty : (t.memories.filter (·.id != other)).filter (·.id == other) = [] ∧
        (t.searchDocuments.filter (·.memoryId != other)).filter (·.memoryId == other) = [] := by
      simp [List.filter_filter]
    simp only [page,empty.1,empty.2]
    exact .absent _
  · have same := indexed.synced other
    have rows : (t.memories.filter (·.id != memoryId)).filter (·.id == other) = t.memories.filter (·.id == other) :=
      filterOut fun row _ hit => by rw [beq_iff_eq.mp hit]; simpa using here
    have documents : (t.searchDocuments.filter (·.memoryId != memoryId)).filter (·.memoryId == other) =
        t.searchDocuments.filter (·.memoryId == other) :=
      filterOut fun document _ hit => by rw [beq_iff_eq.mp hit]; simpa using here
    have tags := @storedWithout t _ _ here
    simp only [page,storedTags,rows,documents] at same tags ⊢
    rw [tags]
    exact same

/- `rebuild_memories_fts`; the order in which GROUP_CONCAT takes the tags is open. -/
def rebuildMemoriesFts (t : Tables) : List SearchDocument := t.memories.map fun row =>
  ⟨row.id,row.title,row.summary.getD "",row.content,String.intercalate "," (storedTags t row.id).dedup⟩

/- Up to the separator and the order of the tags. -/
structure Alike (document rebuilt : SearchDocument) : Prop where
  memoryId : document.memoryId = rebuilt.memoryId
  title : document.title = rebuilt.title
  summary : document.summary = rebuilt.summary
  content : document.content = rebuilt.content
  tags : ∃ names other : List String, names.Perm other ∧ document.tags = String.intercalate " " names ∧
    rebuilt.tags = String.intercalate "," other

theorem storedDistinct (labelled : Labelled t) (memoryId : String) : (storedTags t memoryId).Nodup := by
  have names : (storedTags t memoryId).Sublist (t.tags.map (·.name)) := by
    unfold storedTags
    induction t.tags with
    | nil => exact .slnil
    | cons tag rest ih =>
      rw [List.filterMap_cons,List.map_cons]
      split
      · exact ih.cons _
      · rename_i name given
        split at given <;> cases given
        exact ih.cons_cons _
  exact labelled.named.sublist names

theorem nodupParts {ρ : Type} {key : ρ → String} {rows : List ρ}
    (once : ∀ k, (rows.filter (key · == k)).length ≤ 1) : (rows.map key).Nodup := by
  refine List.nodup_iff_count.mpr fun k => ?_
  rw [List.count,List.countP_map,List.countP_eq_length_filter]
  exact once k

theorem describedRow (indexed : Indexed t) {row : MemoryRow} (member : row ∈ t.memories) : ∃ document,
    (page t row.id).rows = [row] ∧ (page t row.id).documents = [document] ∧
      Describes row (storedTags t row.id) document := by
  have there : row ∈ (page t row.id).rows := List.mem_filter.mpr ⟨member,beq_self_eq_true _⟩
  have synced := indexed.synced row.id
  have tags : (page t row.id).tags = storedTags t row.id := rfl
  rw [← tags]
  generalize page t row.id = p at there synced
  cases synced with
  | absent tags => cases there
  | described describes =>
    cases List.mem_singleton.mp there
    exact ⟨_,rfl,rfl,describes⟩

theorem documentOwned (indexed : Indexed t) {document : SearchDocument} (member : document ∈ t.searchDocuments) :
    ∃ row ∈ t.memories, row.id = document.memoryId := by
  have there : document ∈ (page t document.memoryId).documents := List.mem_filter.mpr ⟨member,beq_self_eq_true _⟩
  have synced := indexed.synced document.memoryId
  have rows : (page t document.memoryId).rows = t.memories.filter (·.id == document.memoryId) := rfl
  generalize page t document.memoryId = p at there synced rows
  cases synced with
  | absent tags => cases there
  | @described row tags found describes =>
    have listed : row ∈ t.memories.filter (·.id == document.memoryId) := by
      rw [← rows]
      exact List.mem_singleton_self row
    obtain ⟨present,named⟩ := List.mem_filter.mp listed
    exact ⟨row,present,by simpa using named⟩

/- The index is what a rebuild would make of it. -/
theorem indexedRebuilt (indexed : Indexed t) :
    ∃ documents, documents.Perm t.searchDocuments ∧ List.Forall₂ Alike documents (rebuildMemoriesFts t) := by
  have once : ∀ memoryId, (page t memoryId).rows.length ≤ 1 ∧ (page t memoryId).documents.length ≤ 1 := by
    intro memoryId
    have synced := indexed.synced memoryId
    generalize page t memoryId = p at synced
    cases synced <;> simp
  have rows : (t.memories.map (·.id)).Nodup := nodupParts fun memoryId => (once memoryId).1
  have documents : t.searchDocuments.Nodup := (nodupParts fun memoryId => (once memoryId).2).of_map (·.memoryId)
  have listed : ∀ memories : List MemoryRow, (∀ row ∈ memories, row ∈ t.memories) →
      (memories.flatMap fun row => (page t row.id).documents).map (·.memoryId) = memories.map (·.id) ∧
        List.Forall₂ Alike (memories.flatMap fun row => (page t row.id).documents)
          (memories.map fun row => ⟨row.id,row.title,row.summary.getD "",row.content,
            String.intercalate "," (storedTags t row.id).dedup⟩) := by
    intro memories within
    induction memories with
    | nil => exact ⟨rfl,.nil⟩
    | cons row rest ih =>
      obtain ⟨ids,all⟩ := ih fun other member => within other (List.mem_cons_of_mem _ member)
      obtain ⟨document,_,found,describes⟩ := describedRow indexed (within row List.mem_cons_self)
      have named : document.memoryId = row.id := by
        have member : document ∈ (page t row.id).documents := found ▸ List.mem_singleton_self document
        simpa using (List.mem_filter.mp member).2
      have distinct := (storedDistinct indexed.labelled row.id).dedup
      obtain ⟨names,joined,tags⟩ := describes.tags
      rw [List.flatMap_cons,List.map_cons,List.map_cons,found]
      refine ⟨by rw [List.singleton_append,List.map_cons,ids,named],.cons ⟨named,describes.title,describes.summary,
        describes.content,names,_,?_,tags,rfl⟩ all⟩
      rw [distinct]
      exact joined
  obtain ⟨ids,all⟩ := listed t.memories fun _ => id
  refine ⟨_,(List.perm_ext_iff_of_nodup (List.Nodup.of_map (·.memoryId) (ids ▸ rows)) documents).mpr
    fun document => ?_,all⟩
  constructor
  · intro member
    obtain ⟨row,_,found⟩ := List.mem_flatMap.mp member
    exact (List.mem_filter.mp found).1
  · intro member
    obtain ⟨row,present,named⟩ := documentOwned indexed member
    exact List.mem_flatMap.mpr ⟨row,present,List.mem_filter.mpr ⟨member,by simp [named]⟩⟩

/- Programs on one page. What returns takes the page of a memory from one state to the other,
and leaves every other page. -/

variable {σ ε α β : Type} (port : Port σ ε)

def Turns (memoryId : String) (start : Page → Prop) (x : Tx σ ε α) (finish : α → Page → Prop) : Prop :=
  ∀ oracle session a after, x oracle session = (.ok a,after) → Labelled (port.tables session.data) →
    start (page (port.tables session.data) memoryId) →
    Labelled (port.tables after.data) ∧ finish a (page (port.tables after.data) memoryId) ∧
      ∀ other, other ≠ memoryId → page (port.tables after.data) other = page (port.tables session.data) other

section
variable {port} {p : Page} {start middle : Page → Prop} {finish : α → Page → Prop}

theorem turnsPure {a : α} (holds : ∀ p, start p → finish a p) : Turns port memoryId start (pure a) finish := by
  intro oracle session b after run labelled begun
  obtain ⟨rfl,rfl⟩ := pureOk.mp run
  exact ⟨labelled,holds _ begun,fun _ _ => rfl⟩

theorem turnsRaise {error : ε} : Turns port memoryId start (raise error) finish :=
  fun _ _ _ _ run => absurd run raiseOk

theorem turnsBind {x : Tx σ ε β} {next : β → Tx σ ε α} {between : β → Page → Prop}
    (first : Turns port memoryId start x between) (rest : ∀ b, Turns port memoryId (between b) (next b) finish) :
    Turns port memoryId start (x >>= next) finish := by
  intro oracle session a after run labelled begun
  obtain ⟨b,middle,here,there⟩ := bindOk.mp run
  obtain ⟨kept,reached,others⟩ := first _ _ _ _ here labelled begun
  obtain ⟨last,ended,rest⟩ := rest b _ _ _ _ there kept reached
  exact ⟨last,ended,fun other apart => (rest other apart).trans (others other apart)⟩

theorem turnsLift {value : Except ε α} : Turns port memoryId start (lift value) fun a p => start p ∧ value = .ok a := by
  intro oracle session a after run labelled begun
  obtain ⟨given,rfl⟩ := liftOk.mp run
  exact ⟨labelled,⟨begun,given⟩,fun _ _ => rfl⟩

/- A step that does not reach the tables. -/
theorem turnsKeeps {x : Tx σ ε α} (kept : Keeps port.tables x) : Turns port memoryId start x fun _ => start := by
  intro oracle session a after run labelled begun
  have same := kept.ok run
  rw [same]
  exact ⟨labelled,begun,fun _ _ => rfl⟩

theorem turnsMono {x : Tx σ ε α} {weaker : α → Page → Prop} (turns : Turns port memoryId start x finish)
    (more : ∀ a p, finish a p → weaker a p) : Turns port memoryId start x weaker := by
  intro oracle session a after run labelled begun
  obtain ⟨kept,reached,others⟩ := turns _ _ _ _ run labelled begun
  exact ⟨kept,more _ _ reached,others⟩

theorem turnsFrom {x : Tx σ ε α} (each : ∀ p, start p → Turns port memoryId (· = p) x finish) :
    Turns port memoryId start x finish :=
  fun oracle session a after run labelled begun => each _ begun oracle session a after run labelled rfl

/- A memory that is in step with its document before and after leaves all of them so. -/
theorem turnsIndexed {x : Tx σ ε α} (turns : Turns port memoryId Synced x fun _ => Synced) {oracle session a after}
    (run : x oracle session = (.ok a,after)) (indexed : Indexed (port.tables session.data)) :
    Indexed (port.tables after.data) := by
  obtain ⟨labelled,synced,others⟩ := turns _ _ _ _ run indexed.labelled (indexed.synced memoryId)
  refine ⟨labelled,fun other => ?_⟩
  by_cases here : other = memoryId
  · rw [here]
    exact synced
  · rw [others other here]
    exact indexed.synced other

variable (lawful : ∀ after work, port.tables (port.put after work) = after)
include lawful

theorem onTablesRan {sql : Statement α} {oracle session a after}
    (run : onTables port sql oracle session = (.ok a,after)) :
    sql (port.tables session.data) = .ok (a,port.tables after.data) := by
  obtain ⟨changed,ran,same⟩ := onTablesOk run
  rw [same,lawful]
  exact ran

/- A statement that turns the page as given. -/
theorem turnsStatement {sql : Statement α}
    (turned : ∀ t a after, sql t = .ok (a,after) → Labelled t → start (page t memoryId) → Labelled after ∧
      ∃ q, finish a q ∧ page after = Function.update (page t) memoryId q) :
    Turns port memoryId start (onTables port sql) finish := by
  intro oracle session a after run labelled begun
  obtain ⟨kept,q,reached,same⟩ := turned _ _ _ (onTablesRan lawful run) labelled begun
  refine ⟨kept,?_,fun other apart => ?_⟩
  · rw [same,Function.update_self]
    exact reached
  · rw [same,Function.update_of_ne apart]

theorem turnsRead (query : Tables → α) : Turns port memoryId (· = p) (onTables port (read query)) fun a q =>
    q = p ∧ ∃ t, page t memoryId = p ∧ a = query t :=
  turnsStatement lawful fun t a after ran labelled begun => by
    cases ran
    exact ⟨labelled,p,⟨rfl,t,begun,rfl⟩,by rw [← begun,Function.update_eq_self]⟩

theorem turnsUpdateMemory {set : MemoryRow → MemoryRow} (same : ∀ row, (set row).id = row.id) :
    Turns port memoryId (· = p) (onTables port (updateMemory memoryId set)) fun _ q =>
      q = { p with rows := p.rows.map set } :=
  turnsStatement lawful fun t a after ran labelled begun => by
    cases ran
    exact ⟨labelledFewer labelled rfl rfl fun _ => id,_,rfl,begun ▸ pageUpdateMemory same⟩

theorem turnsInsertMemory {row : MemoryRow} (named : row.id = memoryId) :
    Turns port memoryId (· = p) (onTables port (insertMemory row)) fun _ q => p.rows = [] ∧ q = { p with rows := [row] } :=
  turnsStatement lawful fun t a after ran labelled begun => by
    subst named
    unfold insertMemory at ran
    repeat' split at ran
    all_goals first | cases ran; done | skip
    rename_i absent _
    cases ran
    have fresh := pageFresh (Bool.eq_false_iff.mpr absent)
    refine ⟨labelledFewer labelled rfl rfl fun _ => id,_,⟨begun ▸ fresh,rfl⟩,?_⟩
    rw [pageInsertMemory,fresh,begun]
    rfl

theorem turnsDeleteMemory : Turns port memoryId (· = p) (onTables port (deleteMemory memoryId)) fun _ q =>
    q = { p with rows := [], tags := [] } :=
  turnsStatement lawful fun t a after ran labelled begun => by
    cases ran
    exact ⟨labelledFewer labelled rfl rfl (List.filter_subset_self _),_,rfl,begun ▸ pageDeleteMemory⟩

theorem turnsDeleteDocuments : Turns port memoryId (· = p) (onTables port (deleteSearchDocuments memoryId)) fun _ q =>
    q = { p with documents := [] } :=
  turnsStatement lawful fun t a after ran labelled begun => by
    cases ran
    exact ⟨labelledFewer labelled rfl rfl fun _ => id,_,rfl,begun ▸ pageDeleteDocuments⟩

theorem turnsInsertDocument {document : SearchDocument} (named : document.memoryId = memoryId) :
    Turns port memoryId (· = p) (onTables port (insertSearchDocument document)) fun _ q =>
      q = { p with documents := p.documents ++ [document] } :=
  turnsStatement lawful fun t a after ran labelled begun => by
    subst named
    cases ran
    exact ⟨labelledFewer labelled rfl rfl fun _ => id,_,rfl,begun ▸ pageInsertDocument⟩

theorem turnsDeleteMemoryTags : Turns port memoryId (· = p) (onTables port (deleteMemoryTags memoryId)) fun _ q =>
    q = { p with tags := [] } :=
  turnsStatement lawful fun t a after ran labelled begun => by
    cases ran
    exact ⟨labelledFewer labelled rfl rfl (List.filter_subset_self _),_,rfl,begun ▸ pageDeleteMemoryTags⟩

/- A tag that is named is there by then. -/
theorem turnsGiveTag {name : String} {next : Option Int → Tx σ ε Unit}
    (given : ∀ tagId, next (some tagId) = onTables port (insertMemoryTag memoryId tagId)) :
    Turns port memoryId (· = p) (do
      onTables port (insertTag name)
      next (← onTables port (read (selectTagId name)))) fun _ q =>
        ∃ tags, tags.Perm (name :: p.tags) ∧ q = { p with tags := tags } := by
  intro oracle session u after run labelled begun
  obtain ⟨_,inserted,first,run⟩ := bindOk.mp run
  obtain ⟨tagId,looked,second,run⟩ := bindOk.mp run
  obtain ⟨kept,pages,found,there⟩ := insertedTag labelled (onTablesRan lawful first)
  obtain ⟨same,still⟩ : selectTagId name (port.tables inserted.data) = tagId ∧
      port.tables inserted.data = port.tables looked.data := by
    have read := onTablesRan lawful second
    simpa [Memory.read] using read
  rw [there] at same
  rw [still] at kept pages there
  subst same
  rw [given] at run
  obtain ⟨last,tags,named,turned⟩ := givenTag kept there (onTablesRan lawful run)
  rw [pages,begun] at named
  refine ⟨last,⟨tags,named,?_⟩,fun other apart => ?_⟩
  · rw [turned,Function.update_self,pages,begun]
  · rw [turned,Function.update_of_ne apart,pages]

theorem keepsRead (query : Tables → α) : Keeps port.tables (onTables port (read query)) :=
  keepsStatement fun data a after taken => by cases taken; exact lawful _ _

omit lawful in
theorem turnsEachTag {action : String → Tx σ ε Unit} (given : ∀ p name, Turns port memoryId (· = p) (action name) fun _ q =>
    ∃ tags, tags.Perm (name :: p.tags) ∧ q = { p with tags := tags }) (names : List String) :
    Turns port memoryId (· = p) (each action names) fun _ q =>
      ∃ tags, tags.Perm (names ++ p.tags) ∧ q = { p with tags := tags } := by
  induction names generalizing p with
  | nil => exact turnsPure fun q same => ⟨p.tags,.refl _,same⟩
  | cons name rest ih =>
    refine turnsBind (given p name) fun _ => turnsFrom fun q reached => turnsMono ih fun _ last ended => ?_
    obtain ⟨first,named,rfl⟩ := reached
    obtain ⟨tags,others,same⟩ := ended
    exact ⟨tags,others.trans ((named.append_left rest).trans List.perm_middle),same⟩

theorem turnsReplaceTags (names : List String) : Turns port memoryId (· = p) (replaceTags port memoryId names)
    fun _ q => ∃ tags, tags.Perm names ∧ q = { p with tags := tags } := by
  refine turnsBind (turnsDeleteMemoryTags lawful) fun _ => turnsFrom fun q same => turnsMono
    (turnsEachTag (fun _ name => turnsGiveTag lawful fun _ => rfl) names) fun _ last reached => ?_
  obtain ⟨tags,named,ended⟩ := reached
  subst same
  exact ⟨tags,by simpa using named,ended⟩

/- A statement beside memories, documents and tags. -/
theorem turnsBeside {sql : Statement α} (beside : ∀ t a after, sql t = .ok (a,after) → after.memories = t.memories ∧
    after.searchDocuments = t.searchDocuments ∧ after.tags = t.tags ∧ after.tagSequence = t.tagSequence ∧
    after.memoryTags = t.memoryTags) : Turns port memoryId start (onTables port sql) fun _ => start :=
  turnsStatement lawful fun t a after ran labelled begun => by
    obtain ⟨memories,documents,tags,sequence,memoryTags⟩ := beside t a after ran
    refine ⟨labelledFewer labelled tags sequence fun _ member => memoryTags ▸ member,_,begun,?_⟩
    rw [Function.update_eq_self]
    funext other
    exact pageSame (by rw [memories]) (by rw [documents]) (by rw [storedTags,tags,memoryTags]; rfl)

theorem turnsReplaceWorkspaces (workspaceIds : List String) : Turns port memoryId start
    (replaceWorkspaces port memoryId workspaceIds) fun _ => start := by
  refine turnsBind (turnsBeside lawful fun t a after ran => by cases ran; exact ⟨rfl,rfl,rfl,rfl,rfl⟩) fun _ => ?_
  induction workspaceIds with
  | nil => exact turnsPure fun _ => id
  | cons workspaceId rest ih =>
    refine turnsBind (turnsBeside lawful fun t a after ran => ?_) fun _ => ih
    unfold insertWorkspace at ran
    repeat' split at ran
    all_goals first | cases ran; done | cases ran; exact ⟨rfl,rfl,rfl,rfl,rfl⟩

theorem turnsReplaceFts (title summary content : String) (tags : List String) : Turns port memoryId (· = p)
    (replaceFts port memoryId title summary content tags) fun _ q =>
      q = { p with documents := [⟨memoryId,title,summary,content,String.intercalate " " tags⟩] } := by
  refine turnsBind (turnsDeleteDocuments lawful) fun _ => turnsFrom fun q same => turnsMono
    (turnsInsertDocument lawful rfl) fun _ last reached => ?_
  subst same
  exact reached

end

/- What returns leaves every memory in step with its document. -/
def Indexes (x : Tx σ ε α) : Prop := ∀ oracle session a after, x oracle session = (.ok a,after) →
  Indexed (port.tables session.data) → Indexed (port.tables after.data)

section
variable {port}

theorem indexesTurns {x : Tx σ ε α} (turns : Turns port memoryId Synced x fun _ => Synced) : Indexes port x :=
  fun _ _ _ _ run => turnsIndexed turns run

theorem indexesKeeps {x : Tx σ ε α} (kept : Keeps port.tables x) : Indexes port x :=
  fun _ _ _ _ run indexed => by rwa [kept.ok run]

theorem indexesRaise {error : ε} : Indexes port (raise error : Tx σ ε α) := fun _ _ _ _ run => absurd run raiseOk

theorem indexesBind {x : Tx σ ε β} {next : β → Tx σ ε α} (first : Indexes port x) (rest : ∀ b, Indexes port (next b)) :
    Indexes port (x >>= next) := by
  intro oracle session a after run indexed
  obtain ⟨b,middle,here,there⟩ := bindOk.mp run
  exact rest b _ _ _ _ there (first _ _ _ _ here indexed)

theorem indexesGiven {value : Except ε β} {next : β → Tx σ ε α} (rest : ∀ b, value = .ok b → Indexes port (next b)) :
    Indexes port (lift value >>= next) := by
  intro oracle session a after run indexed
  obtain ⟨b,middle,here,there⟩ := bindOk.mp run
  obtain ⟨given,rfl⟩ := liftOk.mp here
  exact rest b given _ _ _ _ there indexed

theorem indexesLinks (lawful : ∀ after work, port.tables (port.put after work) = after) {sql : Statement α}
    (beside : ∀ t a after, sql t = .ok (a,after) → ∃ links, after = { t with links := links }) :
    Indexes port (onTables port sql) := by
  refine @indexesTurns "" _ _ _ _ _ (turnsBeside lawful fun t a after ran => ?_)
  obtain ⟨links,rfl⟩ := beside t a after ran
  exact ⟨rfl,rfl,rfl,rfl,rfl⟩

end

end McpMemory.Memory
