import McpMemory.Memory.Tables

/-! What the schema holds for the tables: a link leaves a memory that is there, a memory is
given tags that are there, and the tags are numbered in their order. The target of a link is
no foreign key. -/
namespace McpMemory.Memory
open Table

structure Schema (t : Tables) : Prop where
  sources : ∀ link ∈ t.links, t.has link.sourceId
  tagged : ∀ pair ∈ t.memoryTags, ∃ tag ∈ t.tags, tag.id = pair.2
  numbered : ∀ tag ∈ t.tags, tag.id ≤ t.tagSequence

/- The schema still holds, and the tags that came are numbered after those that were. -/
structure Holds (before after : Tables) : Prop where
  schema : Schema before → Schema after
  tags : ∃ more, after.tags = before.tags ++ more ∧ ∀ tag ∈ more, before.tagSequence < tag.id
  sequence : before.tagSequence ≤ after.tagSequence

variable {before middle after : Tables}

theorem holdsRefl : Holds before before := ⟨id,⟨[],by simp,fun _ member => (by cases member)⟩,le_refl _⟩

theorem Holds.trans (first : Holds before middle) (rest : Holds middle after) : Holds before after := by
  obtain ⟨more,here,later⟩ := first.tags
  obtain ⟨most,there,last⟩ := rest.tags
  refine ⟨rest.schema ∘ first.schema,⟨more ++ most,by rw [there,here,List.append_assoc],?_⟩,
    first.sequence.trans rest.sequence⟩
  intro tag member
  rcases List.mem_append.mp member with member | member
  · exact later tag member
  · exact first.sequence.trans_lt (last tag member)

/- A change that takes no memory away, adds no link from elsewhere and no tag. -/
theorem holdsRows (has : ∀ memoryId, before.has memoryId → after.has memoryId)
    (links : ∀ link ∈ after.links, ∃ old ∈ before.links, old.sourceId = link.sourceId)
    (memoryTags : after.memoryTags ⊆ before.memoryTags) (tags : after.tags = before.tags)
    (sequence : after.tagSequence = before.tagSequence) : Holds before after where
  schema schema := by
    refine ⟨fun link member => ?_,fun pair member => ?_,?_⟩
    · obtain ⟨old,there,same⟩ := links link member
      exact has _ (same ▸ schema.sources old there)
    · rw [tags]
      exact schema.tagged pair (memoryTags member)
    · rw [tags,sequence]
      exact schema.numbered
  tags := ⟨[],by simp [tags],fun _ member => (by cases member)⟩
  sequence := sequence.ge

theorem holdsBeside (memories : after.memories = before.memories) (links : after.links = before.links)
    (memoryTags : after.memoryTags ⊆ before.memoryTags) (tags : after.tags = before.tags)
    (sequence : after.tagSequence = before.tagSequence) : Holds before after :=
  holdsRows (fun _ there => by rwa [Tables.has,memories]) (fun link member => ⟨link,links ▸ member,rfl⟩)
    memoryTags tags sequence

variable {t : Tables}

theorem holdsUpdateMemory {memoryId : String} {set : MemoryRow → MemoryRow} (same : ∀ row, (set row).id = row.id) :
    Holds t { t with memories := update (·.id == memoryId) set t.memories } := by
  refine holdsRows (fun other there => ?_) (fun link member => ⟨link,member,rfl⟩) (fun _ member => member) rfl rfl
  obtain ⟨row,member,here⟩ := List.any_eq_true.mp there
  refine List.any_eq_true.mpr ⟨_,memUpdate.mpr ⟨row,member,rfl⟩,?_⟩
  split
  · rw [same]
    exact here
  · exact here

theorem holdsInsertMemory {row : MemoryRow} : Holds t { t with memories := t.memories ++ [row] } :=
  holdsRows (fun other there => by simp_all [Tables.has]) (fun link member => ⟨link,member,rfl⟩)
    (fun _ member => member) rfl rfl

/- Deleting a memory takes the links that leave it along. -/
theorem holdsDeleteMemory {memoryId : String} : Holds t { t with
    memories := t.memories.filter (·.id != memoryId)
    workspaces := t.workspaces.filter (·.1 != memoryId)
    memoryTags := t.memoryTags.filter (·.1 != memoryId)
    links := t.links.filter (·.sourceId != memoryId) } where
  schema schema := by
    refine ⟨fun link member => ?_,fun pair member => schema.tagged pair (List.mem_filter.mp member).1,schema.numbered⟩
    obtain ⟨there,apart⟩ := List.mem_filter.mp member
    obtain ⟨row,present,here⟩ := List.any_eq_true.mp (schema.sources link there)
    refine List.any_eq_true.mpr ⟨row,List.mem_filter.mpr ⟨present,?_⟩,here⟩
    rwa [beq_iff_eq.mp here]
  tags := ⟨[],by simp,fun _ member => (by cases member)⟩
  sequence := le_refl _

theorem holdsInsertTag {name : String} :
    Holds t { t with tags := t.tags ++ [⟨t.tagSequence + 1,name⟩], tagSequence := t.tagSequence + 1 } where
  schema schema := by
    refine ⟨schema.sources,fun pair member => ?_,fun tag member => ?_⟩
    · obtain ⟨tag,there,same⟩ := schema.tagged pair member
      exact ⟨tag,List.mem_append_left _ there,same⟩
    · rcases List.mem_append.mp member with there | here
      · have := schema.numbered tag there
        dsimp only
        omega
      · cases List.mem_singleton.mp here
        exact le_refl _
  tags := ⟨_,rfl,fun tag member => by cases List.mem_singleton.mp member; exact Int.lt_succ _⟩
  sequence := by dsimp only; omega

theorem holdsInsertMemoryTag {memoryId : String} {tagId : Int} (there : t.tags.any (·.id == tagId)) :
    Holds t { t with memoryTags := t.memoryTags ++ [(memoryId,tagId)] } where
  schema schema := by
    refine ⟨schema.sources,fun pair member => ?_,schema.numbered⟩
    rcases List.mem_append.mp member with old | new
    · exact schema.tagged pair old
    · cases List.mem_singleton.mp new
      obtain ⟨tag,present,same⟩ := List.any_eq_true.mp there
      exact ⟨tag,present,beq_iff_eq.mp same⟩
  tags := ⟨[],by simp,fun _ member => (by cases member)⟩
  sequence := le_refl _

theorem holdsInsertLink {link : MemoryLink} (there : t.has link.sourceId) :
    Holds t { t with links := t.links ++ [link] } where
  schema schema := by
    refine ⟨fun other member => ?_,schema.tagged,schema.numbered⟩
    rcases List.mem_append.mp member with old | new
    · exact schema.sources other old
    · cases List.mem_singleton.mp new
      exact there
  tags := ⟨[],by simp,fun _ member => (by cases member)⟩
  sequence := le_refl _

/- The tags of a memory are found by their names whatever tags came after them. -/
theorem recordKept (schema : Schema before) (held : Holds before after) {memoryId : String}
    (row : selectRow memoryId after = selectRow memoryId before)
    (workspaces : after.workspaces.filter (·.1 == memoryId) = before.workspaces.filter (·.1 == memoryId))
    (memoryTags : after.memoryTags.filter (·.1 == memoryId) = before.memoryTags.filter (·.1 == memoryId)) :
    recordById memoryId after = recordById memoryId before := by
  unfold recordById
  rw [row]
  cases found : selectRow memoryId before with
  | none => rfl
  | some here =>
    have named : here.id = memoryId := by simpa using List.find?_some found
    have same : ∀ tagId, after.memoryTags.contains (memoryId,tagId) = before.memoryTags.contains (memoryId,tagId) := by
      intro tagId
      have among : ∀ t : Tables, (memoryId,tagId) ∈ t.memoryTags ↔
          (memoryId,tagId) ∈ t.memoryTags.filter (·.1 == memoryId) := fun t => by simp
      rw [Bool.eq_iff_iff,List.contains_iff_mem,List.contains_iff_mem,among after,memoryTags,← among before]
    obtain ⟨more,grown,later⟩ := held.tags
    have fresh : more.filterMap (fun tag =>
        if before.memoryTags.contains (memoryId,tag.id) then some tag.name else none) = [] := by
      refine List.filterMap_eq_nil_iff.mpr fun tag member => if_neg fun worn => ?_
      obtain ⟨old,there,twin⟩ := schema.tagged _ (List.contains_iff_mem.mp worn)
      have lower := schema.numbered old there
      have higher := later tag member
      dsimp only at twin
      omega
    simp only [Option.map_some,hydrateRecord,named,workspaces,same,grown,List.filterMap_append,fresh,List.append_nil]

end McpMemory.Memory
