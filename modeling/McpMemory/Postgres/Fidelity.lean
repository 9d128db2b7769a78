import McpMemory.Memory.Documents
import McpMemory.Postgres.Migration

/-! What the import into an empty database writes, and what it leaves out: the archiving times,
the links to the outside, the search documents and the place of the reference sequence. -/
namespace McpMemory.Postgres
open Memory Table Transaction Text
open Curation (ActionError CreateValues)

variable {target before middle after : Target} {memory : SQLiteSourceMemory} {memories : List SQLiteSourceMemory}
  {memoryId name : String}

def TagOf (tags : List Tag) (memoryTags : List (String × Int)) (memoryId name : String) : Prop :=
  ∃ tag ∈ tags, tag.name = name ∧ (memoryId,tag.id) ∈ memoryTags

/- The tags are numbered apart up to the sequence, and only such are mapped. -/
structure Labels (target : Target) : Prop where
  unique : UniqueBy (·.id) target.tags
  numbered : ∀ tag ∈ target.tags, tag.id ≤ target.tagSequence
  mapped : ∀ pair ∈ target.memoryTags, ∃ tag ∈ target.tags, tag.id = pair.2

/- The tables that no memory of its own is imported into. -/
structure Aside (before after : Target) : Prop where
  links : after.links = before.links
  searchDocuments : after.searchDocuments = before.searchDocuments
  memoryRefSeq : after.memoryRefSeq = before.memoryRefSeq

theorem Aside.trans (first : Aside before middle) (rest : Aside middle after) : Aside before after :=
  ⟨rest.links.trans first.links,rest.searchDocuments.trans first.searchDocuments,rest.memoryRefSeq.trans first.memoryRefSeq⟩

theorem tagIdOfOk {tagId} (found : tagIdOf name target = some tagId) : ∃ tag ∈ target.tags, tag.name = name ∧ tag.id = tagId := by
  obtain ⟨tag,here,same⟩ := Option.map_eq_some_iff.mp found
  exact ⟨tag,(findSome here).1,by simpa using (findSome here).2,same⟩

theorem insertTagNameLabels (labels : Labels target) (name : String) : Labels (insertTagName name target) ∧
    ∀ memoryId other, TagOf (insertTagName name target).tags (insertTagName name target).memoryTags memoryId other ↔
      TagOf target.tags target.memoryTags memoryId other := by
  unfold insertTagName
  split
  · exact ⟨labels,fun _ _ => Iff.rfl⟩
  · have fresh : ∀ tag ∈ target.tags, tag.id ≠ target.tagSequence + 1 := by
      intro tag member
      have bound := labels.numbered tag member
      omega
    refine ⟨⟨insertUnique fresh labels.unique,fun tag member => ?_,fun pair member => ?_⟩,fun memoryId other => ?_⟩
    · rcases List.mem_append.mp member with member | member
      · have bound := labels.numbered tag member
        dsimp only
        omega
      · rw [List.mem_singleton.mp member]
    · obtain ⟨tag,there,same⟩ := labels.mapped pair member
      exact ⟨tag,List.mem_append_left _ there,same⟩
    · constructor
      · rintro ⟨tag,member,named,mapped⟩
        rcases List.mem_append.mp member with member | member
        · exact ⟨tag,member,named,mapped⟩
        · obtain ⟨old,there,same⟩ := labels.mapped _ mapped
          rw [List.mem_singleton.mp member] at same
          exact absurd same (fresh old there)
      · rintro ⟨tag,member,named,mapped⟩
        exact ⟨tag,List.mem_append_left _ member,named,mapped⟩

theorem importTagOk (labels : Labels before) (imported : importTag memoryId before name = .ok after) :
    Labels after ∧ (after.rows = before.rows ∧ after.workspaces = before.workspaces ∧ Aside before after) ∧
      ∀ other text, TagOf after.tags after.memoryTags other text ↔
        TagOf before.tags before.memoryTags other text ∨ other = memoryId ∧ text = name := by
  obtain ⟨there,still⟩ := insertTagNameLabels labels name
  have kept : (insertTagName name before).rows = before.rows ∧ (insertTagName name before).workspaces = before.workspaces ∧
      Aside before (insertTagName name before) := by
    unfold insertTagName
    split <;> exact ⟨rfl,rfl,rfl,rfl,rfl⟩
  unfold importTag at imported
  dsimp only at imported
  generalize insertTagName name before = between at imported there still kept
  cases found : tagIdOf name between with
  | none =>
    rw [found] at imported
    cases imported
  | some tagId =>
    obtain ⟨tag,member,called,numbered⟩ := tagIdOfOk found
    subst numbered
    -- a mapping that was there already is the one that is asked for
    have named : ∀ other text, (∃ old ∈ between.tags, old.name = text ∧ other = memoryId ∧ old.id = tag.id) ↔
        other = memoryId ∧ text = name := by
      intro other text
      constructor
      · rintro ⟨old,here,rfl,rfl,same⟩
        exact ⟨rfl,by rw [equalOfKey there.unique here member same,called]⟩
      · rintro ⟨rfl,rfl⟩
        exact ⟨tag,member,called,rfl,rfl⟩
    rw [found] at imported
    dsimp only at imported
    split at imported
    · rename_i present
      cases imported
      refine ⟨there,kept,fun other text => ⟨fun tagged => .inl ((still other text).mp tagged),?_⟩⟩
      rintro (tagged | asked)
      · exact (still other text).mpr tagged
      · obtain ⟨old,here,rfl,rfl,same⟩ := (named other text).mpr asked
        exact ⟨old,here,rfl,by rw [same]; exact List.contains_iff_mem.mp present⟩
    · split at imported
      · cases imported
      · cases imported
        refine ⟨⟨there.unique,there.numbered,fun pair mapped => ?_⟩,⟨kept.1,kept.2.1,kept.2.2.1,kept.2.2.2,kept.2.2.3⟩,
          fun other text => ?_⟩
        · rcases List.mem_append.mp mapped with mapped | mapped
          · exact there.mapped pair mapped
          · rw [List.mem_singleton.mp mapped]
            exact ⟨tag,member,rfl⟩
        · rw [← still other text,← named other text]
          constructor
          · rintro ⟨old,here,rfl,mapped⟩
            rcases List.mem_append.mp mapped with mapped | mapped
            · exact .inl ⟨old,here,rfl,mapped⟩
            · obtain ⟨rfl,same⟩ := Prod.mk.inj (List.mem_singleton.mp mapped)
              exact .inr ⟨old,here,rfl,rfl,‹_›⟩
          · rintro (⟨old,here,rfl,mapped⟩ | ⟨old,here,rfl,rfl,same⟩)
            · exact ⟨old,here,rfl,List.mem_append_left _ mapped⟩
            · exact ⟨old,here,rfl,List.mem_append_right _ (by rw [same]; exact List.mem_singleton_self _)⟩

theorem importTagsOk {names : List String} (labels : Labels before)
    (imported : names.foldlM (importTag memoryId) before = .ok after) :
    Labels after ∧ (after.rows = before.rows ∧ after.workspaces = before.workspaces ∧ Aside before after) ∧
      ∀ other text, TagOf after.tags after.memoryTags other text ↔
        TagOf before.tags before.memoryTags other text ∨ other = memoryId ∧ text ∈ names := by
  induction names generalizing before with
  | nil =>
    cases imported
    exact ⟨labels,⟨rfl,rfl,rfl,rfl,rfl⟩,by simp⟩
  | cons name rest ih =>
    rw [List.foldlM_cons] at imported
    obtain ⟨middle,first,imported⟩ := checkedOk.mp imported
    obtain ⟨there,⟨rows,workspaces,aside⟩,tags⟩ := importTagOk labels first
    obtain ⟨last,⟨rows',workspaces',aside'⟩,tags'⟩ := ih there imported
    refine ⟨last,⟨rows'.trans rows,workspaces'.trans workspaces,aside.trans aside'⟩,fun other text => ?_⟩
    rw [tags',tags,List.mem_cons,or_assoc,← and_or_left]

theorem importWorkspacesOk {names : List String} (imported : names.foldlM (importWorkspace memoryId) before = .ok after) :
    (∃ more, after = { before with workspaces := before.workspaces ++ more }) ∧ ∀ other text,
      (other,text) ∈ after.workspaces ↔ (other,text) ∈ before.workspaces ∨ other = memoryId ∧ text ∈ names := by
  induction names generalizing before with
  | nil =>
    cases imported
    exact ⟨⟨[],by simp⟩,by simp⟩
  | cons name rest ih =>
    rw [List.foldlM_cons] at imported
    obtain ⟨middle,first,imported⟩ := checkedOk.mp imported
    obtain ⟨⟨more,same⟩,placed⟩ := ih imported
    have here : (∃ one, middle = { before with workspaces := before.workspaces ++ one }) ∧ ∀ other text,
        (other,text) ∈ middle.workspaces ↔ (other,text) ∈ before.workspaces ∨ other = memoryId ∧ text = name := by
      unfold importWorkspace at first
      split at first
      · rename_i present
        cases first
        refine ⟨⟨[],by simp⟩,fun other text => ⟨.inl,?_⟩⟩
        rintro (there | ⟨rfl,rfl⟩)
        · exact there
        · exact List.contains_iff_mem.mp present
      · split at first
        · cases first
        · cases first
          exact ⟨⟨_,rfl⟩,fun other text => by simp⟩
    obtain ⟨⟨one,rfl⟩,placedHere⟩ := here
    refine ⟨⟨one ++ more,by rw [same]; simp⟩,fun other text => ?_⟩
    rw [placed,placedHere,List.mem_cons,or_assoc,← and_or_left]

/- The memories that are in by now, their mappings, and nothing beside them. -/
structure Imported (memories : List SQLiteSourceMemory) (target : Target) : Prop where
  rows : target.rows = memories.map (importedRow · none)
  workspaces : ∀ memoryId workspaceId, (memoryId,workspaceId) ∈ target.workspaces ↔
    ∃ memory ∈ memories, memory.id = memoryId ∧ workspaceId ∈ memory.workspaceIds
  labels : Labels target
  tags : ∀ memoryId name, TagOf target.tags target.memoryTags memoryId name ↔
    ∃ memory ∈ memories, memory.id = memoryId ∧ name ∈ memory.tags
  aside : Aside emptyTarget target

theorem importedEmpty : Imported [] emptyTarget where
  rows := rfl
  workspaces _ _ := by simp [emptyTarget]
  labels := ⟨List.nodup_nil,fun _ member => (by cases member),fun _ member => (by cases member)⟩
  tags _ _ := by simp [emptyTarget,TagOf]
  aside := ⟨rfl,rfl,rfl⟩

theorem importedHas (imported : Imported memories target) : target.has memoryId = memories.any (·.id == memoryId) := by
  unfold Target.has
  rw [imported.rows,List.any_map]
  rfl

theorem upsertMemoryOk (fresh : target.has memory.id = false) (upserted : upsertMemory memory target = .ok after) :
    after = { target with rows := target.rows ++ [importedRow memory none] } := by
  unfold upsertMemory at upserted
  split at upserted
  · cases upserted
  · split at upserted
    · cases upserted
    · split at upserted
      · cases upserted
      · split at upserted
        · cases upserted
        · rw [if_neg (by simp [fresh])] at upserted
          exact (Except.ok.inj upserted).symm

theorem importedMemory (imported : Imported memories target) (fresh : ∀ other ∈ memories, other.id ≠ memory.id)
    (ran : importMemory target memory = .ok after) : Imported (memories ++ [memory]) after := by
  obtain ⟨first,upserted,ran⟩ := checkedOk.mp ran
  obtain ⟨second,placed,ran⟩ := checkedOk.mp ran
  have absent : target.has memory.id = false := by
    rw [importedHas imported]
    simpa using fresh
  have new := upsertMemoryOk absent upserted
  subst new
  obtain ⟨⟨more,same⟩,workspaces⟩ := importWorkspacesOk placed
  subst same
  have still : Labels { target with
      rows := target.rows ++ [importedRow memory none]
      workspaces := target.workspaces.filter (·.1 != memory.id) ++ more
      memoryTags := target.memoryTags.filter (·.1 != memory.id) } :=
    ⟨imported.labels.unique,imported.labels.numbered,fun pair member => imported.labels.mapped pair (List.mem_of_mem_filter member)⟩
  obtain ⟨labels,⟨rows,workspacesKept,aside⟩,tags⟩ := importTagsOk still ran
  -- a memory that is not in yet has no mapping to lose
  have cleared : ∀ other, (∃ old ∈ memories, old.id = other) → (other != memory.id) = true := by
    rintro other ⟨old,there,rfl⟩
    simpa using fresh old there
  have listed : ∀ {p : SQLiteSourceMemory → Prop}, (∃ old ∈ memories ++ [memory], p old) ↔ (∃ old ∈ memories, p old) ∨ p memory := by
    simp [or_and_right,exists_or]
  refine ⟨?_,fun other workspaceId => ?_,labels,fun other name => ?_,imported.aside.trans ⟨aside.links,aside.searchDocuments,
    aside.memoryRefSeq⟩⟩
  · rw [rows,List.map_append,imported.rows]
    rfl
  · rw [workspacesKept,workspaces,listed,List.mem_filter,imported.workspaces]
    constructor
    · rintro (⟨⟨old,there,same,listed⟩,_⟩ | ⟨rfl,listed⟩)
      · exact .inl ⟨old,there,same,listed⟩
      · exact .inr ⟨rfl,listed⟩
    · rintro (⟨old,there,same,listed⟩ | ⟨rfl,listed⟩)
      · exact .inl ⟨⟨old,there,same,listed⟩,cleared _ ⟨old,there,same⟩⟩
      · exact .inr ⟨rfl,listed⟩
  · have filtered : TagOf target.tags (target.memoryTags.filter (·.1 != memory.id)) other name ↔
        TagOf target.tags target.memoryTags other name := by
      constructor
      · rintro ⟨tag,there,called,mapped⟩
        exact ⟨tag,there,called,List.mem_of_mem_filter mapped⟩
      · rintro ⟨tag,there,called,mapped⟩
        obtain ⟨old,here,same,_⟩ := (imported.tags other name).mp ⟨tag,there,called,mapped⟩
        exact ⟨tag,there,called,List.mem_filter.mpr ⟨mapped,cleared _ ⟨old,here,same⟩⟩⟩
    rw [tags,filtered,listed,imported.tags]
    constructor
    · rintro (there | ⟨rfl,listed⟩)
      · exact .inl there
      · exact .inr ⟨rfl,listed⟩
    · rintro (there | ⟨rfl,listed⟩)
      · exact .inl there
      · exact .inr ⟨rfl,listed⟩

theorem importedMemories {rest : List SQLiteSourceMemory} (imported : Imported memories target)
    (apart : ((memories ++ rest).map (·.id)).Nodup) (ran : importMemories target rest = .ok after) :
    Imported (memories ++ rest) after := by
  unfold importMemories at ran
  induction rest generalizing memories target with
  | nil =>
    cases ran
    rwa [List.append_nil]
  | cons memory rest ih =>
    rw [List.foldlM_cons] at ran
    obtain ⟨middle,first,ran⟩ := checkedOk.mp ran
    rw [List.append_cons] at apart ⊢
    have fresh : ∀ other ∈ memories, other.id ≠ memory.id := by
      intro other member same
      rw [List.append_assoc,List.map_append,List.nodup_append] at apart
      exact apart.2.2 _ (List.mem_map_of_mem member) _ List.mem_cons_self same
    exact ih (importedMemory imported fresh first) apart ran

/- The links. -/

def linkKey (link : MemoryLink) : String × String × String := (link.sourceId,link.targetId,link.linkType)

theorem isLinkKey {link other : MemoryLink} : isLink link.sourceId link.targetId link.linkType other ↔
    linkKey other = linkKey link := by
  simp [isLink,linkKey,and_assoc]

theorem importLinksOk {links : List MemoryLink} (apart : ((before.links ++ links).map linkKey).Nodup)
    (ran : importLinks before links = .ok after) : after = { before with links := before.links ++ links } := by
  unfold importLinks at ran
  induction links generalizing before with
  | nil =>
    cases ran
    simp
  | cons link rest ih =>
    rw [List.foldlM_cons] at ran
    obtain ⟨middle,first,ran⟩ := checkedOk.mp ran
    have fresh : before.links.any (isLink link.sourceId link.targetId link.linkType) = false := by
      refine List.any_eq_false.mpr fun other member same => ?_
      rw [List.map_append,List.nodup_append] at apart
      exact apart.2.2 _ (List.mem_map_of_mem member) _ List.mem_cons_self (isLinkKey.mp same)
    unfold importLink at first
    simp only [fresh,Bool.false_eq_true,if_false] at first
    split at first
    · cases first
    · cases first
      have reached := ih (by simpa using apart) ran
      rw [reached]
      simp

end McpMemory.Postgres
