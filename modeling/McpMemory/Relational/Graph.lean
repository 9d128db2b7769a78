import McpMemory.Relational.Archiving

/-! The referential integrity of the links. The schema has a foreign key for the source of a
link alone; what its target is, each writer must see to. -/
namespace McpMemory.Relational
open Memory Text Table Transaction Maintenance
open Curation (ActionError Command canonicalId)

variable (env : Curation.Env) (domain : Ingress.Env)

def Grounded (t : Tables) (link : MemoryLink) : Prop :=
  t.has link.sourceId ∧ (t.has link.targetId ∨ startsWith link.targetId "ext:")

instance (t : Tables) (link : MemoryLink) : Decidable (Grounded t link) := inferInstanceAs (Decidable (_ ∧ _))

def Intact (t : Tables) : Prop := ∀ link ∈ t.links, Grounded t link

instance (t : Tables) : Decidable (Intact t) := inferInstanceAs (Decidable (∀ link ∈ t.links, Grounded t link))

def IsTarget (t : Tables) (memoryId : String) : Prop := t.has memoryId ∨ startsWith memoryId "ext:"

/- No other memory links to it. -/
def Unlinked (t : Tables) (memoryId : String) : Prop :=
  ∀ link ∈ t.links, link.targetId = memoryId → link.sourceId = memoryId ∨ startsWith memoryId "ext:"

/- A link is written to a memory id that is there or to an external reference, and an action
deletes a memory only when no other memory links to it. -/
def grounding : Allowed where
  repository _ command t := match command with
    | .addLink _ targetId _ _ => IsTarget t targetId
    | _ => True
  curation command t := match command with
    | .addLink _ targetId _ _ => IsTarget t (canonicalId env targetId)
    | .deleteMemory memoryId => Unlinked t (canonicalId env memoryId)
    | _ => True
  ingress _ _ := True
  factCheck _ _ := True

section
variable {env domain} {before after t : Tables}

theorem Grounded.grows {link} (grows : ∀ memoryId, before.has memoryId → after.has memoryId)
    (grounded : Grounded before link) : Grounded after link :=
  ⟨grows _ grounded.1,grounded.2.imp_left (grows _)⟩

theorem intactGrows (grows : ∀ memoryId, before.has memoryId → after.has memoryId) (links : after.links = before.links)
    (intact : Intact before) : Intact after := fun link member => (intact link (links ▸ member)).grows grows

theorem hasUpdate {sel : MemoryRow → Bool} {set : MemoryRow → MemoryRow} (same : ∀ row, (set row).id = row.id)
    {memoryId} (there : t.has memoryId) : ({ t with memories := update sel set t.memories } : Tables).has memoryId := by
  obtain ⟨row,member,named⟩ := List.any_eq_true.mp there
  refine List.any_eq_true.mpr ⟨_,memUpdate.mpr ⟨row,member,rfl⟩,?_⟩
  split
  · rw [same]
    exact named
  · exact named

theorem intactUpdate {sel : MemoryRow → Bool} {set : MemoryRow → MemoryRow} (same : ∀ row, (set row).id = row.id)
    (intact : Intact t) : Intact { t with memories := update sel set t.memories } :=
  intactGrows (fun _ => hasUpdate same) rfl intact

theorem intactInsert {row : MemoryRow} (made : insertMemory row t = .ok ((),after)) (intact : Intact t) :
    Intact after := by
  unfold insertMemory at made
  repeat' split at made
  all_goals first | cases made; done | skip
  cases made
  have grows : ∀ memoryId, t.has memoryId → ({ t with memories := t.memories ++ [row] } : Tables).has memoryId := by
    intro memoryId there
    obtain ⟨old,member,named⟩ := List.any_eq_true.mp there
    exact List.any_eq_true.mpr ⟨old,List.mem_append_left _ member,named⟩
  exact fun link member => (intact link member).grows grows

theorem hasFilter {memoryId other : String} (apart : other ≠ memoryId)
    (rows : after.memories = t.memories.filter (·.id != memoryId)) (there : t.has other) : after.has other := by
  obtain ⟨row,member,named⟩ := List.any_eq_true.mp there
  refine List.any_eq_true.mpr ⟨row,?_,named⟩
  rw [rows]
  refine List.mem_filter.mpr ⟨member,?_⟩
  simp only [beq_iff_eq] at named
  simpa [named] using apart

/- A deletion that leaves no link with the memory at an end. -/
theorem intactDelete {memoryId} (intact : Intact t) (rows : after.memories = t.memories.filter (·.id != memoryId))
    (links : ∀ link ∈ after.links, link ∈ t.links ∧ link.sourceId ≠ memoryId ∧
      (link.targetId ≠ memoryId ∨ startsWith link.targetId "ext:")) : Intact after := by
  intro link member
  obtain ⟨there,source,target⟩ := links link member
  obtain ⟨grounded,found⟩ := intact link there
  refine ⟨hasFilter source rows grounded,?_⟩
  rcases target with apart | external
  · exact found.imp_left (hasFilter apart rows)
  · exact .inr external

theorem intactRemove {sourceId targetId linkType rowcount}
    (made : deleteLink sourceId targetId linkType before = .ok (rowcount,after)) (intact : Intact before) :
    Intact after := by
  cases made
  exact fun link member => intact link (List.mem_filter.mp member).1

theorem intactReplace {link : MemoryLink} (made : replaceLink link before = .ok ((),after))
    (target : IsTarget before link.targetId) (intact : Intact before) : Intact after := by
  unfold replaceLink at made
  split at made
  · cases made
  · rename_i source
    cases made
    intro other member
    rcases List.mem_append.mp member with old | new
    · exact intact other (List.mem_filter.mp old).1
    · cases List.mem_singleton.mp new
      have source : before.has link.sourceId := by simpa using source
      exact ⟨source,target⟩

theorem intactUpsert {link : MemoryLink} (made : upsertLink link before = .ok ((),after))
    (target : IsTarget before link.targetId) (intact : Intact before) : Intact after := by
  unfold upsertLink at made
  dsimp only at made
  split at made
  · cases made
    intro other member
    obtain ⟨old,there,rfl⟩ := memUpdate.mp member
    have grounded := intact old there
    split <;> exact grounded
  · split at made
    · cases made
    · rename_i source
      cases made
      intro other member
      rcases List.mem_append.mp member with old | new
      · exact intact other old
      · cases List.mem_singleton.mp new
        have source : before.has link.sourceId := by simpa using source
        exact ⟨source,target⟩

theorem intactBeside (beside : Beside before after) (intact : Intact before) : Intact after :=
  intactGrows (fun memoryId there => by rwa [Tables.has,beside.memories]) beside.links intact

theorem intactStatuses {memoryIds status currentStatus} (intact : Intact t) :
    Intact (updateMemoryStatuses memoryIds status currentStatus t) := by
  unfold updateMemoryStatuses
  dsimp only
  split
  · exact intact
  · exact intactUpdate (fun _ => rfl) intact

theorem groundingKept : Kept env domain (grounding env) Intact where
  beside _ _ := intactBeside
  repository seen command before after fine intact made := by
    cases command with
    | getMemory | getLinks | getProtections | setLineage => exact made.elim
    | updateMemory memoryId changes =>
      obtain ⟨existing,revised,now,found,given,made⟩ := made
      cases made
      exact intactUpdate (fun _ => rfl) intact
    | createMemory values =>
      obtain ⟨now,item,given,made⟩ := made
      exact intactInsert made intact
    | deleteMemory memoryId =>
      obtain ⟨existing,_,first,cut,unlinked,apart,last⟩ := made
      cases unlinked
      cases last
      have rows : cut.memories = before.memories := apart.memories
      have links : cut.links = before.links.filter _ := apart.links
      refine @intactDelete _ _ existing.id intact (congrArg _ rows) fun link member => ?_
      obtain ⟨here,_⟩ := List.mem_filter.mp member
      rw [links] at here
      obtain ⟨there,away⟩ := List.mem_filter.mp here
      simp only [Bool.not_eq_true',Bool.or_eq_false_iff,beq_eq_false_iff_ne] at away
      exact ⟨there,away.1,.inl away.2⟩
    | addLink sourceId targetId linkType context =>
      obtain ⟨normalized,_,made⟩ := made
      exact intactReplace made fine intact
    | removeLink sourceId targetId linkType =>
      obtain ⟨normalized,rowcount,_,made⟩ := made
      exact intactRemove made intact
  curation command before after fine intact made := by
    cases command with
    | getMemory | getLinks | getProtections => exact made.elim
    | updateMemory memoryId changes =>
      obtain ⟨existing,prepared,now,_,_,made⟩ := made
      cases made
      exact intactUpdate (fun _ => rfl) intact
    | createMemory values =>
      obtain ⟨now,prepared,given,made⟩ := made
      exact intactInsert made intact
    | deleteMemory memoryId =>
      obtain ⟨cut,apart,made⟩ := made
      cases made
      refine @intactDelete _ _ (canonicalId env memoryId) intact (congrArg _ apart.memories) fun link member => ?_
      obtain ⟨here,away⟩ := List.mem_filter.mp member
      have there : link ∈ before.links := apart.links ▸ here
      simp only [bne_iff_ne,ne_eq] at away
      by_cases target : link.targetId = canonicalId env memoryId
      · exact ⟨there,away,.inr (target ▸ (fine link there target).resolve_left away)⟩
      · exact ⟨there,away,.inl target⟩
    | addLink sourceId targetId linkType context =>
      obtain ⟨normalized,_,made⟩ := made
      exact intactUpsert made fine intact
    | removeLink sourceId targetId linkType =>
      obtain ⟨normalized,rowcount,_,made⟩ := made
      exact intactRemove made intact
    | setLineage memoryId lineage =>
      obtain ⟨_,_,existing,prepared,now,_,_,made⟩ := made
      cases made
      exact intactUpdate (fun _ => rfl) intact
  ingress command before after _ intact made := by
    cases command with
    | getMemory => exact made.elim
    | createMemory values =>
      obtain ⟨now,prepared,given,made⟩ := made
      exact intactInsert made intact
    | appendMemory values =>
      obtain ⟨memoryId,prepared,now,made⟩ := made
      cases made
      exact intactUpdate (fun _ => rfl) intact
  staleness _ _ _ := intactUpdate fun _ => rfl
  factCheck _ _ _ intact := intactStatuses (intactStatuses intact)
  deletes t after memoryId intact rows links := by
    refine @intactDelete _ _ memoryId intact rows fun link member => ?_
    rw [links] at member
    obtain ⟨there,away⟩ := List.mem_filter.mp member
    simp only [Bool.not_eq_true',Bool.or_eq_false_iff,beq_eq_false_iff_ne] at away
    exact ⟨there,away.1,.inl away.2⟩

end

/- So a memory that is gone is no end of a link, nor is a reference to one. -/
theorem intactHolds {database : Database} {writes : List Write} (start : Intact database.memory)
    (fine : Interleave.Holding (apply env domain) ((grounding env).On env domain) database writes) :
    let t := (Interleave.reach (apply env domain) database writes).memory
    Intact t ∧ ∀ memoryId, t.has memoryId = false → startsWith memoryId "ext:" = false →
      ∀ link ∈ t.links, link.sourceId ≠ memoryId ∧ link.targetId ≠ memoryId := by
  have intact := keptRun groundingKept fine start
  refine ⟨intact,fun memoryId gone internal link member => ?_⟩
  obtain ⟨source,target⟩ := intact link member
  refine ⟨fun same => ?_,fun same => ?_⟩
  · rw [same,gone] at source
    cases source
  · rw [same,gone,internal] at target
    simp at target

/- Two notes, one of which refers to a file. -/

def otherId : String := "00000000-0000-0000-0000-000000000002"

def addOther : Write := issue (.createMemory
  ⟨some otherId,"other","kept",none,none,none,["w"],[],none,none,none,[]⟩)

def refer : Write := issue (.addLink noteId "ext:notes.md" "NEXT" "")

theorem intactHoldsSample :
    let t := (Interleave.reach (apply asciiActions asciiDomain) Database.empty [addNote,refer]).memory
    t.links = [⟨noteId,"ext:notes.md","NEXT",""⟩] ∧ Intact t := by
  have start : Intact Memory.empty := fun _ member => (by cases member)
  have fine : Interleave.Holding (apply asciiActions asciiDomain)
      ((grounding asciiActions).On asciiActions asciiDomain) Database.empty [addNote,refer] :=
    ⟨⟨trivial,trivial⟩,⟨.inr (by decide),trivial⟩,trivial⟩
  exact ⟨by decide +kernel,(intactHolds asciiActions asciiDomain start fine).1⟩

/- The link service reads its target by a reference and writes the reference itself, and an action
that deletes a memory leaves the links to it. -/

def linkByReference : Write := .repository none (Curation.createMemoryLink
  [("source_id",.str noteId),("target_id",.str "mem-2"),("link_type",.str "NEXT")]) ticking

def actionDeletes : Write := .curation
  ⟨⟨"model",none⟩,⟨"run","action",[noteId],[],none,some "delete_memory",.null,none,"curator",none,none⟩,
    .call (.deleteMemory noteId) fun _ => .done (some ⟨"delete_memory",[],none⟩),ticking⟩

def linked : Write := issue (.addLink otherId noteId "NEXT" "")

theorem intactBroken : Intact curating.memory ∧
    ¬ Intact (Interleave.reach (apply asciiActions asciiDomain) curating [addNote,addOther,linkByReference]).memory ∧
    ¬ Intact (Interleave.reach (apply asciiActions asciiDomain) curating
      [addNote,addOther,linked,actionDeletes]).memory := by
  refine ⟨?_,?_,?_⟩ <;> decide +kernel

end McpMemory.Relational
