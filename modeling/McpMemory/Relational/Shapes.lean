import McpMemory.Memory.Shape
import McpMemory.Relational.Repository

/-! The one change that a method of the plain repository can make. -/
namespace McpMemory.Relational
open Memory Text Transaction
open Curation (ActionError Command Reply UpdateValues CreateValues repositoryMemory normalizeLinkType)

variable (env : Curation.Env)

/- What the method found where it read, which may be older than what it changes. -/
def Found (seen : Option Tables) (before : Tables) (memoryId : String) (existing : MemoryRecord) : Prop :=
  repositoryMemory (seen.getD before) memoryId = .ok (some existing)

/- The links of a memory go first, its search documents second and the memory last. -/
def Deletes (memoryId : String) (before after : Tables) : Prop :=
  ∃ cut middle, deleteLinksOf memoryId before = .ok ((),cut) ∧ Beside cut middle ∧
    Memory.deleteMemory memoryId middle = .ok ((),after)

def Change (seen : Option Tables) (command : Command) (before after : Tables) : Prop :=
  match command with
  | .getMemory .. | .getLinks .. | .getProtections .. | .setLineage .. => False
  | .updateMemory memoryId changes => ∃ existing revised now, Found seen before memoryId existing ∧
      validateUpdate changes = .ok revised ∧
      Memory.updateMemory existing.id (revise env existing changes revised now) before = .ok ((),after)
  | .createMemory values => ∃ now item, prepareMemoryCreate env now values = .ok item ∧
      insertMemory { item.row with memoryRef := some (nextMemoryRef before) } before = .ok ((),after)
  | .deleteMemory memoryId => ∃ existing, Found seen before memoryId existing ∧ Deletes existing.id before after
  | .addLink sourceId targetId linkType context => ∃ normalized, normalizeLinkType env linkType = .ok normalized ∧
      replaceLink ⟨sourceId,targetId,normalized,strip context⟩ before = .ok ((),after)
  | .removeLink sourceId targetId linkType => ∃ normalized rowcount, normalizeLinkType env linkType = .ok normalized ∧
      deleteLink sourceId targetId normalized before = .ok (rowcount,after)

theorem lawful (after work : Tables) : port.tables (port.put after work) = after := rfl

section
variable {start : Tables} {change : Tables → Prop}

theorem beginsLook (seen : Option Tables) (memoryId : String) : Ensures (Begins port start) (look seen memoryId)
    (repositoryMemory (seen.getD start) memoryId = .ok ·) := by
  refine ensuresStatement fun work a after (begun : work = start) taken => ?_
  obtain ⟨found,read,same⟩ := mappedOk.mp taken
  cases same
  exact ⟨begun,begun ▸ read⟩

abbrev Shape (change : Tables → Prop) (start work : Tables) : Prop := Shaped change start (port.tables work)

theorem shapedLook (seen : Option Tables) (memoryId : String) :
    Ensures (Shape change start) (look seen memoryId) fun _ => True := by
  refine ensuresStatement fun work a after shaped taken => ?_
  obtain ⟨found,read,same⟩ := mappedOk.mp taken
  cases same
  exact ⟨shaped,trivial⟩

section
variable {rel : Tables → Tables → Prop} {inv : Tables → Prop} {memoryId : String}
variable (closed : Closed port rel inv) (maps : Maps rel memoryId)
include closed maps

theorem closedMapTag (tag : String) : Ensures inv (mapTag memoryId tag) fun _ => True := by
  refine ensuresBind (closedOnTables closed (maps.insertTag tag)) fun _ _ =>
    ensuresBind (closedSelect closed maps.refl _) fun tagId _ => ?_
  cases tagId with
  | none => exact ensuresPure trivial
  | some tagId => exact closedOnTables closed (maps.insertMemoryTag tagId)

theorem closedReplaceTagMappings (tags : List String) : Ensures inv (replaceTagMappings memoryId tags) fun _ => True :=
  ensuresBind (closedOnTables closed maps.deleteMemoryTags) fun _ _ => ensuresEach fun tag _ => closedMapTag closed maps tag

end

theorem shapedReplaceTagMappings (memoryId : String) (tags : List String) :
    Ensures (Shape change start) (replaceTagMappings memoryId tags) fun _ => True :=
  closedReplaceTagMappings (closedShaped lawful) (mapsBeside _) tags

theorem shapedMapped {replace : List String → Query Unit}
    (shaped : ∀ values, Ensures (Shape change start) (replace values) fun _ => True) (values : Option (List String)) :
    Ensures (Shape change start) (mapped replace values) fun _ => True := by
  cases values with
  | none => exact ensuresPure trivial
  | some values => exact shaped values

theorem shapedInsertFtsRow (memoryId title summary content : String) (tags : List String) :
    Ensures (Shape change start) (insertFtsRow memoryId title summary content tags) fun _ => True :=
  closedOnTables (closedShaped lawful) ((mapsBeside "").insertSearchDocument _)

theorem shapeWriteUpdate (existing : MemoryRecord) (changes : UpdateValues) (revised : Revised)
    (made : ∀ now after, Memory.updateMemory existing.id (revise env existing changes revised now) start =
      .ok ((),after) → change after) :
    Leads (Begins port start) (Shape change start) (writeUpdate env existing changes revised) := by
  have closed := @closedShaped change start _ _ port lawful
  refine leadsBind ensuresObserve (@beginsShaped change start _ _ port) fun now _ =>
    leadsThen (leadsChange lawful fun _ after => made now.text after) fun _ =>
    ensuresBind (shapedMapped (closedReplaceWorkspaces closed (mapsBeside _)) _) fun _ _ =>
    ensuresBind (shapedMapped (shapedReplaceTagMappings _) _) fun _ _ =>
    ensuresBind (closedSelect closed (mapsBeside "").refl _) fun current _ => ?_
  cases current with
  | none => exact ensuresRaise _
  | some current =>
    exact ensuresBind (closedOnTables closed ((mapsBeside "").deleteSearchDocuments _)) fun _ _ =>
      shapedInsertFtsRow _ _ _ _ _

theorem shapeInsertPrepared (nextRef : Int) (item : PreparedCreate)
    (made : ∀ after, insertMemory { item.row with memoryRef := some nextRef } start = .ok ((),after) → change after) :
    Leads (Begins port start) (Shape change start) (insertPrepared nextRef item) :=
  leadsThen (leadsChange lawful fun _ => made) fun _ =>
    ensuresBind (closedReplaceWorkspaces (closedShaped lawful) (mapsBeside _) _) fun _ _ =>
    ensuresBind (shapedReplaceTagMappings _ _) fun _ _ => shapedInsertFtsRow _ _ _ _ _

end

/- Whether it raises or not, and wherever it does. -/
theorem shapePerform (seen : Option Tables) (command : Command) (start : Tables) :
    Leads (Begins port start) (Shape (Change env seen command start) start) (perform env seen command) := by
  have still := @beginsShaped (Change env seen command start) start _ _ port
  cases command with
  | getMemory memoryId => exact leadsEnsures (shapedLook none memoryId) still
  | getLinks memoryId incoming linkType =>
    refine leadsEnsures (ensuresBind (shapedLook none memoryId) fun found _ => ?_) still
    cases found with
    | none => exact ensuresPure trivial
    | some record =>
      exact ensuresBind (ensuresLift _) fun _ _ => closedSelect (closedShaped lawful) (mapsBeside "").refl _
  | getProtections memoryId => exact leadsRaise _ still
  | setLineage memoryId lineage => exact leadsRaise _ still
  | updateMemory memoryId changes =>
    refine leadsBind (beginsLook seen memoryId) still fun found read => ?_
    cases found with
    | none => exact leadsPure _ still
    | some existing =>
      exact leadsBind (ensuresGiven _) still fun revised given => leadsThen (leadsAtomically still fun _ _ _ _ =>
        (shapeWriteUpdate env existing changes revised fun now after written =>
          ⟨existing,revised,now,read,given,written⟩).ends) fun _ => shapedLook _ _
  | createMemory values =>
    exact leadsBind ensuresObserve still fun now _ => leadsBind (ensuresGiven _) still fun item given =>
      leadsThen (leadsAtomically still fun _ _ _ _ => (leadsBind (beginsRead lawful nextMemoryRef) still fun nextRef same =>
        shapeInsertPrepared nextRef item fun after inserted => ⟨now,item,given,same ▸ inserted⟩).ends)
        fun _ => shapedLook _ _
  | deleteMemory memoryId =>
    refine leadsBind (beginsLook seen memoryId) still fun found read => ?_
    cases found with
    | none => exact leadsPure _ still
    | some existing =>
      refine leadsThen (leadsAtomically still fun oracle session a after run begun => ?_) fun _ => ensuresPure trivial
      obtain ⟨_,cut,first,run⟩ := bindOk.mp run
      obtain ⟨_,middle,second,run⟩ := bindOk.mp run
      obtain ⟨links,unlinked,first⟩ := onTablesOk first
      obtain ⟨documents,dropped,second⟩ := onTablesOk second
      obtain ⟨rest,gone,third⟩ := onTablesOk run
      rw [show port.tables session.data = start from begun] at unlinked
      rw [first] at dropped
      rw [second] at gone
      have apart := (mapsBeside "").deleteSearchDocuments _ _ _ _ dropped
      rw [third]
      exact shapedChange ⟨existing,read,links,documents,unlinked,apart,gone⟩
  | addLink sourceId targetId linkType context =>
    exact leadsBind (ensuresGiven _) still fun normalized given => leadsThen (leadsAtomically still fun _ _ _ _ =>
      (leadsChange lawful fun _ after written => ⟨normalized,given,written⟩).ends) fun _ => ensuresPure trivial
  | removeLink sourceId targetId linkType =>
    exact leadsBind (ensuresGiven _) still fun normalized given => leadsThen (leadsAtomically still fun _ _ _ _ =>
      (leadsChange lawful fun rowcount after removed => ⟨normalized,rowcount,given,removed⟩).ends)
      fun _ => ensuresPure trivial

end McpMemory.Relational
