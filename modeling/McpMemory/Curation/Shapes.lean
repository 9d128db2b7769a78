import McpMemory.Curation.Transaction
import McpMemory.Memory.Shape

/-! The one change that a command of an action transaction can make. -/
namespace McpMemory.Curation
open Memory Text Transaction

variable (env : Env) (config : Config)

def updatedRow (prepared : PreparedUpdate) (now : String) (row : MemoryRow) : MemoryRow := { row with
  title := prepared.title, content := prepared.content, summary := prepared.summary
  type := prepared.memoryType, status := prepared.status, metadata := prepared.metadata
  updatedAt := now }

def Updates (memoryId : String) (changes : UpdateValues) (before after : Tables) : Prop :=
  ∃ existing prepared now, selectRecord memoryId before = some existing ∧
    prepareMemoryUpdate env existing changes = .ok prepared ∧
    Memory.updateMemory memoryId (updatedRow prepared now) before = .ok ((),after)

def withLineage (record : MemoryRecord) (lineage : Json.Object) : UpdateValues :=
  { UpdateValues.nothing with metadata := some (Json.set record.metadata "lineage" (.obj lineage)) }

/- A link is written only where its ends passed the checks. -/
def Links (sourceId targetId linkType context : String) (before after : Tables) : Prop :=
  ∃ normalized, normalizeLinkType env linkType = .ok normalized ∧
    upsertLink ⟨canonicalId env sourceId,canonicalId env targetId,normalized,strip context⟩ before = .ok ((),after)

def Change (command : Command) (before after : Tables) : Prop :=
  match command with
  | .getMemory .. | .getLinks .. | .getProtections .. => False
  | .updateMemory memoryId changes => Updates env (canonicalId env memoryId) changes before after
  | .createMemory values => ∃ now prepared, prepareMemoryCreate env now values = .ok prepared ∧
      insertMemory { prepared.row with memoryRef := some (nextMemoryRef before) } before = .ok ((),after)
  | .deleteMemory memoryId => ∃ middle, Beside before middle ∧
      Memory.deleteMemory (canonicalId env memoryId) middle = .ok ((),after)
  | .addLink sourceId targetId linkType context => Links env sourceId targetId linkType context before after
  | .removeLink sourceId targetId linkType => ∃ normalized rowcount, normalizeLinkType env linkType = .ok normalized ∧
      deleteLink (canonicalId env sourceId) (canonicalId env targetId) normalized before = .ok (rowcount,after)
  | .setLineage memoryId lineage => ∃ record, selectRecord (canonicalId env memoryId) before = some record ∧
      Updates env (canonicalId env memoryId) (withLineage record lineage) before after

theorem lawful (after : Tables) (work : Work) : port.tables (port.put after work) = after := rfl

/- The checks of the ends change nothing. -/

section
variable {inv : Work → Prop} (same : Closed port Eq inv)
include same

theorem closedAccess (memoryId : String) : Ensures inv (requireAccess env memoryId) (· = canonicalId env memoryId) := by
  refine ensuresBind (@ensuresInspect _ _ _ _ (fun _ => True) _ fun _ _ => trivial) fun held _ => ?_
  cases held with
  | true => exact ensuresPure rfl
  | false =>
    refine ensuresBind (closedSelect same (fun _ => rfl) _) fun found _ => ?_
    cases found with
    | true => exact ensuresRaise _
    | false => exact ensuresPure rfl

theorem closedEndpoint (memoryId : String) : Ensures inv (requireEndpoint env memoryId) (· = canonicalId env memoryId) := by
  unfold requireEndpoint
  dsimp only
  split
  · exact ensuresPure rfl
  · refine ensuresBind (@ensuresInspect _ _ _ _ (fun _ => True) _ fun _ _ => trivial) fun held _ => ?_
    cases held with
    | true => exact ensuresPure rfl
    | false =>
      refine ensuresBind (closedSelect same (fun _ => rfl) _) fun found _ => ?_
      cases found <;> exact ensuresRaise _

theorem closedGetMemory (memoryId : String) : Ensures inv (getMemory env memoryId) fun _ => True :=
  ensuresBind (closedAccess env same _) fun _ _ => closedSelect same (fun _ => rfl) _

end

section
variable {start : Tables} {change : Tables → Prop}

theorem beginsAccess (memoryId : String) :
    Ensures (Begins port start) (requireAccess env memoryId) (· = canonicalId env memoryId) :=
  closedAccess env (closedBegins lawful) memoryId

theorem beginsEndpoint (memoryId : String) :
    Ensures (Begins port start) (requireEndpoint env memoryId) (· = canonicalId env memoryId) :=
  closedEndpoint env (closedBegins lawful) memoryId

theorem canonicalIdem (memoryId : String) : canonicalId env (canonicalId env memoryId) = canonicalId env memoryId := by
  unfold canonicalId
  rw [env.unicode.nfcPart memoryId _ (stripInfix _),stripIdem]

theorem beginsGetMemory (memoryId : String) : Ensures (Begins port start) (getMemory env memoryId)
    (· = selectRecord (canonicalId env memoryId) start) :=
  ensuresBind (beginsAccess env memoryId) fun _ same => same ▸ beginsRead lawful _

abbrev Shape (change : Tables → Prop) (start : Tables) (work : Work) : Prop := Shaped change start (port.tables work)

theorem shapedTouch (memoryIds : List String) : Ensures (Shape change start) (touch memoryIds) fun _ => True :=
  ensuresAdjust fun _ shaped => shaped

theorem shapedFailStage (stage : String) : Ensures (Shape change start) (failStage config stage) fun _ => True := by
  refine ensuresBind (ensuresSelect _) fun _ _ => ?_
  cases config.faultStage.map (replaceChar '-' '_') with
  | none => exact ensuresPure trivial
  | some fault =>
    dsimp only
    split
    · exact ensuresRaise _
    · exact ensuresPure trivial

theorem shapedRead {α : Type} (query : Tables → α) :
    Ensures (Shape change start) (onTables port (read query)) fun _ => True :=
  closedSelect (closedShaped lawful) (mapsBeside "").refl query

theorem closedShape : Closed port Eq (Shape change start) := fun work after shaped same =>
  closedShaped lawful work after shaped (same ▸ (mapsBeside "").refl _)

theorem shapedGetMemory (memoryId : String) :
    Ensures (Shape change start) (getMemory env memoryId) fun _ => True := closedGetMemory env closedShape memoryId

theorem shapeUpdateMemory (memoryId : String) (changes : UpdateValues)
    (made : ∀ after, Updates env (canonicalId env memoryId) changes start after → change after) :
    Leads (Begins port start) (Shape change start) (updateMemory env config memoryId changes) := by
  have closed := @closedShaped change start _ _ port lawful
  have still := @beginsShaped change start _ _ port
  refine leadsBind (beginsAccess env memoryId) still fun _ same => ?_
  subst same
  refine leadsBind (beginsGetMemory env _) still fun found same => ?_
  rw [canonicalIdem] at same
  cases found with
  | none => exact leadsRaise _ still
  | some existing =>
    refine leadsBind (ensuresGiven _) still fun prepared given => leadsBind ensuresObserve still fun now _ =>
      leadsThen (leadsChange lawful fun _ after updated => made after ⟨existing,prepared,now.text,same.symm,given,updated⟩)
        fun _ => ?_
    exact ensuresBind (closedReplaceWorkspaces closed (mapsBeside _) _) fun _ _ =>
      ensuresBind (closedReplaceTags closed (mapsBeside _) _) fun _ _ => ensuresBind (shapedTouch _) fun _ _ =>
      ensuresBind (shapedFailStage config _) fun _ _ =>
      ensuresBind (closedReplaceFts closed (mapsBeside "").toTolerates _ _ _ _) fun _ _ =>
      ensuresBind (shapedFailStage config _) fun _ _ => shapedGetMemory env _

theorem shapeCreateMemory (values : CreateValues)
    (made : ∀ after, Change env (.createMemory values) start after → change after) :
    Leads (Begins port start) (Shape change start) (createMemory env config values) := by
  have closed := @closedShaped change start _ _ port lawful
  have still := @beginsShaped change start _ _ port
  refine leadsBind ensuresObserve still fun now _ => leadsBind (ensuresGiven _) still fun prepared given =>
    leadsBind (beginsRead lawful _) still fun taken _ => ?_
  cases taken with
  | true => exact leadsRaise _ still
  | false =>
    refine leadsBind (beginsRead lawful _) still fun nextRef same =>
      leadsThen (leadsChange lawful fun _ after inserted => made after ⟨now,prepared,given,same ▸ inserted⟩)
        fun _ => ?_
    refine ensuresBind (closedReplaceWorkspaces closed (mapsBeside _) _) fun _ _ =>
      ensuresBind (closedReplaceTags closed (mapsBeside _) _) fun _ _ => ensuresBind (shapedTouch _) fun _ _ =>
      ensuresBind (ensuresAdjust fun _ shaped => shaped) fun _ _ => ensuresBind (shapedFailStage config _) fun _ _ =>
      ensuresBind (closedReplaceFts closed (mapsBeside "").toTolerates _ _ _ _) fun _ _ =>
      ensuresBind (shapedFailStage config _) fun _ _ => ensuresBind (shapedGetMemory env _) fun found _ => ?_
    cases found with
    | none => exact ensuresRaise _
    | some record => exact ensuresPure trivial

theorem shapeDeleteMemory (memoryId : String)
    (made : ∀ after, Change env (.deleteMemory memoryId) start after → change after) :
    Leads (Begins port start) (Shape change start) (deleteMemory env config memoryId) := by
  have still := @beginsShaped change start _ _ port
  refine leadsBind (beginsAccess env memoryId) still fun _ same => ?_
  subst same
  refine leadsBind (beginsGetMemory env _) still fun found _ => ?_
  cases found with
  | none => exact leadsRaise _ still
  | some existing =>
    -- The search documents go first; the tables differ from the start by them alone.
    have near : ∀ work : Work, Begins port start work → Beside start (port.tables work) :=
      fun work same => ⟨congrArg _ same,congrArg _ same⟩
    have closed : Closed port Beside fun work => Beside start (port.tables work) := fun _ _ first => first.trans
    refine leadsFrom near (leadsBind (closedOnTables closed ((mapsBeside "").deleteSearchDocuments _))
      (fun _ => shapedBeside shapedSame) fun _ _ => leadsThen (leadsStatement (fun _ => shapedBeside shapedSame)
      fun work a after first taken => ?_) fun _ => ensuresBind (shapedTouch _) fun _ _ =>
      ensuresBind (shapedFailStage config _) fun _ _ => ensuresPure trivial)
    cases taken
    exact shapedChange (made _ ⟨_,first,rfl⟩)

theorem shapeAddLink (sourceId targetId linkType context : String)
    (made : ∀ after, Change env (.addLink sourceId targetId linkType context) start after → change after) :
    Leads (Begins port start) (Shape change start) (addLink env config sourceId targetId linkType context) := by
  have still := @beginsShaped change start _ _ port
  refine leadsBind (beginsAccess env sourceId) still fun _ source => leadsBind (beginsEndpoint env targetId) still
    fun _ target => leadsBind (ensuresGiven _) still fun normalized given => ?_
  subst source target
  exact leadsThen (leadsChange lawful fun _ after written => made after ⟨normalized,given,written⟩) fun _ =>
    ensuresBind (shapedTouch _) fun _ _ => ensuresBind (shapedFailStage config _) fun _ _ => ensuresPure trivial

theorem shapeRemoveLink (sourceId targetId linkType : String)
    (made : ∀ after, Change env (.removeLink sourceId targetId linkType) start after → change after) :
    Leads (Begins port start) (Shape change start) (removeLink env config sourceId targetId linkType) := by
  have still := @beginsShaped change start _ _ port
  refine leadsBind (beginsAccess env sourceId) still fun _ source => leadsBind (beginsEndpoint env targetId) still
    fun _ target => leadsBind (ensuresGiven _) still fun normalized given => ?_
  subst source target
  exact leadsThen (leadsChange lawful fun rowcount after removed => made after ⟨normalized,rowcount,given,removed⟩)
    fun _ => ensuresBind (shapedTouch _) fun _ _ => ensuresBind (shapedFailStage config _) fun _ _ =>
    ensuresPure trivial

theorem shapeSetLineage (memoryId : String) (lineage : Json.Object)
    (made : ∀ after, Change env (.setLineage memoryId lineage) start after → change after) :
    Leads (Begins port start) (Shape change start) (setLineage env config memoryId lineage) := by
  have still := @beginsShaped change start _ _ port
  refine leadsBind (beginsGetMemory env memoryId) still fun found same => ?_
  cases found with
  | none => exact leadsRaise _ still
  | some record =>
    exact shapeUpdateMemory env config memoryId _ fun after updated => made after ⟨record,same.symm,updated⟩

end

/- Whether it raises or not, and wherever it does. -/
theorem shapePerform (command : Command) (start : Tables) :
    Leads (Begins port start) (Shape (Change env command start) start) (perform env config command) := by
  have still := @beginsShaped (Change env command start) start _ _ port
  cases command with
  | getMemory memoryId => exact leadsEnsures (shapedGetMemory env memoryId) still
  | getLinks memoryId incoming linkType =>
    exact leadsEnsures (ensuresBind (closedAccess env closedShape memoryId) fun _ _ => ensuresBind (ensuresLift _) fun _ _ =>
      shapedRead _) still
  | getProtections memoryId =>
    exact leadsEnsures (ensuresBind (closedAccess env closedShape memoryId) fun _ _ => ensuresSelect _) still
  | updateMemory memoryId changes => exact shapeUpdateMemory env config memoryId changes fun _ => id
  | createMemory values => exact shapeCreateMemory env config values fun _ => id
  | deleteMemory memoryId => exact shapeDeleteMemory env config memoryId fun _ => id
  | addLink sourceId targetId linkType context =>
    exact shapeAddLink env config sourceId targetId linkType context fun _ => id
  | removeLink sourceId targetId linkType => exact shapeRemoveLink env config sourceId targetId linkType fun _ => id
  | setLineage memoryId lineage => exact shapeSetLineage env config memoryId lineage fun _ => id

end McpMemory.Curation
