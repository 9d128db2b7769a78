import McpMemory.Ingress.Frames
import McpMemory.Memory.Shape

/-! The one change that a command of an ingress transaction can make. -/
namespace McpMemory.Ingress
open Memory Text Transaction

variable (env : Env)

def appended (prepared : PreparedAppend) (now : String) (row : MemoryRow) : MemoryRow := { row with
  content := prepared.content, summary := prepared.summary, metadata := prepared.metadata, updatedAt := now }

def inserted (prepared : PreparedCreate) (memoryRef : Int) : MemoryRow :=
  ⟨prepared.memoryId,some memoryRef,prepared.title,prepared.content,some prepared.summary,prepared.memoryType,
    prepared.status,prepared.createdAt,prepared.createdAt,none,prepared.metadata⟩

def Change (command : Command) (before after : Tables) : Prop :=
  match command with
  | .getMemory _ => False
  | .createMemory values => ∃ now prepared, prepareCreate env now values = .ok prepared ∧
      insertMemory (inserted prepared (nextMemoryRef before)) before = .ok ((),after)
  | .appendMemory _ => ∃ memoryId prepared now,
      Memory.updateMemory memoryId (appended prepared now) before = .ok ((),after)

theorem lawful (after : Tables) (work : Work) : port.tables (port.put after work) = after := rfl

abbrev Shape (change : Tables → Prop) (start : Tables) (work : Work) : Prop := Shaped change start (tablesOf work)

section
variable {start : Tables} {change : Tables → Prop}

theorem beginsGetMemory (memoryId : String) : Ensures (Begins port start) (getMemory env memoryId) fun _ => True :=
  ensuresBind (ensuresLift _) fun _ _ => closedSelect (closedBegins lawful) (fun _ => rfl) _

theorem shapedGetMemory (memoryId : String) : Ensures (Shape change start) (getMemory env memoryId) fun _ => True :=
  ensuresBind (ensuresLift _) fun _ _ => closedSelect (closedShaped lawful) (mapsBeside "").refl _

theorem shapedReplaceMappings (memoryId : String) (workspaceIds tags : List String) :
    Ensures (Shape change start) (replaceMappings memoryId workspaceIds tags) fun _ => True :=
  ensuresBind (closedReplaceWorkspaces (closedShaped lawful) (mapsBeside _) _) fun _ _ =>
    closedReplaceTags (closedShaped lawful) (mapsBeside _) _

theorem shapedReplaceFts (memoryId title summary content : String) (tags : List String) :
    Ensures (Shape change start) (replaceFts port memoryId title summary content tags) fun _ => True :=
  closedReplaceFts (closedShaped lawful) (mapsBeside "").toTolerates _ _ _ _

theorem shapedTouch (memoryId : String) : Ensures (Shape change start) (touch memoryId) fun _ => True :=
  ensuresAdjust fun _ shaped => shaped

theorem shapeCreateMemory (values : CreateValues)
    (made : ∀ after, Change env (.createMemory values) start after → change after) :
    Leads (Begins port start) (Shape change start) (createMemory env values) := by
  have still := @beginsShaped change start _ _ port
  exact leadsBind ensuresObserve still fun now _ => leadsBind (ensuresGiven _) still fun prepared given =>
    leadsBind (beginsRead lawful _) still fun nextRef same => leadsThen (leadsChange lawful fun _ after inserted =>
      made after ⟨now,prepared,given,same ▸ inserted⟩) fun _ => ensuresBind (shapedReplaceMappings _ _ _) fun _ _ =>
    ensuresBind (shapedReplaceFts _ _ _ _ _) fun _ _ => ensuresBind (shapedTouch _) fun _ _ => shapedGetMemory env _

theorem shapeAppendMemory (values : AppendValues)
    (made : ∀ after, Change env (.appendMemory values) start after → change after) :
    Leads (Begins port start) (Shape change start) (appendMemory env values) := by
  have still := @beginsShaped change start _ _ port
  refine leadsBind (ensuresLift _) still fun memoryId _ => leadsBind (beginsGetMemory env _) still fun found _ => ?_
  cases found with
  | none => exact leadsRaise _ still
  | some existing =>
    exact leadsBind (ensuresLift _) still fun prepared _ => leadsBind ensuresObserve still fun now _ =>
      leadsThen (leadsChange lawful fun _ after written => made after ⟨memoryId,prepared,now.text,written⟩)
      fun _ => ensuresBind (shapedReplaceMappings _ _ _) fun _ _ => ensuresBind (shapedReplaceFts _ _ _ _ _) fun _ _ =>
      ensuresBind (shapedTouch _) fun _ _ => shapedGetMemory env _

end

/- Whether it raises or not, and wherever it does. -/
theorem shapePerform (command : Command) (start : Tables) :
    Leads (Begins port start) (Shape (Change env command start) start) (perform env command) := by
  cases command with
  | getMemory memoryId => exact leadsEnsures (shapedGetMemory env memoryId) beginsShaped
  | createMemory values => exact shapeCreateMemory env values fun _ => id
  | appendMemory values => exact shapeAppendMemory env values fun _ => id

end McpMemory.Ingress
