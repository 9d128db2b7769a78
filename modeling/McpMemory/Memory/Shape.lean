import McpMemory.Memory.Rows

/-! The shape of a command: it makes one change to the memories or the links at most, and all
else that it does is beside them. -/
namespace McpMemory.Memory
open Transaction

def Shaped (change : Tables → Prop) (before after : Tables) : Prop :=
  ∃ middle, (middle = before ∨ change middle) ∧ Beside middle after

variable {change : Tables → Prop} {before middle after : Tables}

theorem Beside.trans (first : Beside before middle) (rest : Beside middle after) : Beside before after :=
  ⟨rest.memories.trans first.memories,rest.links.trans first.links⟩

theorem shapedSame : Shaped change before before := ⟨before,.inl rfl,rfl,rfl⟩

theorem shapedChange (made : change after) : Shaped change before after := ⟨after,.inr made,rfl,rfl⟩

theorem shapedBeside (shaped : Shaped change before middle) (beside : Beside middle after) :
    Shaped change before after := by
  obtain ⟨first,made,rest⟩ := shaped
  exact ⟨first,made,rest.trans beside⟩

/- What the change keeps, and what depends on the memories and the links alone, is kept. -/
theorem shapedKeeps {inv : Tables → Prop} (beside : ∀ before after, Beside before after → inv before → inv after)
    (made : ∀ middle, change middle → inv middle) (shaped : Shaped change before after) (start : inv before) :
    inv after := by
  obtain ⟨middle,rfl | changed,rest⟩ := shaped
  · exact beside _ _ rest start
  · exact beside _ _ rest (made middle changed)

variable {σ ε α : Type} {port : Port σ ε} (lawful : ∀ after work, port.tables (port.put after work) = after)
include lawful

def Begins (port : Port σ ε) (t : Tables) (work : σ) : Prop := port.tables work = t

theorem closedBegins : Closed port Eq (Begins port before) := fun work after start same =>
  (lawful after work).trans (same.symm.trans start)

theorem closedShaped : Closed port Beside fun work => Shaped change before (port.tables work) :=
  fun work after start beside => by
    show Shaped change before (port.tables (port.put after work))
    rw [lawful]
    exact shapedBeside start beside

theorem beginsRead (query : Tables → α) :
    Ensures (Begins port before) (onTables port (read query)) (· = query before) :=
  closedRead (closedBegins lawful) (fun _ => rfl) fun _ start => by rw [← start]

omit lawful in
theorem beginsShaped (work : σ) (start : Begins port before work) : Shaped change before (port.tables work) := by
  rw [start]
  exact shapedSame

/- The statement that makes the change. -/
theorem leadsChange {sql : Statement α} (made : ∀ a after, sql before = .ok (a,after) → change after) :
    Leads (Begins port before) (fun work => Shaped change before (port.tables work)) (onTables port sql) := by
  refine leadsStatement (@beginsShaped change _ _ _ _) fun work a after start taken => ?_
  split at taken
  · cases taken
  · cases taken
    rename_i changed
    rw [lawful]
    exact shapedChange (made _ _ (start ▸ changed))

end McpMemory.Memory
