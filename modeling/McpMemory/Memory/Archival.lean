import McpMemory.Memory.Rows

/-! The archival invariant of the memory rows: each has its time of archiving exactly while it
is archived. -/
namespace McpMemory.Memory
open Table

def Stamped (row : MemoryRow) : Prop := row.archivedAt.isSome ↔ row.status = "archived"

instance (row : MemoryRow) : Decidable (Stamped row) := inferInstanceAs (Decidable (_ ↔ _))

/- The ids are the primary key. -/
structure Archival (t : Tables) : Prop where
  keyed : UniqueBy (·.id) t.memories
  stamped : ∀ row ∈ t.memories, Stamped row

variable {before after t : Tables}

theorem archivalEmpty : Archival empty := ⟨List.nodup_nil,fun _ member => (by cases member)⟩

theorem archivalRows (rows : after.memories = before.memories) (archival : Archival before) : Archival after :=
  ⟨rows ▸ archival.keyed,rows ▸ archival.stamped⟩

theorem archivalUpdate (archival : Archival t) {sel : MemoryRow → Bool} {set : MemoryRow → MemoryRow}
    (same : ∀ row, (set row).id = row.id) (stamped : ∀ row ∈ t.memories, sel row → Stamped (set row)) :
    Archival { t with memories := update sel set t.memories } where
  keyed := updateUnique (fun row _ _ => same row) archival.keyed
  stamped row member := by
    obtain ⟨old,there,rfl⟩ := memUpdate.mp member
    split
    · exact stamped old there ‹_›
    · exact archival.stamped old there

theorem archivalInsert {row : MemoryRow} {a} (ran : insertMemory row t = .ok (a,after)) (stamped : Stamped row)
    (archival : Archival t) : Archival after := by
  unfold insertMemory at ran
  split at ran
  · cases ran
  · rename_i absent
    split at ran
    · cases ran
    · cases ran
      refine ⟨insertUnique (fun old there same => absent ?_) archival.keyed,fun other member => ?_⟩
      · exact List.any_eq_true.mpr ⟨old,there,by simpa using same⟩
      · rcases List.mem_append.mp member with there | new
        · exact archival.stamped other there
        · cases List.mem_singleton.mp new
          exact stamped

theorem archivalFilter (archival : Archival t) {keep : MemoryRow → Bool}
    (kept : after.memories = t.memories.filter keep) : Archival after where
  keyed := by
    rw [kept]
    exact (List.filter_sublist.map _).nodup archival.keyed
  stamped row member := archival.stamped row (List.mem_filter.mp (kept ▸ member)).1

/- A row is the one that a look for its id finds. -/
theorem archivalFound (archival : Archival t) {row : MemoryRow} (member : row ∈ t.memories) :
    selectRow row.id t = some row := by
  cases found : selectRow row.id t with
  | none => exact absurd (beq_self_eq_true row.id) (by simpa using findNone found row member)
  | some other =>
    obtain ⟨there,same⟩ := findSome found
    rw [equalOfKey archival.keyed there member (by simpa using same)]

end McpMemory.Memory
