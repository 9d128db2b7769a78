import McpMemory.Relational.Shapes

/-! The rows of the memories after an update or a link of the plain repository: what they may be
however it ends, and what they are where it answers. -/
namespace McpMemory.Relational
open Memory Table Text Transaction
open Curation (ActionError UpdateValues repositoryMemory)

variable (env : Curation.Env)

/- The rows after an update of the memory under `memoryId`. -/
def Updates (changes : UpdateValues) (memoryId : String) (before after : Tables) : Prop :=
  ∃ existing revised now, repositoryMemory before memoryId = .ok (some existing) ∧ validateUpdate changes = .ok revised ∧
    after.memories = update (·.id == existing.id) (revise env existing changes revised now) before.memories

theorem validated {changes : UpdateValues} {revised} (given : validateUpdate changes = .ok revised) :
    revised.status = changes.status.map strip ∧ revised.content = changes.content.join.map strip := by
  unfold validateUpdate at given
  split at given
  · cases given
  · obtain ⟨memoryType,_,afterType⟩ := checkedOk.mp given
    obtain ⟨status,checked,afterStatus⟩ := checkedOk.mp afterType
    obtain ⟨_,_,afterTitle⟩ := checkedOk.mp afterStatus
    obtain ⟨_,_,last⟩ := checkedOk.mp afterTitle
    split at last
    · cases last
    · cases last
      refine ⟨?_,rfl⟩
      cases wanted : changes.status with
      | none =>
        rw [wanted] at checked
        cases checked
        rfl
      | some text =>
        rw [wanted] at checked
        obtain ⟨value,valid,rfl⟩ := mappedOk.mp checked
        unfold validateMemoryStatus at valid
        split at valid <;> cases valid
        rfl

theorem selectUpdate {before after : Tables} {memoryId other : String} {set : MemoryRow → MemoryRow}
    (same : ∀ row, (set row).id = row.id) (rows : after.memories = update (·.id == memoryId) set before.memories) :
    selectRow other after = if other = memoryId then (selectRow other before).map set else selectRow other before := by
  unfold selectRow
  rw [rows,findKept fun row => by rw [same]]
  split
  · rename_i here
    subst here
    cases found : before.memories.find? (·.id == other) with
    | none => rfl
    | some row =>
      have named : row.id = other := by simpa using (findSome found).2
      simp [named]
  · rename_i apart
    cases found : before.memories.find? (·.id == other) with
    | none => rfl
    | some row =>
      have named : row.id = other := by simpa using (findSome found).2
      simp [named,apart]

theorem foundRow {t : Tables} {memoryId : String} {row} (there : selectRow memoryId t = some row) :
    repositoryMemory t memoryId = .ok (some (hydrateRecord t row)) ∧ row.id = memoryId := by
  obtain ⟨member,named⟩ := findSome there
  have has : t.has memoryId := List.any_eq_true.mpr ⟨row,member,named⟩
  refine ⟨?_,by simpa using named⟩
  rw [Curation.repositoryOwn has,recordById,there]
  rfl

theorem updateRows {seen memoryId changes} {oracle : Oracle ActionError} {session : Session Tables} :
    let after := (updateMemory env seen memoryId changes oracle session).2.data
    after.memories = session.data.memories ∨ ∃ existing revised now, Found seen session.data memoryId existing ∧
      validateUpdate changes = .ok revised ∧
      after.memories = update (·.id == existing.id) (revise env existing changes revised now) session.data.memories := by
  have shaped := shapePerform env seen (.updateMemory memoryId changes) session.data oracle session rfl
  obtain ⟨middle,same | ⟨existing,revised,now,found,given,ran⟩,beside⟩ := shaped
  · exact .inl (beside.memories.trans (congrArg (·.memories) same))
  · cases ran
    exact .inr ⟨existing,revised,now,found,given,beside.memories⟩

theorem addLinkRows {sourceId targetId linkType context} {oracle : Oracle ActionError} {session : Session Tables} :
    (addLink env sourceId targetId linkType context oracle session).2.data.memories = session.data.memories := by
  have shaped := shapePerform env none (.addLink sourceId targetId linkType context) session.data oracle session rfl
  obtain ⟨middle,same | ⟨normalized,given,ran⟩,beside⟩ := shaped
  · exact beside.memories.trans (congrArg (·.memories) same)
  · refine beside.memories.trans ?_
    unfold replaceLink at ran
    split at ran <;> cases ran
    rfl

theorem lookOk {seen memoryId found} {oracle : Oracle ActionError} {session after : Session Tables}
    (ran : look seen memoryId oracle session = (.ok found,after)) :
    repositoryMemory (seen.getD session.data) memoryId = .ok found ∧ after.data = session.data := by
  have taken := statementOk ran
  obtain ⟨record,read,same⟩ := mappedOk.mp taken
  obtain ⟨rfl,kept⟩ := Prod.mk.inj same
  exact ⟨read,kept.symm⟩

theorem writeUpdateOk {existing changes revised} {oracle : Oracle ActionError} {session after : Session Tables}
    (ran : writeUpdate env existing changes revised oracle session = (.ok (),after)) :
    ∃ now, after.data.memories = update (·.id == existing.id) (revise env existing changes revised now) session.data.memories := by
  obtain ⟨now,begun,observed,writing⟩ := bindOk.mp ran
  obtain ⟨_,written,first,later⟩ := bindOk.mp writing
  obtain ⟨rfl,rfl⟩ := observeOk.mp observed
  obtain ⟨changed,effect,put⟩ := onTablesOk first
  cases effect
  -- what comes after the rows are written leaves them alone
  have closed := @closedShaped (fun _ => False) written.data _ _ port lawful
  have kept : Shape (fun _ => False) written.data after.data := by
    refine (@Ensures.kept _ _ _ _ (fun _ => True) _ (ensuresBind (shapedMapped (closedReplaceWorkspaces closed (mapsBeside _)) _)
      fun _ _ => ensuresBind (shapedMapped (shapedReplaceTagMappings _) _) fun _ _ =>
      ensuresBind (closedSelect closed (mapsBeside "").refl _) fun current _ => ?_) _ _ _ _ later shapedSame).1
    cases current with
    | none => exact ensuresRaise _
    | some current =>
      exact ensuresBind (closedOnTables closed ((mapsBeside "").deleteSearchDocuments _)) fun _ _ =>
        shapedInsertFtsRow _ _ _ _ _
  obtain ⟨middle,same | made,beside⟩ := kept
  · refine ⟨(oracle session.moment).text,beside.memories.trans ?_⟩
    rw [same,put]
    rfl
  · cases made

/- Either there was no such memory, or the rows are written and the answer is read from them. -/
theorem updateOk {seen memoryId changes found} {oracle : Oracle ActionError} {session after : Session Tables}
    (ran : updateMemory env seen memoryId changes oracle session = (.ok found,after)) :
    (found = none ∧ repositoryMemory (seen.getD session.data) memoryId = .ok none ∧ after.data = session.data) ∨
    ∃ existing revised now, Found seen session.data memoryId existing ∧ validateUpdate changes = .ok revised ∧
      after.data.memories = update (·.id == existing.id) (revise env existing changes revised now) session.data.memories ∧
      repositoryMemory after.data existing.id = .ok found := by
  obtain ⟨existing,looked,first,next⟩ := bindOk.mp ran
  obtain ⟨read,kept⟩ := lookOk first
  cases existing with
  | none =>
    obtain ⟨rfl,rfl⟩ := pureOk.mp next
    exact .inl ⟨rfl,read,kept⟩
  | some existing =>
    obtain ⟨revised,checked,lifted,writing⟩ := bindOk.mp next
    obtain ⟨_,written,second,last⟩ := bindOk.mp writing
    obtain ⟨given,rfl⟩ := liftOk.mp lifted
    obtain ⟨middle,inner,committed⟩ := atomicallyOk second
    obtain ⟨now,rows⟩ := writeUpdateOk env inner
    obtain ⟨answer,still⟩ := lookOk last
    refine .inr ⟨existing,revised,now,read,given,?_,?_⟩
    · rw [still,committed,rows,kept]
    · rw [still]
      exact answer

theorem selectSame {memoryId : String} {before after : Tables} (rows : after.memories = before.memories) :
    selectRow memoryId after = selectRow memoryId before := by
  unfold selectRow
  rw [rows]

/- An update of a memory that is there, row by row. -/
theorem updatesRows {changes : UpdateValues} {memoryId : String} {before after : Tables} {row}
    (there : selectRow memoryId before = some row) (updates : Updates env changes memoryId before after) :
    ∃ revised now, validateUpdate changes = .ok revised ∧ ∀ other, selectRow other after =
      if other = memoryId then some (revise env (hydrateRecord before row) changes revised now row)
      else selectRow other before := by
  obtain ⟨existing,revised,now,found,given,rows⟩ := updates
  obtain ⟨read,named⟩ := foundRow there
  cases read.symm.trans found
  refine ⟨revised,now,given,fun other => ?_⟩
  have same : ∀ old, (revise env (hydrateRecord before row) changes revised now old).id = old.id := fun _ => rfl
  have named : (hydrateRecord before row).id = memoryId := named
  rw [named] at rows
  rw [selectUpdate same rows]
  split
  · rename_i here
    rw [here,there]
    rfl
  · rfl

/- An update of a memory that is there: it writes the rows or none, and where it answers it has
written them and answers with what it reads then. -/
theorem updateHere {changes : UpdateValues} {memoryId : String} {t : Tables} {row}
    (there : selectRow memoryId t = some row) {oracle : Oracle ActionError} {moment : Nat} :
    let reply := updateMemory env none memoryId changes oracle ⟨t,moment⟩
    (reply.2.data.memories = t.memories ∨ Updates env changes memoryId t reply.2.data) ∧
    ∀ found, reply.1 = .ok found → Updates env changes memoryId t reply.2.data ∧
      ∃ record, found = some record ∧ selectRow memoryId reply.2.data = some record.toMemoryRow := by
  obtain ⟨read,named⟩ := foundRow there
  constructor
  · rcases @updateRows env none memoryId changes oracle ⟨t,moment⟩ with same | ⟨existing,revised,now,found,given,rows⟩
    · exact .inl same
    · exact .inr ⟨existing,revised,now,found,given,rows⟩
  · intro found answered
    have ran : updateMemory env none memoryId changes oracle ⟨t,moment⟩ =
        (.ok found,(updateMemory env none memoryId changes oracle ⟨t,moment⟩).2) := Prod.ext answered rfl
    rcases updateOk env ran with ⟨_,missing,_⟩ | ⟨existing,revised,now,here,given,rows,answer⟩
    · cases read.symm.trans missing
    · have updates : Updates env changes memoryId t (updateMemory env none memoryId changes oracle ⟨t,moment⟩).2.data :=
        ⟨existing,revised,now,here,given,rows⟩
      cases read.symm.trans here
      obtain ⟨_,_,_,selected⟩ := updatesRows env there updates
      have later := (selected memoryId).trans (if_pos rfl)
      obtain ⟨readLater,_⟩ := foundRow later
      have named : (hydrateRecord t row).id = memoryId := named
      rw [named,readLater] at answer
      cases answer
      exact ⟨updates,_,rfl,later⟩

end McpMemory.Relational
