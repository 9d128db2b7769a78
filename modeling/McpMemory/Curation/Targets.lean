import McpMemory.Curation.Adapter
import McpMemory.Curation.Runs

/-! A mutation tool call changes only memories that it names: the targets of its action are
the memories that the policy would look at. -/
namespace McpMemory.Curation
open Memory Text Transaction

variable (env : ToolEnv) (config : Config)

/- A memory that was there is not as it was, in its row, its mappings or its links. -/
def Changes (memoryId : String) (before after : Database) : Prop :=
  before.memory.has memoryId ∧ portrait memoryId after.memory ≠ portrait memoryId before.memory

structure Unlocked (memoryId : String) (seen : Portrait) (work : Work) : Prop where
  same : portrait memoryId work.database.memory = seen
  apart : locked memoryId work = false

theorem unlockedFrame {memoryId seen} (there : seen.row.isSome)
    (internal : startsWith memoryId "ext:" = false) :
    Frame (· ≠ memoryId) (· ≠ memoryId) (Unlocked memoryId seen) where
  guards work after start differs :=
    ⟨(differs.portrait memoryId (fun kept => kept rfl) fun kept => kept rfl).trans start.same,start.apart⟩
  notes work after start notes := by
    refine ⟨Eq.trans ?_ start.same,start.apart⟩
    simp only [portrait,selectRow,port,notes.memories,notes.workspaces,notes.memoryTags,notes.links]
  ledger _ _ _ start := ⟨start.same,start.apart⟩
  touched _ _ start := ⟨start.same,start.apart⟩
  newIds work other named start := ⟨start.same,by
    have apart := start.apart
    simp only [locked,Bool.or_eq_false_iff,List.contains_eq_mem,decide_eq_false_iff_not] at apart ⊢
    simpa [named.symm] using apart⟩
  access work other start := by
    rintro (held | absent) rfl
    · rw [start.apart] at held; cases held
    · rw [← start.same,← hasIff,absent] at there; cases there
  within _ named := named
  external other external := by rintro rfl; rw [internal] at external; cases external

abbrev Undeleted (command : Command) : Prop := ¬ command.deletes

theorem failsWithin {α : Type} {script : Service α} (fails : script.Fails) : script.Within Undeleted := by
  cases script with
  | done value => exact fails.elim
  | fail error => trivial
  | call command next => exact .inr fails

theorem discardFails (error : ActionError) (records : List MemoryRecord) : (discard error records).Fails := by
  induction records with
  | nil => trivial
  | cons record rest ih => exact fun reply => by cases reply with
    | ok _ => exact ih
    | error other => trivial

theorem asked {command : Command} (fine : Undeleted command) :
    (ask command : Service (Reply command)).Within Undeleted := withinAsk fine

theorem recordsWithin (arguments : Json.Object) : (maybeRecord arguments).Within Undeleted :=
  withinBind (withinCheck _) fun _ => trivial

theorem archiveWithin (arguments : Json.Object) : (archiveMemoryRecord arguments).Within Undeleted := by
  refine withinBind (withinCheck _) fun memoryId => withinBind (asked id) fun updated => ?_
  cases updated with
  | none => trivial
  | some updated =>
    exact withinBind (recordsWithin _) fun _ => withinBind (withinCheck _) fun _ => trivial

theorem foundWithin (record : Option MemoryRecord) : (assertFound record).Within Undeleted := by
  cases record <;> trivial

theorem mergeWithin (arguments : Json.Object) :
    (mergeMemoryIntoCanonical env arguments).Within Undeleted := by
  refine withinBind (withinCheck _) fun canonicalId => withinBind (withinCheck _) fun sourceId =>
    withinBind (asked id) fun canonical => withinBind (asked id) fun source => ?_
  cases canonical with
  | none => trivial
  | some canonical => cases source with
    | none => trivial
    | some source =>
      exact withinBind (withinCheck _) fun _ => withinBind (withinCheck _) fun _ =>
        withinBind (withinCheck _) fun _ => withinBind (withinCheck _) fun _ =>
        withinBind (withinCheck _) fun _ => withinBind (withinCheck _) fun _ =>
        withinBind (asked id) fun updated => withinBind (foundWithin updated) fun _ =>
        withinBind (withinCheck _) fun _ => withinBind (asked id) fun _ => withinBind (asked id) fun _ =>
        withinBind (recordsWithin _) fun _ => withinBind (withinCheck _) fun _ =>
        withinBind (withinCheck _) fun _ => trivial

theorem createdWithin (original : MemoryRecord) (linkType linkContext : String) (parts : List SplitPart) :
    ∀ created, (createParts original linkType linkContext created parts).Within Undeleted := by
  induction parts with
  | nil => exact fun _ => trivial
  | cons part rest ih =>
    intro created
    refine .inl ⟨id,fun reply => ?_⟩
    rcases reply with error | _ | record
    · exact failsWithin (discardFails error created)
    · exact failsWithin (discardFails _ created)
    · refine .inl ⟨id,fun linked => ?_⟩
      cases linked with
      | error error => exact failsWithin (discardFails error _)
      | ok _ => exact ih _

theorem refreshedWithin (childIds : List String) (records : List MemoryRecord) :
    (refreshParts childIds records).Within Undeleted := by
  induction records with
  | nil => trivial
  | cons created rest ih => exact withinBind (asked id) fun _ => withinBind ih fun _ => trivial

theorem splitWithin (groupId : String) (arguments : Json.Object) :
    (splitMemoryRecord env groupId arguments).Within Undeleted := by
  refine withinBind (withinCheck _) fun memoryId => withinBind (asked id) fun original => ?_
  cases original with
  | none => trivial
  | some original =>
    dsimp only
    split
    · trivial
    · refine withinBind (withinCheck _) fun _ => withinBind (withinCheck _) fun _ =>
        withinBind (withinCheck _) fun archiveOriginal => withinBind (withinCheck _) fun parts => ?_
      cases parts with
      | none => trivial
      | some parts =>
        exact withinBind (createdWithin _ _ _ parts []) fun _ => withinBind (refreshedWithin _ _) fun _ =>
          withinBind (asked id) fun _ => withinBind (recordsWithin _) fun _ => withinBind (withinCheck _) fun _ =>
          withinBind (withinCheck _) fun _ => withinBind (withinCheck _) fun _ => trivial

theorem updateWithin (arguments : Json.Object) : (updateMemoryRecord env arguments).Within Undeleted := by
  refine withinBind (withinCheck _) fun memoryId => withinBind (asked id) fun record => ?_
  cases record with
  | none => trivial
  | some record =>
    dsimp only
    split
    · trivial
    · refine withinBind (withinCheck _) fun _ => withinBind (withinCheck _) fun _ =>
        withinBind (withinCheck _) fun _ => withinBind (withinCheck _) fun _ =>
        withinBind (withinCheck _) fun _ => ?_
      split
      · trivial
      · refine withinBind (withinCheck _) fun _ => withinBind (withinCheck _) fun _ =>
          withinBind (withinCheck _) fun _ => withinBind (asked id) fun updated => ?_
        cases updated with
        | none => trivial
        | some updated =>
          exact withinBind (recordsWithin _) fun _ => withinBind (withinCheck _) fun _ => trivial

theorem linkWithin (arguments : Json.Object) : (createMemoryLink arguments).Within Undeleted := by
  refine withinBind (withinCheck _) fun _ => withinBind (withinCheck _) fun targetId =>
    withinBind (withinCheck _) fun _ => withinBind (withinCheck _) fun _ => withinBind (asked id) fun source =>
    withinBind ?_ fun found => ?_
  · unfold targetFound
    split
    · trivial
    · exact withinBind (asked id) fun _ => trivial
  · split
    · trivial
    · exact withinBind (asked id) fun _ => withinBind (recordsWithin _) fun _ => trivial

theorem unlinkWithin (arguments : Json.Object) : (deleteMemoryLink arguments).Within Undeleted := by
  refine withinBind (withinCheck _) fun _ => withinBind (withinCheck _) fun _ =>
    withinBind (withinCheck _) fun _ => withinBind (asked id) fun deleted => ?_
  split
  · exact withinBind (recordsWithin _) fun _ => trivial
  · trivial

/- No service deletes a memory and then returns. -/
theorem applyWithin (call : ToolCall) : (apply env call).Within Undeleted := by
  refine withinBind ?_ fun answer => ?_
  · unfold service
    split
    · exact updateWithin env call.arguments
    · exact archiveWithin call.arguments
    · exact mergeWithin env call.arguments
    · exact splitWithin env call.splitGroupId call.arguments
    · exact linkWithin call.arguments
    · exact unlinkWithin call.arguments
  · dsimp only
    split <;> trivial

theorem applySpares {memoryId seen call} (there : seen.row.isSome) (internal : startsWith memoryId "ext:" = false)
    {oracle session result after}
    (ran : (apply env call).play (perform env.actions config) oracle session = (.ok result,after))
    (start : Unlocked memoryId seen session.data) : Unlocked memoryId seen after.data :=
  withinPlay (fun command fine =>
    framedPerform env.actions config (unlockedFrame there internal).guarded command (.inl fine)) (applyWithin env call) ran start

theorem transactionSpares {memoryId attempt call tokens p database} (oracle : Oracle ActionError)
    (asked : attempt = attemptOf env config oracle call tokens) (there : database.memory.has memoryId)
    (internal : startsWith memoryId "ext:" = false) (apart : memoryId ∉ p.targets) :
    portrait memoryId (runTransaction env.actions attempt p database).2.memory =
      portrait memoryId database.memory := by
  cases asked
  have frame := unlockedFrame (hasIff.mp there) internal
  rcases @framedTransaction env.actions _ _ frame.still frame.toAside (attemptOf env config oracle call tokens) p
    database (fun _ _ _ => applySpares env config (hasIff.mp there) internal)
    ⟨rfl,by simpa [locked] using apart⟩ with same | ⟨work,kept,same⟩
  · rw [same]
  · rw [same]
    exact kept.same

/- Whatever the call, its outcome and the state it read before its transaction. -/
theorem changesTargets {oracle call seen database memoryId} (internal : startsWith memoryId "ext:" = false)
    (changes : Changes memoryId database (executeCuratorMutation env config oracle call seen database).2) :
    ∃ given ∈ targetIds call, canonicalId env.actions given = memoryId := by
  obtain ⟨there,changed⟩ := changes
  unfold executeCuratorMutation at changed
  split at changed
  · split at changed <;> exact absurd rfl changed
  · split at changed
    · exact absurd rfl changed
    · dsimp only at changed
      split at changed
      · exact absurd rfl changed
      · rename_i p prepared
        split at changed
        · exact absurd rfl changed
        · by_contra apart
          have missed : memoryId ∉ p.targets := fun member => apart ((preparedTargets env.actions prepared).mp member)
          exact changed (transactionSpares env config oracle rfl there internal missed)

end McpMemory.Curation
