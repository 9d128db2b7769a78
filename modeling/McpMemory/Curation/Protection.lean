import Mathlib.Data.Finset.Basic
import Mathlib.Data.Fintype.EquivFin
import McpMemory.Curation.Policy
import McpMemory.Curation.RewriteCommits

/-! Protections and the mutation tools. Nothing on the way of a call reads a protection, so the
policy holds of a call exactly as far as the caller kept to it. -/
namespace McpMemory.Curation
open Memory Text Transaction Table

def bindingModes : List ProtectionMode := [.noAutonomousMutation,.manualReviewRequired,
  .noAutonomousDestructiveChange,.pinnedActive]

/- No active protection of the memory binds a curator. -/
def Unbound (clock : Clock) (protections : List Protection) (memoryId : String) : Prop :=
  ∀ mode ∈ activeModes clock protections memoryId, mode ∉ bindingModes

variable {clock : Clock} {protections : List Protection} {memoryId : String}

theorem unboundPermits (unbound : Unbound clock protections memoryId) (operation : String) :
    permits clock protections operation [memoryId] := by
  rw [permits,rejectsNone]
  simp only [List.flatMap_cons,List.flatMap_nil,List.append_nil]
  intro mode active
  have here := unbound mode active
  cases mode <;> simp_all [forbids,bindingModes]

theorem permitsUnbound (permitted : permits clock protections "rewrite_memory" [memoryId]) :
    Unbound clock protections memoryId := by
  rw [permits,rejectsNone] at permitted
  simp only [List.flatMap_cons,List.flatMap_nil,List.append_nil] at permitted
  intro mode active
  have here := permitted mode active
  cases mode <;> simp_all [forbids,bindingModes,destructiveOperations]

theorem freshText (texts : List String) : ∃ text, text ∉ texts := by
  obtain ⟨text,fresh⟩ := Infinite.exists_notMem_finset texts.toFinset
  exact ⟨text,by simpa using fresh⟩

theorem freshEvent (t : Tables) : ∃ eventId, Fresh eventId t := by
  obtain ⟨eventId,fresh⟩ := freshText (t.events.map (·.id) ++ t.recordRevisions.map (·.eventId))
  simp only [List.mem_append,List.mem_map,not_or,not_exists,not_and] at fresh
  exact ⟨eventId,fresh⟩

theorem otherTitle (title : String) : ∃ other, Unremarkable other ∧ other ≠ title := by
  have first : Unremarkable "first" := ⟨by decide,by decide,by decide,by decide,by decide⟩
  have second : Unremarkable "second" := ⟨by decide,by decide,by decide,by decide,by decide⟩
  by_cases same : title = "first"
  · exact ⟨"second",second,by rw [same]; decide⟩
  · exact ⟨"first",first,Ne.symm same⟩

theorem rewriteChangesMemory {t after : Tables} {row now title} (found : selectRow memoryId t = some row)
    (apart : title ≠ row.title)
    (rewrote : selectRow memoryId after = some (rewriting now (rewriteUpdate title) row)) :
    portrait memoryId after ≠ portrait memoryId t := by
  intro same
  have rows := congrArg Portrait.row same
  simp only [portrait,found,rewrote,Option.some.injEq] at rows
  exact apart (congrArg MemoryRow.title rows)

/- A call whose named memories the policy would all let pass changes no other memory. Over all
calls, what a memory can suffer is what the policy permits if and only if no protection
binds it. -/
theorem protectionsBind (clock : Clock) (env : ToolEnv) (plain : env.unicode.Plain) :
    (∀ config oracle call seen database,
      permits clock database.protections (operation call) ((targetIds call).map (canonicalId env.actions)) →
      ∀ memoryId, startsWith memoryId "ext:" = false →
        Changes memoryId database (executeCuratorMutation env config oracle call seen database).2 →
        permits clock database.protections (operation call) [memoryId]) ∧
    ∀ database memoryId row runId evidenceId key, Live env.toEnv database.memory memoryId row →
      Open database runId (env.directActionId evidenceId) key →
      ((∀ config oracle call seen,
          Changes memoryId database (executeCuratorMutation env config oracle call seen database).2 →
          permits clock database.protections (operation call) [memoryId]) ↔
        Unbound clock database.protections memoryId) := by
  constructor
  · intro config oracle call seen database permitted memoryId internal changes
    obtain ⟨named,target,rfl⟩ := changesTargets env config internal changes
    exact (permitsEach clock).mp permitted _ (List.mem_map.mpr ⟨named,target,rfl⟩)
  · intro database memoryId row runId evidenceId key live opened
    constructor
    · intro kept
      obtain ⟨eventId,fresh⟩ := freshEvent database.memory
      obtain ⟨title,fine,apart⟩ := otherTitle row.title
      let now : Moment ActionError := ⟨none,eventId,"now",0⟩
      obtain ⟨receipt,after,ran,rewrote⟩ := @rewriteCommits memoryId now env database title runId evidenceId key row
        ⟨"",none⟩ rfl plain rfl fine live opened fresh
      have there : database.memory.has memoryId := hasIff.mpr (by simp [portrait,live.found])
      refine permitsUnbound (kept ⟨"",none⟩ (fun _ => now) (rewriteCall memoryId title runId evidenceId key) database ?_)
      rw [ran]
      exact ⟨there,rewriteChangesMemory live.found apart rewrote⟩
    · exact fun unbound config oracle call seen _ => unboundPermits unbound (operation call)

/- A note that no curator may touch, and a curator that rewrites it. -/

def noteId : String := "00000000-0000-0000-0000-000000000001"

def noteRow : MemoryRow := ⟨noteId,some 1,"note","kept as it is",some "note","fact","active","t0","t0",none,[]⟩

def protectedNote : Database := { Database.empty with
  memory := { Memory.empty with memories := [noteRow], workspaces := [(noteId,"w")] }
  curation := ⟨[⟨"run",none,"frontier","context",none,none,.executing,"t0"⟩],[]⟩
  protections := [⟨noteId,"no_autonomous_mutation","kept by hand",none,"t0",none⟩] }

def asciiTools : ToolEnv where
  unicode := ⟨id,id,id,idParts⟩
  sha256 := id
  buildSummary title _ _ := title
  repr _ := ""
  directActionId := id

def noon : Clock := ⟨fun _ => none,0⟩

def quietNoon : Moment ActionError := ⟨none,"event","t1",0⟩

theorem asciiPlain : asciiTools.unicode.Plain := ⟨fun _ _ => rfl,fun _ _ => rfl⟩

theorem noteLive : Live asciiTools.toEnv protectedNote.memory noteId noteRow where
  named := by decide +kernel
  found := rfl
  referenced := by simp [noteRow]
  token := (tokenedBare asciiPlain rfl).imp fun _ made => made.token

theorem noteOpen : Open protectedNote "run" (asciiTools.directActionId "evidence") "key" where
  run := ⟨_,rfl,by decide,⟨none,rfl⟩,none,rfl⟩
  unreceived := rfl
  unrecorded _ member := by cases member
  keyed := by decide
  unkeyed _ member := by cases member

theorem protectionsBindSample : Unbound noon protectedNote.protections noteId ↔
    ∀ config oracle call seen,
      Changes noteId protectedNote (executeCuratorMutation asciiTools config oracle call seen protectedNote).2 →
      permits noon protectedNote.protections (operation call) [noteId] :=
  ((protectionsBind noon asciiTools asciiPlain).2 protectedNote noteId noteRow "run" "evidence" "key" noteLive
    noteOpen).symm

theorem protectionIgnored :
    let call := rewriteCall noteId "first" "run" "evidence" "key"
    Changes noteId protectedNote
      (executeCuratorMutation asciiTools ⟨"",none⟩ (fun _ => quietNoon) call protectedNote protectedNote).2 ∧
    permits noon protectedNote.protections (operation call) [noteId] = false := by
  have first : Unremarkable "first" := ⟨by decide,by decide,by decide,by decide,by decide⟩
  have fresh : Fresh "event" protectedNote.memory :=
    ⟨fun _ member => (by cases member),fun _ member => (by cases member)⟩
  obtain ⟨receipt,after,ran,rewrote⟩ := @rewriteCommits noteId quietNoon asciiTools protectedNote "first" "run" "evidence"
    "key" noteRow ⟨"",none⟩ rfl asciiPlain rfl first noteLive noteOpen fresh
  refine ⟨?_,by decide⟩
  rw [ran]
  exact ⟨by decide,rewriteChangesMemory noteLive.found (by decide) rewrote⟩

end McpMemory.Curation
