import McpMemory.Curation.Runs
import McpMemory.Curation.Shapes
import McpMemory.Ingress.Shapes
import McpMemory.Maintenance.Housekeeping
import McpMemory.Relational.Shapes

/-! The ways in which the memories and the links of the one database are written. Each is one
transaction; the commands of a client of the repository are one each, so that a client is
a series of scripts and others write between them. -/
namespace McpMemory.Relational
open Memory Transaction
open Curation (ActionError Command Reply)

inductive Write where
  | repository (seen : Option Tables) (script : Curation.Service Curation.Answer) (oracle : Oracle ActionError)
  | curation (attempt : Curation.Attempt)
  | ingress (attempt : Ingress.Attempt)
  | staleness (cutoff : String) (workspaceId : Option String)
  | factCheck (present : Maintenance.ExternalLink → Bool)
  | sweep (sweep : Maintenance.Sweep)

variable (env : Curation.Env) (domain : Ingress.Env)

/- `executeAction` looks for a receipt first, which changes nothing. -/
def curate (attempt : Curation.Attempt) (database : Database) : Database :=
  match Curation.prepare env attempt.request with
  | .error _ => database
  | .ok p => (Curation.runTransaction env attempt p database).2

def apply (write : Write) (database : Database) : Database :=
  match write with
  | .repository seen script oracle =>
    { database with memory := (script.play (perform env seen) oracle ⟨database.memory,0⟩).2.data }
  | .curation attempt => curate env attempt database
  | .ingress attempt => (Ingress.execute domain attempt database).2
  | .staleness cutoff workspaceId =>
    { database with memory := Maintenance.markStalePlans cutoff workspaceId database.memory }
  | .factCheck present => { database with memory := Maintenance.factCheck present database.memory }
  | .sweep sweep => Maintenance.gcArchivedMemories sweep database

/- A condition on the commands of a write, each in the state in which it is issued. -/
structure Allowed where
  repository : Option Tables → Command → Tables → Prop
  curation : Command → Tables → Prop
  ingress : Ingress.Command → Tables → Prop
  factCheck : (Maintenance.ExternalLink → Bool) → Tables → Prop

/- The work of an action when its callback begins. -/
structure Begun (targets : List String) (t : Tables) (work : Curation.Work) : Prop where
  memory : work.database.memory = t
  targetIds : work.targetIds = targets
  newIds : work.newIds = []

def Allowed.On (allowed : Allowed) : Write → Database → Prop
  | .repository seen script oracle,database =>
    script.Meets (perform env seen) (allowed.repository seen) oracle ⟨database.memory,0⟩
  | .curation attempt,database => ∀ p session, Curation.prepare env attempt.request = .ok p →
    Begun p.targets database.memory session.data → attempt.callback.Meets (Curation.perform env attempt.config)
      (fun command work => allowed.curation command work.database.memory) attempt.oracle session
  | .ingress attempt,database => ∀ session : Session Ingress.Work, session.data.database.memory = database.memory →
    attempt.callback.Meets (Ingress.perform domain) (fun command work => allowed.ingress command work.database.memory)
      attempt.oracle session
  | .factCheck present,database => allowed.factCheck present database.memory
  | _,_ => True

/- What the commands keep where they are allowed, and what depends on the memories and the links
alone, the writes keep. -/
structure Kept (allowed : Allowed) (inv : Tables → Prop) : Prop where
  beside : ∀ before after, Beside before after → inv before → inv after
  repository : ∀ seen command before after, allowed.repository seen command before → inv before →
    Change env seen command before after → inv after
  curation : ∀ command before after, allowed.curation command before → inv before →
    Curation.Change env command before after → inv after
  ingress : ∀ command before after, allowed.ingress command before → inv before →
    Ingress.Change domain command before after → inv after
  staleness : ∀ cutoff workspaceId t, inv t → inv (Maintenance.markStalePlans cutoff workspaceId t)
  factCheck : ∀ present t, allowed.factCheck present t → inv t → inv (Maintenance.factCheck present t)
  deletes : ∀ t after memoryId, inv t → after.memories = t.memories.filter (·.id != memoryId) →
    (after.links = t.links.filter fun link => !(link.sourceId == memoryId || link.targetId == memoryId)) → inv after

section
variable {env domain} {inv : Tables → Prop} (beside : ∀ before after, Beside before after → inv before → inv after)
include beside

theorem repositoryKeeps {seen} {script : Curation.Service Curation.Answer} {oracle} {ok : Command → Tables → Prop}
    (changed : ∀ command before after, ok command before → inv before → Change env seen command before after → inv after)
    {t : Tables} (fine : script.Meets (perform env seen) ok oracle ⟨t,0⟩) (start : inv t) :
    inv (script.play (perform env seen) oracle ⟨t,0⟩).2.data :=
  meetsPlay (fun command session fine start => shapedKeeps beside (fun middle => changed command _ middle fine start)
    (shapePerform env seen command _ oracle session rfl) start) fine start

theorem curateKeeps {attempt : Curation.Attempt} {ok : Command → Tables → Prop}
    (changed : ∀ command before after, ok command before → inv before → Curation.Change env command before after → inv after)
    {database} (fine : ∀ p session, Curation.prepare env attempt.request = .ok p →
      Begun p.targets database.memory session.data → attempt.callback.Meets (Curation.perform env attempt.config)
        (fun command work => ok command work.database.memory) attempt.oracle session)
    (start : inv database.memory) : inv (curate env attempt database).memory := by
  unfold curate
  cases prepared : Curation.prepare env attempt.request with
  | error error => exact start
  | ok p =>
    have still : Curation.Still (Begun p.targets database.memory) :=
      ⟨fun _ _ begun same => ⟨same ▸ begun.memory,begun.targetIds,begun.newIds⟩,fun _ _ _ begun =>
        ⟨begun.memory,begun.targetIds,begun.newIds⟩⟩
    have aside : Curation.Aside fun work => inv work.database.memory :=
      ⟨fun work after start notes => beside _ after (notesBeside notes) start,fun _ _ _ start => start⟩
    have step : ∀ command (session : Session Curation.Work), ok command session.data.database.memory →
        inv session.data.database.memory →
        inv (Curation.perform env attempt.config command attempt.oracle session).2.data.database.memory :=
      fun command session fine start => shapedKeeps beside (fun middle => changed command _ middle fine start)
        (Curation.shapePerform env attempt.config command _ attempt.oracle session rfl) start
    have played : ∀ session result after, attempt.callback.play (Curation.perform env attempt.config) attempt.oracle
        session = (.ok result,after) → Begun p.targets database.memory session.data → inv after.data.database.memory := by
      intro session result after ran begun
      have ending := @meetsPlay _ _ _ _ _ _ (fun work => inv work.database.memory) _ _ step _ _
        (fine p session prepared begun) (begun.memory ▸ start)
      rwa [ran] at ending
    rcases @Curation.framedTransaction env _ _ still aside attempt p database played ⟨rfl,rfl,rfl⟩ with
      same | ⟨work,held,same⟩
    · rw [same]
      exact start
    · rw [same]
      exact held

theorem ingressKeeps {attempt : Ingress.Attempt} {ok : Ingress.Command → Tables → Prop}
    (changed : ∀ command before after, ok command before → inv before → Ingress.Change domain command before after → inv after)
    {database} (fine : ∀ session : Session Ingress.Work, session.data.database.memory = database.memory →
      attempt.callback.Meets (Ingress.perform domain) (fun command work => ok command work.database.memory)
        attempt.oracle session)
    (start : inv database.memory) : inv (Ingress.execute domain attempt database).2.memory := by
  have step : ∀ command (session : Session Ingress.Work), ok command session.data.database.memory →
      inv session.data.database.memory →
      inv (Ingress.perform domain command attempt.oracle session).2.data.database.memory :=
    fun command session fine start => shapedKeeps beside (fun middle => changed command _ middle fine start)
      (Ingress.shapePerform domain command _ attempt.oracle session rfl) start
  have played : ∀ session result after, attempt.callback.play (Ingress.perform domain) attempt.oracle session =
      (.ok result,after) → Ingress.tablesOf session.data = database.memory → inv (Ingress.tablesOf after.data) := by
    intro session result after ran begun
    have here : inv (Ingress.tablesOf session.data) := begun ▸ start
    have ending := @meetsPlay _ _ _ _ _ _ (fun work => inv work.database.memory) _ _ step _ _ (fine session begun) here
    rwa [ran] at ending
  rcases Ingress.notedExecute domain (fun before after notes => beside before after (notesBeside notes)) played with
    same | held
  · rw [same]
    exact start
  · exact held

end

section
variable {env domain} {allowed : Allowed} {inv : Tables → Prop} (kept : Kept env domain allowed inv)
include kept

theorem keptSweep (sweep : Maintenance.Sweep) {database : Database} (start : inv database.memory) :
    inv (Maintenance.gcArchivedMemories sweep database).memory := by
  have each : ∀ (memoryIds : List String) (database : Database), inv database.memory →
      inv (memoryIds.foldl (Maintenance.deleteArchived sweep) database).memory := by
    intro memoryIds
    induction memoryIds with
    | nil => exact fun _ => id
    | cons memoryId rest ih =>
      refine fun database start => ih _ ?_
      unfold Maintenance.deleteArchived
      dsimp only
      split
      · exact kept.deletes _ _ memoryId start rfl rfl
      · exact start
  unfold Maintenance.gcArchivedMemories
  dsimp only
  split
  · exact each _ database start
  · exact start

theorem keptApply {write : Write} {database} (fine : allowed.On env domain write database)
    (start : inv database.memory) : inv (apply env domain write database).memory := by
  cases write with
  | repository seen script oracle => exact repositoryKeeps kept.beside (kept.repository seen) fine start
  | curation attempt => exact curateKeeps kept.beside kept.curation fine start
  | ingress attempt => exact ingressKeeps kept.beside kept.ingress fine start
  | staleness cutoff workspaceId => exact kept.staleness cutoff workspaceId _ start
  | factCheck present => exact kept.factCheck present _ fine start
  | sweep sweep => exact keptSweep kept sweep start

/- And so do runs of them. -/
theorem keptRun {database writes} (fine : Interleave.Holding (apply env domain) (allowed.On env domain) database writes)
    (start : inv database.memory) : inv (Interleave.reach (apply env domain) database writes).memory :=
  @Interleave.reachHolding _ _ _ (fun database => inv database.memory) _ (fun _ _ => keptApply kept) _ _ fine start

end

end McpMemory.Relational
