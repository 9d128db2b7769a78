import McpMemory.Curation.Targets
import McpMemory.History.Restore
import McpMemory.Ingress.Service
import McpMemory.Relational.Archiving
import McpMemory.Relational.Documents

/-! The search index over whole runs of the writes that the program itself issues. Its own callbacks
let every exception of a command through, or undo their work and raise, so that no write that
stopped halfway is ever committed with the index behind. -/
namespace McpMemory

namespace Curation
open Memory Transaction

variable (env : ToolEnv)

theorem recordsPropagate (arguments : Json.Object) : (maybeRecord arguments).Propagates :=
  propagatesBind (propagatesCheck _) fun _ => trivial

theorem archivePropagates (arguments : Json.Object) : (archiveMemoryRecord arguments).Propagates := by
  refine propagatesBind (propagatesCheck _) fun memoryId => propagatesBind (propagatesAsk _) fun updated => ?_
  cases updated with
  | none => trivial
  | some updated =>
    exact propagatesBind (recordsPropagate _) fun _ => propagatesBind (propagatesCheck _) fun _ => trivial

theorem foundPropagates (record : Option MemoryRecord) : (assertFound record).Propagates := by
  cases record <;> trivial

theorem mergePropagates (arguments : Json.Object) : (mergeMemoryIntoCanonical env arguments).Propagates := by
  refine propagatesBind (propagatesCheck _) fun canonicalId => propagatesBind (propagatesCheck _) fun sourceId =>
    propagatesBind (propagatesAsk _) fun canonical => propagatesBind (propagatesAsk _) fun source => ?_
  cases canonical with
  | none => trivial
  | some canonical => cases source with
    | none => trivial
    | some source =>
      exact propagatesBind (propagatesCheck _) fun _ => propagatesBind (propagatesCheck _) fun _ =>
        propagatesBind (propagatesCheck _) fun _ => propagatesBind (propagatesCheck _) fun _ =>
        propagatesBind (propagatesCheck _) fun _ => propagatesBind (propagatesCheck _) fun _ =>
        propagatesBind (propagatesAsk _) fun updated => propagatesBind (foundPropagates updated) fun _ =>
        propagatesBind (propagatesCheck _) fun _ => propagatesBind (propagatesAsk _) fun _ =>
        propagatesBind (propagatesAsk _) fun _ => propagatesBind (recordsPropagate _) fun _ =>
        propagatesBind (propagatesCheck _) fun _ => propagatesBind (propagatesCheck _) fun _ => trivial

/- The `except` clause deletes what was made and raises, whatever the deletions answer. -/
theorem createdPropagates (original : MemoryRecord) (linkType linkContext : String) (parts : List SplitPart) :
    ∀ created, (createParts original linkType linkContext created parts).Propagates := by
  induction parts with
  | nil => exact fun _ => trivial
  | cons part rest ih =>
    intro created
    refine ⟨fun error => discardFails error created,fun reply => ?_⟩
    rcases reply with error | _ | record
    · exact failsPropagates (discardFails error created)
    · exact failsPropagates (discardFails _ created)
    · refine ⟨fun error => discardFails error _,fun linked => ?_⟩
      cases linked with
      | error error => exact failsPropagates (discardFails error _)
      | ok _ => exact ih _

theorem refreshedPropagates (childIds : List String) (records : List MemoryRecord) :
    (refreshParts childIds records).Propagates := by
  induction records with
  | nil => trivial
  | cons created rest ih =>
    exact propagatesBind (propagatesAsk _) fun _ => propagatesBind ih fun _ => trivial

theorem splitPropagates (groupId : String) (arguments : Json.Object) :
    (splitMemoryRecord env groupId arguments).Propagates := by
  refine propagatesBind (propagatesCheck _) fun memoryId => propagatesBind (propagatesAsk _) fun original => ?_
  cases original with
  | none => trivial
  | some original =>
    dsimp only
    split
    · trivial
    · refine propagatesBind (propagatesCheck _) fun _ => propagatesBind (propagatesCheck _) fun _ =>
        propagatesBind (propagatesCheck _) fun archiveOriginal => propagatesBind (propagatesCheck _) fun parts => ?_
      cases parts with
      | none => trivial
      | some parts =>
        exact propagatesBind (createdPropagates _ _ _ parts []) fun _ =>
          propagatesBind (refreshedPropagates _ _) fun _ => propagatesBind (propagatesAsk _) fun _ =>
          propagatesBind (recordsPropagate _) fun _ => propagatesBind (propagatesCheck _) fun _ =>
          propagatesBind (propagatesCheck _) fun _ => propagatesBind (propagatesCheck _) fun _ => trivial

theorem updatePropagates (arguments : Json.Object) : (updateMemoryRecord env arguments).Propagates := by
  refine propagatesBind (propagatesCheck _) fun memoryId => propagatesBind (propagatesAsk _) fun record => ?_
  cases record with
  | none => trivial
  | some record =>
    dsimp only
    split
    · trivial
    · refine propagatesBind (propagatesCheck _) fun _ => propagatesBind (propagatesCheck _) fun _ =>
        propagatesBind (propagatesCheck _) fun _ => propagatesBind (propagatesCheck _) fun _ =>
        propagatesBind (propagatesCheck _) fun _ => ?_
      split
      · trivial
      · refine propagatesBind (propagatesCheck _) fun _ => propagatesBind (propagatesCheck _) fun _ =>
          propagatesBind (propagatesCheck _) fun _ => propagatesBind (propagatesAsk _) fun updated => ?_
        cases updated with
        | none => trivial
        | some updated =>
          exact propagatesBind (recordsPropagate _) fun _ => propagatesBind (propagatesCheck _) fun _ => trivial

theorem linkPropagates (arguments : Json.Object) : (createMemoryLink arguments).Propagates := by
  refine propagatesBind (propagatesCheck _) fun _ => propagatesBind (propagatesCheck _) fun targetId =>
    propagatesBind (propagatesCheck _) fun _ => propagatesBind (propagatesCheck _) fun _ =>
    propagatesBind (propagatesAsk _) fun source => propagatesBind ?_ fun found => ?_
  · unfold targetFound
    split
    · trivial
    · exact propagatesBind (propagatesAsk _) fun _ => trivial
  · split
    · trivial
    · exact propagatesBind (propagatesAsk _) fun _ => propagatesBind (recordsPropagate _) fun _ => trivial

theorem unlinkPropagates (arguments : Json.Object) : (deleteMemoryLink arguments).Propagates := by
  refine propagatesBind (propagatesCheck _) fun _ => propagatesBind (propagatesCheck _) fun _ =>
    propagatesBind (propagatesCheck _) fun _ => propagatesBind (propagatesAsk _) fun deleted => ?_
  split
  · exact propagatesBind (recordsPropagate _) fun _ => trivial
  · trivial

theorem applyPropagates (call : ToolCall) : (apply env call).Propagates := by
  refine propagatesBind ?_ fun answer => ?_
  · unfold service
    split
    · exact updatePropagates env call.arguments
    · exact archivePropagates call.arguments
    · exact mergePropagates env call.arguments
    · exact splitPropagates env call.splitGroupId call.arguments
    · exact linkPropagates call.arguments
    · exact unlinkPropagates call.arguments
  · dsimp only
    split <;> trivial

end Curation

namespace History
open Transaction

theorem recordPropagates (change : InverseRecordChange) : (restoreRecord change).Propagates := by
  unfold restoreRecord
  split
  · refine propagatesBind (propagatesAsk _) fun found => ?_
    cases found with
    | none => trivial
    | some current =>
      exact propagatesBind (propagatesCheck _) fun _ => propagatesBind (propagatesAsk _) fun _ => trivial
  · trivial

theorem relinkPropagates (change : InverseLinkChange) : (restoreLink change).Propagates := by
  unfold restoreLink
  split
  · exact propagatesBind (propagatesAsk _) fun _ => trivial
  · exact propagatesBind (propagatesAsk _) fun _ => trivial

theorem eachPropagates {α : Type} {action : α → Restore Unit} (each : ∀ item, (action item).Propagates) (items : List α) :
    (forEach action items).Propagates := by
  induction items with
  | nil => trivial
  | cons item rest ih => exact propagatesBind (each item) fun _ => ih

theorem inversePropagates (inverse : InverseDescription) : (restoreInverse inverse).Propagates :=
  propagatesBind (eachPropagates recordPropagates _) fun _ => propagatesBind (eachPropagates relinkPropagates _) fun _ =>
    trivial

end History

namespace Ingress
open Transaction

variable (env : ServiceEnv)

theorem resultPropagates (operation : String) (record : Option Memory.MemoryRecord) :
    (resultFor operation record).Propagates := by
  cases record <;> trivial

theorem callbackPropagates (call : IngestCall) : (call.callback env).Propagates := by
  cases call with
  | append arguments =>
    refine propagatesBind (propagatesAsk _) fun record => ?_
    unfold appendTo
    cases record with
    | none => trivial
    | some record =>
      dsimp only
      split
      · trivial
      · split
        · trivial
        · exact propagatesBind (propagatesAsk _) fun updated => resultPropagates "append" updated
  | create arguments => exact propagatesBind (propagatesAsk _) fun record => resultPropagates "create" record

end Ingress

namespace Relational
open Memory Transaction

variable (tools : Curation.ToolEnv) (services : Ingress.ServiceEnv)

/- The writes of the program: every script of a client of the repository, the mutation tools of a
curator, a restore, the append and the create of the ingest, and the jobs of the maintenance. -/
inductive Issued : Write → Prop
  | repository (seen script oracle) : Issued (.repository seen script oracle)
  | curator (config oracle call tokens) : Issued (.curation (Curation.attemptOf tools config oracle call tokens))
  | restore (config request inverse oracle) :
      Issued (.curation ⟨config,request,History.restoreInverse inverse,oracle⟩)
  | ingest (config) (call : Ingress.IngestCall) (oracle) :
      Issued (.ingress ⟨config,call.request services,call.callback services,oracle⟩)
  | staleness (cutoff workspaceId) : Issued (.staleness cutoff workspaceId)
  | factCheck (present) : Issued (.factCheck present)
  | sweep (sweep) : Issued (.sweep sweep)

variable {tools services}

theorem issuedRecovers {write : Write} (issued : Issued tools services write) (database : Database) :
    Recovering tools.actions services.store write database := by
  cases issued with
  | repository seen script oracle => trivial
  | curator config oracle call tokens =>
    exact fun _ _ _ _ => propagatesRecovers (Curation.applyPropagates tools call)
  | restore config request inverse oracle => exact fun _ _ _ _ => propagatesRecovers (History.inversePropagates inverse)
  | ingest config call oracle => exact fun _ _ => propagatesRecovers (Ingress.callbackPropagates services call)
  | staleness cutoff workspaceId => trivial
  | factCheck present => trivial
  | sweep sweep => trivial

theorem indexedIssued {write : Write} {database : Database} (issued : Issued tools services write)
    (indexed : Indexed database.memory) :
    Indexed (apply tools.actions services.store write database).memory :=
  indexedApply (issuedRecovers issued database) indexed

def asciiTools : Curation.ToolEnv := ⟨asciiActions,fun _ => "json",id⟩

def asciiServices : Ingress.ServiceEnv := ⟨asciiDomain,fun _ _ _ => none⟩

def rewriteNote : Curation.ToolCall := ⟨.updateMemoryRecord,[("memory_id",.str noteId),("content",.str "anew")],"run",
  "action","key","group"⟩

def curatorRewrites : Write := .curation
  (Curation.attemptOf asciiTools ⟨"model",none⟩ ticking rewriteNote [(noteId,"v1:digest")])

end Relational

end McpMemory
