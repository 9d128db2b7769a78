import McpMemory.Curation.Descriptors
import McpMemory.Maintenance.Pruning

/-! The verifier of `core/curation_verifier.py` before and after a sweep: of what it reads, the sweep
takes the children of a split, which only `verify` of a split looks for. -/
namespace McpMemory.Curation.Reconciliation
open Memory Text Transaction Maintenance
open Connection (Connection)
open Actions (CurationAction)
open Sweeping (Swept pruned prunedRow)

/- What a receipt is verified by. -/
inductive Basis where
  | action (action : CurationAction)
  | descriptor (descriptor : VerificationDescriptor) (valid : descriptor.valid = true)

/- Tables that nothing writes in the meantime. -/
def replied (t : Tables) : Verification → Except ActionError Verdict
  | .done verdict => .ok verdict
  | .fail error => .error error
  | .call memoryId next => replied t (next (peekMemory t memoryId))

variable (env : VerifierEnv)

/- `verify` and `verify_descriptor` of a receipt that is applied and not verified. -/
def verdictOf (t : Tables) (current : ActionReceipt) : Basis → Except ActionError Verdict
  | .action action =>
    if current.actionId ≠ action.actionId.text then .error (verificationError "receipt identity does not match action")
    else if current.operation ≠ action.operation.name then
      .error (verificationError "receipt operation does not match action")
    else replied t (verifyAction env current action)
  | .descriptor descriptor _ =>
    if current.verificationDescriptor.bind env.descriptorOf ≠ some descriptor then .ok (some "descriptor_mismatch")
    else replied t (verifyDescriptor env.actions current descriptor)

/- A memory whose metadata lists the children of its split. -/
def ListsChildren (t : Tables) (memoryId : String) : Prop :=
  ∃ original, peekMemory t memoryId = .ok (some original) ∧ original.record.id = memoryId ∧ (splitChildIds env original).isSome

/- The receipt of a split is verified by its action, over a memory that lists the children. -/
def ReadsChildren (t : Tables) (current : ActionReceipt) : Basis → Prop
  | .action action => current.actionId = action.actionId.text ∧ current.operation = action.operation.name ∧
      match action.operation with
      | .splitMemory targetId .. => ListsChildren env t targetId.text
      | _ => False
  | .descriptor .. => False

section
variable {env : VerifierEnv} {t : Tables} {graph : String → Option ReadContext}

variable {current : ActionReceipt} (clock : Clock) (applied : current.status = .appliedUnverified)
  (reads : ∀ memoryId, peekMemory t memoryId = .ok (graph memoryId))
include applied reads

/- Where every memory can be read, this is what the two verifiers come to. -/

end

/- A memory as it is read before and after the sweep. -/
structure SweptContext (before : Tables) (old new : ReadContext) : Prop where
  record : new.record = { old.record with metadata := pruned old.record.metadata }
  has : before.has old.record.id
  fewer : new.outgoing ⊆ old.outgoing
  kept : ∀ link ∈ old.outgoing, isDangling before link = false → link ∈ new.outgoing

inductive SweptReply (before : Tables) : (old new : Except ActionError (Option ReadContext)) → Prop where
  | failed (error : ActionError) : SweptReply before (.error error) (.error error)
  | missing : SweptReply before (.ok none) (.ok none)
  | found {old new : ReadContext} (swept : SweptContext before old new) : SweptReply before (.ok (some old)) (.ok (some new))

section
variable {before after : Tables} (swept : Swept before after)
include swept

theorem sweptHas (memoryId : String) : after.has memoryId = before.has memoryId := by
  rw [Tables.has,Tables.has,swept.memories,List.any_map]
  rfl

theorem sweptById (memoryId : String) : recordById memoryId after =
    (recordById memoryId before).map fun record => { record with metadata := pruned record.metadata } := by
  have row : selectRow memoryId after = (selectRow memoryId before).map prunedRow := by
    rw [selectRow,selectRow,swept.memories,List.find?_map]
    rfl
  rw [recordById,recordById,row,Option.map_map,Option.map_map]
  refine congrArg (fun f => Option.map f (selectRow memoryId before)) (funext fun row => ?_)
  simp only [Function.comp_apply,hydrateRecord,swept.workspaces,swept.tags,swept.memoryTags]
  rfl

theorem sweptResolve (memoryId : String) : resolveMemoryId after memoryId = resolveMemoryId before memoryId := by
  have named (memoryRef : Nat) : idByRef after memoryRef = idByRef before memoryRef := by
    unfold idByRef
    rw [swept.memories,List.find?_map,Option.map_map]
    rfl
  unfold resolveMemoryId
  rw [sweptHas swept]
  simp only [named]

theorem peekSwept (memoryId : String) : SweptReply before (peekMemory before memoryId) (peekMemory after memoryId) := by
  unfold peekMemory repositoryMemory
  rw [sweptResolve swept]
  cases resolved : resolveMemoryId before memoryId with
  | error error => exact .failed error
  | ok found =>
    cases found with
    | none => exact .missing
    | some found =>
      cases there : recordById found before with
      | none =>
        have gone : recordById found after = none := by rw [sweptById swept,there]; rfl
        simp only [Except.map,Option.bind_some,there,gone]
        exact .missing
      | some record =>
        have left : recordById found after = some { record with metadata := pruned record.metadata } := by
          rw [sweptById swept,there]
          rfl
        simp only [Except.map,Option.bind_some,there,left]
        obtain ⟨row,selected,rfl⟩ := Option.map_eq_some_iff.mp there
        refine .found ⟨rfl,?_,?_,?_⟩
        · exact List.any_eq_true.mpr ⟨row,List.mem_of_find?_eq_some selected,BEq.rfl⟩
        · intro link member
          obtain ⟨listed,own⟩ := List.mem_filter.mp member
          exact List.mem_filter.mpr ⟨swept.fewer listed,own⟩
        · intro link member leads
          obtain ⟨listed,own⟩ := List.mem_filter.mp member
          exact List.mem_filter.mpr ⟨swept.kept link listed leads,own⟩

end

/- The memories that were asked for, each read before and after. -/
structure SweptContexts (before : Tables) (ids : List String) (contexts contexts' : Contexts) : Prop where
  each : List.Forall₂ (fun old new => old.1 = new.1 ∧ old.2.record.id = old.1 ∧ SweptContext before old.2 new.2) contexts contexts'
  ids : contexts.map (·.1) = ids

theorem prunedLookup {metadata : Json.Object} {key : String} (alive : key ∉ deadMetadataKeys) :
    (pruned metadata).lookup key = metadata.lookup key := by
  induction metadata with
  | nil => rfl
  | cons field rest ih =>
    obtain ⟨name,value⟩ := field
    by_cases same : key = name
    · subst same
      rw [pruned,List.filter_cons_of_pos (by simpa using alive),List.lookup_cons_self,List.lookup_cons_self]
    · have apart : (key == name) = false := beq_false_of_ne same
      rw [List.lookup_cons,apart,← ih,pruned,List.filter_cons]
      split
      · rw [List.lookup_cons,apart]
        rfl
      · rfl

theorem prunedDead {metadata : Json.Object} {key : String} (dead : key ∈ deadMetadataKeys) : (pruned metadata).lookup key = none := by
  refine List.lookup_eq_none_iff.mpr fun field member => ?_
  have alive := (List.mem_filter.mp member).2
  rw [bne_iff_ne]
  rintro rfl
  simp [dead] at alive

section
variable {before : Tables} {old new : ReadContext} (swept : SweptContext before old new)
include swept

theorem sweptLookup {key : String} (alive : key ∉ deadMetadataKeys) :
    new.record.metadata.lookup key = old.record.metadata.lookup key := by
  rw [swept.record]
  exact prunedLookup alive

theorem sweptSnapshot (env : Canonical.Env) : recordSnapshot env new.record = recordSnapshot env old.record := by
  have durable (name : String) (alive : name ∉ deadMetadataKeys) :
      durableMetadataValue new.record.metadata name = durableMetadataValue old.record.metadata name := by
    unfold durableMetadataValue Json.get
    rw [sweptLookup swept alive]
  rw [recordSnapshot,recordSnapshot,durable "lineage" (by decide),durable "mutation_metadata" (by decide),swept.record]

variable {sourceId targetId : String} (source : before.has sourceId) (target : before.has targetId)
include source target

/- A link between two memories that are there stays. -/
theorem sweptEdge {link : MemoryLink} (starts : link.sourceId = sourceId) (ends : link.targetId = targetId) :
    link ∈ new.outgoing ↔ link ∈ old.outgoing := by
  refine ⟨fun member => swept.fewer member,fun member => swept.kept link member ?_⟩
  rw [isDangling,starts,ends,source,target]
  simp

theorem exactSwept (env : Env) (linkType edgeContext : String) : hasExactEdge env new sourceId targetId linkType edgeContext =
    hasExactEdge env old sourceId targetId linkType edgeContext := by
  unfold hasExactEdge
  refine congrArg (fun f => Except.map f (normalizeLinkType env linkType)) (funext fun normalized => ?_)
  rw [Bool.eq_iff_iff,List.contains_iff_mem,List.contains_iff_mem]
  exact sweptEdge swept source target rfl rfl

theorem anySwept (env : Env) (linkType : String) : hasAnyEdge env new sourceId targetId linkType =
    hasAnyEdge env old sourceId targetId linkType := by
  unfold hasAnyEdge
  refine congrArg (fun f => Except.map f (normalizeLinkType env linkType)) (funext fun normalized => ?_)
  rw [Bool.eq_iff_iff,List.any_eq_true,List.any_eq_true]
  refine exists_congr fun link => and_congr_left fun asked => ?_
  simp only [Bool.and_eq_true,beq_iff_eq] at asked
  exact sweptEdge swept source target asked.1.1 asked.1.2

end

section
variable {before after : Tables} {ids : List String} {contexts contexts' : Contexts}

theorem sweptThere (both : SweptContexts before ids contexts contexts') {memoryId : String} (asked : memoryId ∈ ids) :
    before.has memoryId := by
  have named : ∀ item ∈ contexts, before.has item.1 := by
    have each := both.each
    clear both
    induction each with
    | nil => nofun
    | cons here _ ih => exact List.forall_mem_cons.mpr ⟨here.2.1 ▸ here.2.2.has,ih⟩
  rw [← both.ids] at asked
  obtain ⟨item,member,rfl⟩ := List.mem_map.mp asked
  exact named item member

theorem tokenSwept (both : SweptContexts before ids contexts contexts') (env : Env) (targets : List String) :
    stateToken env (contexts'.map fun item => (item.1,item.2.record)) targets =
      stateToken env (contexts.map fun item => (item.1,item.2.record)) targets := by
  have same : snapshots env (contexts'.map fun item => (item.1,item.2.record)) =
      snapshots env (contexts.map fun item => (item.1,item.2.record)) := by
    have each := both.each
    clear both
    induction each with
    | nil => rfl
    | cons here _ ih =>
      rw [List.map_cons,List.map_cons,snapshots,snapshots,ih,sweptSnapshot here.2.2,here.1]
  have length := both.each.length_eq
  have none : (contexts'.map fun item => (item.1,item.2.record)).isEmpty = (contexts.map fun item => (item.1,item.2.record)).isEmpty := by
    rw [List.isEmpty_map,List.isEmpty_map,Bool.eq_iff_iff,List.isEmpty_iff_length_eq_zero,List.isEmpty_iff_length_eq_zero,length]
  rw [stateToken,stateToken,same,none]

theorem statusSwept (both : SweptContexts before ids contexts contexts') (status : String) :
    contexts'.all (·.2.record.status == status) = contexts.all (·.2.record.status == status) := by
  have each := both.each
  clear both
  induction each with
  | nil => rfl
  | cons here _ ih => rw [List.all_cons,List.all_cons,ih,here.2.2.record]

/- The parts of a verification, each of which comes to the same after the sweep if what follows it does. -/

variable {env : Env} {current : ActionReceipt}

theorem requiredSwept {condition condition' : Bool} {errorCode : String} {next next' : Verification} (same : condition' = condition)
    (rest : replied after next' = replied before next) :
    replied after (required condition' errorCode next') = replied before (required condition errorCode next) := by
  unfold required
  rw [same]
  split
  · exact rest
  · rfl

theorem checkedSwept (both : SweptContexts before ids contexts contexts') {targets : List String} {next next' : Verification}
    (rest : replied after next' = replied before next) :
    replied after (checkedToken env current contexts' targets next') = replied before (checkedToken env current contexts targets next) := by
  unfold checkedToken
  rw [tokenSwept both]
  split
  · rfl
  · split
    · rfl
    · exact rest

theorem contextSwept (both : SweptContexts before ids contexts contexts') {memoryId : String}
    {next next' : ReadContext → Verification} (rest : ∀ old new, SweptContext before old new → before.has memoryId →
      replied after (next' new) = replied before (next old)) :
    replied after (contextOf contexts' memoryId next') = replied before (contextOf contexts memoryId next) := by
  unfold contextOf
  have each := both.each
  clear both
  induction each with
  | nil => rfl
  | @cons old new olds news here _ ih =>
    obtain ⟨name,old⟩ := old
    obtain ⟨name',new⟩ := new
    obtain ⟨rfl,own,one⟩ := here
    rw [List.lookup_cons,List.lookup_cons]
    cases found : memoryId == name with
    | true =>
      have there : before.has memoryId := by
        have here : old.record.id = name := own
        rw [eq_of_beq found,← here]
        exact one.has
      exact rest old new one there
    | false => exact ih

theorem freshSwept (swept : Swept before after) {next next' : Contexts → Verification}
    (rest : ∀ contexts contexts', SweptContexts before ids contexts contexts' →
      replied after (next' contexts') = replied before (next contexts)) :
    replied after (freshContexts ids next') = replied before (freshContexts ids next) := by
  induction ids generalizing next next' with
  | nil => exact rest [] [] ⟨.nil,rfl⟩
  | cons memoryId others ih =>
    rw [freshContexts,freshContexts,replied,replied]
    have reply := peekSwept swept memoryId
    generalize peekMemory before memoryId = asked at reply
    generalize peekMemory after memoryId = asked' at reply
    cases reply with
    | failed error => rfl
    | missing => rfl
    | @found old new one =>
      dsimp only
      have named : new.record.id = old.record.id := by rw [one.record]
      rw [named]
      split
      · rfl
      · rename_i own
        refine ih fun contexts contexts' both => rest _ _ ⟨.cons ⟨rfl,not_not.mp own,one⟩ both.each,?_⟩
        rw [List.map_cons,both.ids]

end

section
variable {env : VerifierEnv} {before after : Tables} {current : ActionReceipt} {ids : List String} (swept : Swept before after)
include swept

theorem recordSwept (targetStatus : Option String) : replied after (verifyRecordAction env.actions current ids targetStatus) =
    replied before (verifyRecordAction env.actions current ids targetStatus) := by
  refine freshSwept swept fun contexts contexts' both => requiredSwept rfl (requiredSwept ?_ (checkedSwept both rfl))
  cases targetStatus with
  | none => rfl
  | some status => exact statusSwept both status

section
variable {sourceId targetId : String} (target : targetId ∈ ids)
include target

theorem createSwept (linkType : String) (context : Option String) :
    replied after (verifyCreateLink env current sourceId targetId linkType context ids) =
      replied before (verifyCreateLink env current sourceId targetId linkType context ids) := by
  refine freshSwept swept fun contexts contexts' both => requiredSwept rfl (checkedSwept both ?_)
  refine contextSwept both fun old new one source => ?_
  rw [exactSwept one source (sweptThere both target)]
  split
  · rfl
  · exact requiredSwept rfl rfl

theorem removeSwept (linkType : String) : replied after (verifyRemoveLink env current sourceId targetId linkType ids) =
    replied before (verifyRemoveLink env current sourceId targetId linkType ids) := by
  refine freshSwept swept fun contexts contexts' both => requiredSwept rfl (checkedSwept both ?_)
  refine contextSwept both fun old new one source => ?_
  rw [anySwept one source (sweptThere both target)]
  split
  · rfl
  · exact requiredSwept rfl rfl

end

theorem linkSwept {descriptor : VerificationDescriptor} (target : ∀ targetId ∈ descriptor.targetId, targetId ∈ ids) :
    replied after (verifyLinkDescriptor env.actions current descriptor ids) =
      replied before (verifyLinkDescriptor env.actions current descriptor ids) := by
  unfold verifyLinkDescriptor
  split
  · rename_i sourceId targetId linkType _ there _
    refine freshSwept swept fun contexts contexts' both => checkedSwept both (contextSwept both fun old new one source => ?_)
    have ending := sweptThere both (target targetId there)
    dsimp only
    rw [exactSwept one source ending,anySwept one source ending]
    split
    · rfl
    · exact requiredSwept rfl rfl
  · rfl

omit swept in
theorem mergedSwept {contexts contexts' : Contexts} (both : SweptContexts before ids contexts contexts') {old new : ReadContext}
    (one : SweptContext before old new) {canonicalId : String} (canonical : before.has canonicalId) (sourceIds : List String) :
    replied after (verifyMergedSources env.actions contexts' new canonicalId sourceIds) =
      replied before (verifyMergedSources env.actions contexts old canonicalId sourceIds) := by
  induction sourceIds with
  | nil => rfl
  | cons sourceId rest ih =>
    refine contextSwept both fun source source' here there => requiredSwept (by rw [here.record]) ?_
    rw [exactSwept one canonical there]
    split
    · rfl
    · exact requiredSwept rfl ih

theorem mergeActionSwept (canonicalId : String) (sourceIds : List String) :
    replied after (verifyMergeAction env current canonicalId sourceIds ids) =
      replied before (verifyMergeAction env current canonicalId sourceIds ids) := by
  refine freshSwept swept fun contexts contexts' both => requiredSwept rfl (checkedSwept both ?_)
  refine contextSwept both fun old new one canonical => ?_
  exact requiredSwept (by rw [sweptLookup one (by decide)]) (mergedSwept both one canonical _)

theorem mergeSwept (descriptor : VerificationDescriptor) : replied after (verifyMerge env.actions current descriptor ids) =
    replied before (verifyMerge env.actions current descriptor ids) := by
  unfold verifyMerge
  split
  · rfl
  · split
    · rfl
    · refine freshSwept swept fun contexts contexts' both => requiredSwept rfl (checkedSwept both ?_)
      refine contextSwept both fun old new one canonical => ?_
      exact requiredSwept (by rw [sweptLookup one (by decide)]) (mergedSwept both one canonical _)

/- No child is looked at, as the ids that are stored are never the texts of the metadata. -/
theorem splitDescriptorSwept {descriptor : VerificationDescriptor} (children : descriptor.childIds ≠ []) :
    replied after (verifySplitDescriptor env.actions current descriptor ids) =
      replied before (verifySplitDescriptor env.actions current descriptor ids) := by
  have none : descriptor.childIds.isEmpty = false := by simpa using children
  rw [verifySplitDescriptor,replied,replied]
  have reply := peekSwept swept (descriptor.targetId.getD "None")
  generalize peekMemory before (descriptor.targetId.getD "None") = asked at reply
  generalize peekMemory after (descriptor.targetId.getD "None") = asked' at reply
  cases reply with
  | failed error => rfl
  | missing => rfl
  | @found old new one =>
    dsimp only
    have named : new.record.id = old.record.id := by rw [one.record]
    rw [named]
    split
    · rfl
    · refine freshSwept swept fun contexts contexts' both => checkedSwept both ?_
      simp only [none,Bool.and_false,required,Bool.false_eq_true,if_false,replied]

end

/- An error that no part of a verification raises. -/
def Spares (bad : ActionError) : Verification → Prop
  | .done _ => True
  | .fail error => error ≠ bad
  | .call _ next => ∀ reply, reply ≠ .error bad → Spares bad (next reply)

def mismatch : ActionError := .other "_PostconditionMismatch"

section
variable {t : Tables} {memoryId : String}

theorem parseSpares : parseMemoryRef memoryId ≠ .error mismatch := by
  unfold parseMemoryRef
  extract_lets text digits
  split
  · cases parseInt (String.ofList digits) <;> simp [mismatch]
  · simp

theorem numberSpares (memoryRef : Nat) : idByRef t memoryRef ≠ .error mismatch := by
  unfold idByRef
  split
  · exact fun same => absurd (Except.error.inj same) (by decide)
  · exact nofun

theorem peekSpares : peekMemory t memoryId ≠ .error mismatch := by
  have resolves : resolveMemoryId t memoryId ≠ .error mismatch := by
    unfold resolveMemoryId
    split
    · exact nofun
    · cases parsed : parseMemoryRef memoryId with
      | error other => exact fun same => parseSpares (parsed.trans (congrArg Except.error (Except.error.inj same)))
      | ok memoryRef =>
        cases memoryRef with
        | none => exact nofun
        | some memoryRef => exact numberSpares memoryRef
  intro failed
  unfold peekMemory repositoryMemory at failed
  cases resolved : resolveMemoryId t memoryId with
  | ok found =>
    rw [resolved] at failed
    cases failed
  | error error =>
    rw [resolved] at failed
    exact resolves (resolved.trans (congrArg Except.error (Except.error.inj failed)))

theorem repliedSpares {script : Verification} (spares : Spares mismatch script) : replied t script ≠ .error mismatch := by
  induction script with
  | done verdict => exact nofun
  | fail error => exact fun failed => spares (Except.error.inj failed)
  | call memoryId next ih => exact ih _ (spares _ peekSpares)

end

section
variable {env : VerifierEnv} {current : ActionReceipt} {next : Verification}

theorem sparesRequired {condition : Bool} {errorCode : String} (spares : Spares mismatch next) :
    Spares mismatch (required condition errorCode next) := by
  unfold required
  split
  · exact spares
  · trivial

theorem sparesChecked {contexts : Contexts} {ids : List String} (spares : Spares mismatch next) :
    Spares mismatch (checkedToken env.actions current contexts ids next) := by
  unfold checkedToken
  split
  · rename_i error failed
    obtain ⟨key,rfl⟩ := tokenErrors failed
    exact nofun
  · split
    · trivial
    · exact spares

theorem sparesContext {contexts : Contexts} {memoryId : String} {next : ReadContext → Verification}
    (spares : ∀ context, Spares mismatch (next context)) : Spares mismatch (contextOf contexts memoryId next) := by
  unfold contextOf
  split
  · exact (by decide : ActionError.other "KeyError" ≠ mismatch)
  · exact spares _

theorem sparesEdge {context : ReadContext} {sourceId targetId linkType edgeContext : String} {error : ActionError}
    (failed : hasExactEdge env.actions context sourceId targetId linkType edgeContext = .error error) : error ≠ mismatch := by
  unfold hasExactEdge normalizeLinkType at failed
  dsimp only at failed
  split at failed
  · cases failed
    exact nofun
  · cases failed

theorem sparesFresh {ids : List String} {next : Contexts → Verification} (spares : ∀ contexts, Spares mismatch (next contexts)) :
    Spares mismatch (freshContexts ids next) := by
  induction ids generalizing next with
  | nil => exact spares []
  | cons memoryId rest ih =>
    intro reply fine
    match reply with
    | .error error => exact fun same => fine (congrArg Except.error same)
    | .ok none => trivial
    | .ok (some context) =>
      dsimp only
      split
      · trivial
      · exact ih fun contexts => spares _

theorem sparesChildren {contexts : Contexts} {targetId groupId : String} {childIds : List String} (index : Nat)
    (rest : List String) : Spares mismatch (verifySplitChildren env contexts targetId groupId childIds index rest) := by
  induction rest generalizing index with
  | nil => trivial
  | cons childId rest ih =>
    refine sparesContext fun child => ?_
    refine sparesRequired (sparesRequired (sparesRequired (sparesRequired ?_)))
    split
    · rename_i error failed
      exact sparesEdge failed
    · exact sparesRequired (ih _)

end

/- A split, where the memory lists its children and where it does not. -/
section
variable {env : VerifierEnv} {before after : Tables} {current : ActionReceipt} {actionId targetId : String}

theorem childrenPruned {old new : ReadContext} (one : SweptContext before old new) : splitChildIds env new = none := by
  rw [splitChildIds,one.record,prunedDead (by decide)]

theorem listedVerdict (lists : ListsChildren env before targetId) :
    replied before (verifySplit env current actionId targetId) ≠ .error mismatch := by
  obtain ⟨original,read,own,listed⟩ := lists
  obtain ⟨childIds,listed⟩ := Option.isSome_iff_exists.mp listed
  rw [verifySplit,replied,read]
  dsimp only
  rw [if_neg (not_not.mpr own),listed]
  refine repliedSpares (sparesFresh fun contexts => sparesRequired (sparesChecked (sparesContext fun context => ?_)))
  exact sparesRequired (sparesRequired (sparesChildren _ _))

theorem splitSwept (swept : Swept before after) : replied after (verifySplit env current actionId targetId) =
    replied before (verifySplit env current actionId targetId) ↔ ¬ ListsChildren env before targetId := by
  have reply := peekSwept swept targetId
  constructor
  · rintro same lists
    refine listedVerdict lists (same.symm.trans ?_)
    obtain ⟨original,read,own,_⟩ := lists
    rw [verifySplit,replied]
    rw [read] at reply
    generalize peekMemory after targetId = asked' at reply
    cases reply with
    | @found _ new one =>
      have named : new.record.id = targetId := by rw [one.record]; exact own
      dsimp only
      rw [if_neg (not_not.mpr named),childrenPruned one]
      rfl
  · intro unlisted
    rw [verifySplit,replied,replied]
    cases read : peekMemory before targetId with
    | error error =>
      rw [read] at reply
      generalize peekMemory after targetId = asked' at reply
      cases reply
      rfl
    | ok found =>
      rw [read] at reply
      generalize peekMemory after targetId = asked' at reply
      cases reply with
      | missing => rfl
      | @found old new one =>
        have named : new.record.id = old.record.id := by rw [one.record]
        dsimp only
        rw [named]
        split
        · rfl
        · rename_i own
          have none : splitChildIds env old = none := by
            by_contra some
            exact unlisted ⟨old,read,not_not.mp own,Option.isSome_iff_ne_none.mpr some⟩
          rw [none,childrenPruned one]
          rfl

end

section
variable {env : VerifierEnv} {before after : Tables} {current : ActionReceipt}

theorem linkTarget {descriptor : VerificationDescriptor} (exact : descriptor.exact = true) (other : descriptor.operation ∉ recordOperations)
    (kind : descriptor.operation ∈ linkOperations) : ∀ targetId ∈ descriptor.targetId, targetId ∈ sortedSet descriptor.targetIds := by
  intro targetId there
  unfold VerificationDescriptor.exact at exact
  rw [if_neg (by simpa using other),if_pos (by simpa using kind)] at exact
  have ends := (Bool.and_eq_true_iff.mp exact).2
  rw [Option.mem_def.mp there] at ends
  split at ends
  · rename_i sourceId found _ same
    cases same
    rw [eq_of_beq ends,memSortedSet]
    simp
  · cases ends

theorem descriptorChildren {descriptor : VerificationDescriptor} (exact : descriptor.exact = true)
    (kind : descriptor.operation = "split_memory") : descriptor.childIds ≠ [] := by
  unfold VerificationDescriptor.exact at exact
  rw [kind,if_neg (by decide),if_neg (by decide),if_neg (by decide)] at exact
  rintro none
  simp [none] at exact

theorem descriptorSwept (swept : Swept before after) {descriptor : VerificationDescriptor} (valid : descriptor.valid = true) :
    replied after (verifyDescriptor env.actions current descriptor) = replied before (verifyDescriptor env.actions current descriptor) := by
  have exact := (Bool.and_eq_true_iff.mp valid).2
  unfold verifyDescriptor
  split
  · rfl
  · refine requiredSwept rfl ?_
    split
    · exact recordSwept swept _
    · rename_i other
      split
      · rename_i kind
        have own : descriptor.operation ≠ "split_memory" := by
          intro same
          rw [same] at kind
          exact absurd kind (by decide)
        rw [if_neg own]
        exact linkSwept swept (linkTarget exact (by simpa [recordOperations] using other) (by simpa [linkOperations] using kind))
      · split
        · exact mergeSwept swept descriptor
        · split
          · rename_i kind
            exact splitDescriptorSwept swept (descriptorChildren exact kind)
          · rfl

theorem actionSwept (swept : Swept before after) (action : CurationAction) :
    replied after (verifyAction env current action) = replied before (verifyAction env current action) ↔
      ¬ match action.operation with
        | .splitMemory targetId .. => ListsChildren env before targetId.text
        | _ => False := by
  have second {sourceId targetId : String} : targetId ∈ sortedSet [sourceId,targetId] := by
    rw [memSortedSet]
    simp
  unfold verifyAction
  cases action.operation with
  | normalizeMemory | rewriteMemory | archiveMemory => exact iff_of_true (recordSwept swept none) not_false
  | createLink => exact iff_of_true (createSwept swept second _ _) not_false
  | removeLink => exact iff_of_true (removeSwept swept second _) not_false
  | mergeMemories => exact iff_of_true (mergeActionSwept swept _ _) not_false
  | splitMemory => exact splitSwept swept

/- The verdict is the same after the sweep where no children are read for it, and only there. -/
theorem verdictSwept (swept : Swept before after) (basis : Basis) :
    verdictOf env after current basis = verdictOf env before current basis ↔ ¬ ReadsChildren env before current basis := by
  cases basis with
  | descriptor descriptor valid =>
    refine iff_of_true ?_ not_false
    rw [verdictOf,verdictOf]
    split
    · rfl
    · exact descriptorSwept swept valid
  | action action =>
    rw [verdictOf,verdictOf,ReadsChildren]
    split
    · rename_i other
      exact iff_of_true rfl fun reads => other reads.1
    · rename_i own
      split
      · rename_i other
        exact iff_of_true rfl fun reads => other reads.2.1
      · rename_i named
        rw [actionSwept swept,and_iff_right (not_not.mp own),and_iff_right (not_not.mp named)]

end

/- The sweep only reports on archived memories; the ids of the memories are a primary key. -/
theorem sweepUndisturbed {env : VerifierEnv} {context : Sweeping.Context} {store : Sweeping.Store} {oracle : Oracle String}
    {moment : Nat} {after : Session (Connection Sweeping.Store)} {current : ActionReceipt}
    (distinct : (store.memory.memories.map (·.id)).Nodup) (report : context.gc.delete = false)
    (ran : Sweeping.housekeeping (Sweeping.sweep context) oracle ⟨⟨store,none⟩,moment⟩ = (.ok (),after)) (basis : Basis) :
    verdictOf env after.data.committed.memory current basis = verdictOf env store.memory current basis ↔
      ¬ ReadsChildren env store.memory current basis :=
  verdictSwept (Sweeping.sweepPrunes distinct report ran) basis

/- A memory that is split, and its part. -/
def splitStore : Sweeping.Store :=
  ⟨{ Memory.empty with
    memories := [parent.toMemoryRow,child.toMemoryRow]
    links := [⟨secondId,firstId,"DEPENDS_ON",splitLinkContext⟩] },[],[],[],[]⟩

def reporting : Sweeping.Context := ⟨false,false,none,none,100,⟨"2026-01-01","2026-04-01",100,false⟩,1000⟩

def undisturbed : Oracle String := fun _ => ⟨none,"","",0⟩

def sweptStore : Session (Connection Sweeping.Store) :=
  (Sweeping.housekeeping (Sweeping.sweep reporting) undisturbed ⟨⟨splitStore,none⟩,0⟩).2

theorem splitSweeps : Sweeping.housekeeping (Sweeping.sweep reporting) undisturbed ⟨⟨splitStore,none⟩,0⟩ = (.ok (),sweptStore) := rfl

theorem sweepUndisturbedSample :
    verdictOf textVerifier sweptStore.data.committed.memory splitReceipt (.action splitting) =
        verdictOf textVerifier splitStore.memory splitReceipt (.action splitting) ↔
      ¬ ReadsChildren textVerifier splitStore.memory splitReceipt (.action splitting) :=
  sweepUndisturbed (by decide +kernel) rfl splitSweeps _

/- The split is verified before the sweep, and after it the verifier raises. -/
theorem splitDisturbed : verdictOf textVerifier splitStore.memory splitReceipt (.action splitting) = .ok none ∧
    verdictOf textVerifier sweptStore.data.committed.memory splitReceipt (.action splitting) = .error mismatch := by
  constructor <;> decide +kernel

end McpMemory.Curation.Reconciliation
