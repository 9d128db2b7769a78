import McpMemory.Curation.Protection
import McpMemory.Lib.Cycles
import McpMemory.Lib.Endings
import McpMemory.Lib.Interleave
import McpMemory.Relational.Updates

/-! Merges of one memory into another through the plain repository, one after another. A merge
looks at its two arguments and at nothing else of the graph that it writes to. -/
namespace McpMemory.Relational
open Memory Text Transaction Cycles
open Relation (TransGen ReflTransGen)
open Curation (ActionError Answer UpdateValues repositoryMemory requireString textField)

variable (env : Curation.ToolEnv)

def Supersedes (t : Tables) (sourceId targetId : String) : Prop :=
  ∃ link ∈ t.links, link.linkType = "SUPERSEDES" ∧ link.sourceId = sourceId ∧ link.targetId = targetId

/- A service names the summary in each update, and one of `None` leaves the column alone. -/
def performService (command : Curation.Command) : Query (Curation.Reply command) := match command with
  | .updateMemory memoryId changes => updateMemory env.actions none memoryId { changes with summary := some changes.summary.join }
  | command => perform env.actions none command

structure MergeCall where
  arguments : Json.Object
  oracle : Oracle ActionError

def playMerge (call : MergeCall) (t : Tables) : Except ActionError Answer × Session Tables :=
  (Curation.mergeMemoryIntoCanonical env call.arguments).play (performService env) call.oracle ⟨t,0⟩

def mergeInto (call : MergeCall) (t : Tables) : Tables := (playMerge env call t).2.data

def isOk (result : Except ActionError Answer) : Bool := match result with
  | .ok answer => textField answer "status" == some "ok"
  | .error _ => false

def Succeeds (call : MergeCall) (t : Tables) : Prop := isOk (playMerge env call t).1 = true

instance {call t} : Decidable (Succeeds env call t) := inferInstanceAs (Decidable (_ = true))

/- The memories that the arguments name, in whatever spelling. -/
def Names (call : MergeCall) (t : Tables) (canonicalId sourceId : String) : Prop :=
  ∃ canonicalMemoryId sourceMemoryId canonical source,
    requireString call.arguments "canonical_memory_id" = .ok canonicalMemoryId ∧
    requireString call.arguments "source_memory_id" = .ok sourceMemoryId ∧
    repositoryMemory t canonicalMemoryId = .ok (some canonical) ∧ repositoryMemory t sourceMemoryId = .ok (some source) ∧
    canonical.id = canonicalId ∧ source.id = sourceId

/- No chain of SUPERSEDES links leads from the source to the canonical memory. -/
def Onward (call : MergeCall) (t : Tables) : Prop :=
  ∀ canonicalId sourceId, Names call t canonicalId sourceId → ¬ ReflTransGen (Supersedes t) sourceId canonicalId

def statusOf (memoryId : String) (t : Tables) : Option String := (selectRow memoryId t).map (·.status)

/- What a merge may have done when it ends. -/
structure Merges (canonicalId sourceId : String) (before after : Tables) : Prop where
  there : ∀ memoryId, after.has memoryId = before.has memoryId
  spared : ∀ memoryId, memoryId ≠ sourceId → statusOf memoryId after = statusOf memoryId before
  links : ∀ a b, Supersedes after a b → Supersedes before a b ∨ a = canonicalId ∧ b = sourceId

variable {env} {canonicalId sourceId : String} {before middle after t : Tables}

theorem mergesRefl : Merges canonicalId sourceId t t := ⟨fun _ => rfl,fun _ _ => rfl,fun _ _ => .inl⟩

theorem Merges.trans (first : Merges canonicalId sourceId before middle) (rest : Merges canonicalId sourceId middle after) :
    Merges canonicalId sourceId before after where
  there memoryId := (rest.there memoryId).trans (first.there memoryId)
  spared memoryId apart := (rest.spared memoryId apart).trans (first.spared memoryId apart)
  links a b edge := (rest.links a b edge).elim (first.links a b) .inr

theorem supersedesSame (links : after.links = before.links) {a b} (edge : Supersedes after a b) : Supersedes before a b := by
  unfold Supersedes at edge ⊢
  rwa [links] at edge

theorem recordNamed {memoryId : String} {record : MemoryRecord} (found : repositoryMemory t memoryId = .ok (some record)) :
    ∃ row, selectRow record.id t = some row ∧ record = hydrateRecord t row := by
  obtain ⟨resolved,_,read⟩ := Curation.repositoryResolved found
  obtain ⟨row,here,rfl⟩ := Option.map_eq_some_iff.mp read
  have named : row.id = resolved := beq_iff_eq.mp (Table.findSome here).2
  exact ⟨row,named ▸ here,rfl⟩

theorem hasRow {memoryId : String} {row} (here : selectRow memoryId t = some row) : t.has memoryId :=
  hasIff.mpr (Option.isSome_iff_exists.mpr ⟨row,here⟩)

theorem hasSame (rows : after.memories = before.memories) (other : String) : after.has other = before.has other := by
  unfold Tables.has
  rw [rows]

/- An update leaves the links alone, and every status but the one that it is about. -/
theorem updateMerges {memoryId : String} {changes : UpdateValues} {oracle : Oracle ActionError}
    {session after : Session Tables} {result} (ran : updateMemory env.actions none memoryId changes oracle session = (result,after))
    {row} (there : selectRow memoryId session.data = some row) (about : memoryId = sourceId ∨ changes.status = none) :
    Merges canonicalId sourceId session.data after.data := by
  obtain ⟨t,moment⟩ := session
  obtain ⟨middle,made,beside⟩ := shapePerform env.actions none (.updateMemory memoryId changes) t oracle ⟨t,moment⟩ rfl
  have ended : (updateMemory env.actions none memoryId changes oracle ⟨t,moment⟩).2 = after := congrArg Prod.snd ran
  have links : after.data.links = t.links := by
    rw [← ended]
    refine beside.links.trans ?_
    rcases made with rfl | ⟨existing,revised,now,found,given,made⟩
    · rfl
    · cases made
      rfl
  have written := (@updateHere env.actions changes memoryId t row there oracle moment).1
  rw [ended] at written
  rcases written with rows | updates
  · exact ⟨hasSame rows,fun other _ => by rw [statusOf,selectSame rows,statusOf],fun _ _ edge => .inl (supersedesSame links edge)⟩
  · obtain ⟨revised,now,given,selected⟩ := updatesRows env.actions there updates
    refine ⟨fun other => ?_,fun other apart => ?_,fun _ _ edge => .inl (supersedesSame links edge)⟩
    · rw [Bool.eq_iff_iff,hasIff,hasIff]
      show (selectRow other _).isSome ↔ (selectRow other t).isSome
      rw [selected]
      split
      · rename_i same
        rw [same,there]
        simp
      · rfl
    · unfold statusOf
      rw [selected]
      split
      · rename_i same
        have unset : changes.status = none := about.resolve_left fun named => apart (same.trans named)
        rw [same,there]
        show some (revised.status.getD row.status) = some row.status
        rw [(validated given).1,unset]
        rfl
      · rfl

/- Which memory the answer of an update is. -/
theorem updateNamed {memoryId : String} {changes : UpdateValues} {oracle : Oracle ActionError}
    {session after : Session Tables} {found} (ran : updateMemory env.actions none memoryId changes oracle session = (.ok found,after))
    {row} (there : selectRow memoryId session.data = some row) : ∃ record, found = some record ∧ record.id = memoryId := by
  obtain ⟨_,answers⟩ := @updateHere env.actions changes memoryId session.data row there oracle session.moment
  obtain ⟨_,record,same,selected⟩ := answers found (congrArg Prod.fst ran)
  exact ⟨record,same,beq_iff_eq.mp (Table.findSome selected).2⟩

theorem addLinkMerges {linkType context : String} {oracle : Oracle ActionError} {session after : Session Tables} {result}
    (ran : addLink env.actions canonicalId sourceId linkType context oracle session = (result,after)) :
    Merges canonicalId sourceId session.data after.data := by
  have shaped := shapePerform env.actions none (.addLink canonicalId sourceId linkType context) session.data oracle session rfl
  have rows := @addLinkRows env.actions canonicalId sourceId linkType context oracle session
  have ended : (addLink env.actions canonicalId sourceId linkType context oracle session).2 = after := congrArg Prod.snd ran
  rw [ended] at rows
  obtain ⟨middle,made,beside⟩ := (show Shape _ session.data after.data from ended ▸ shaped)
  refine ⟨hasSame rows,fun other _ => by rw [statusOf,selectSame rows,statusOf],fun a b edge => ?_⟩
  have here := supersedesSame beside.links edge
  rcases made with rfl | ⟨normalized,given,made⟩
  · exact .inl here
  · obtain ⟨link,member,named,rfl,rfl⟩ := here
    unfold replaceLink at made
    split at made <;> cases made
    rcases List.mem_append.mp member with old | new
    · exact .inl ⟨link,(List.mem_filter.mp old).1,named,rfl,rfl⟩
    · cases List.mem_singleton.mp new
      exact .inr ⟨rfl,rfl⟩

/- Nothing happens unless both memories are there, and then what `Merges` has. -/
def Outcome (call : MergeCall) (t : Tables) (result : Except ActionError Answer) (after : Session Tables) : Prop :=
  after.data = t ∧ isOk result = false ∨
    ∃ canonicalId sourceId, Names call t canonicalId sourceId ∧ Merges canonicalId sourceId t after.data

theorem lookSame {memoryId : String} {oracle : Oracle ActionError} {session after : Session Tables} {result}
    (ran : getMemory memoryId oracle session = (result,after)) : after.data = session.data := by
  have kept : Keeps id (getMemory memoryId) := keepsStatement fun data found changed taken => by
    obtain ⟨_,_,same⟩ := mappedOk.mp taken
    exact (congrArg Prod.snd same).symm
  have same := kept oracle session
  rw [ran] at same
  exact same

theorem refusedFails (error : String) : isOk (.ok (Curation.refused error)) = false := by
  simp [isOk,textField,Curation.refused,Json.get,Curation.asText]

theorem mergeOutcome (call : MergeCall) (t : Tables) : Outcome call t (playMerge env call t).1 (playMerge env call t).2 := by
  have still : ∀ error (after : Session Tables), after.data = t → Outcome call t (.error error) after :=
    fun _ _ same => .inl ⟨same,rfl⟩
  show (Curation.mergeMemoryIntoCanonical env call.arguments).Ends (performService env) call.oracle (Outcome call t) ⟨t,0⟩
  unfold Curation.mergeMemoryIntoCanonical
  refine endsCheck (fun error _ => still error _ rfl) fun canonicalMemoryId first =>
    endsCheck (fun error _ => still error _ rfl) fun sourceMemoryId second =>
    endsAsk (fun error after ran => still error _ (lookSame ran)) fun canonical here looked =>
    endsAsk (fun error after ran => still error _ ((lookSame ran).trans (lookSame looked))) fun source there found => ?_
  have began : here.data = t := lookSame looked
  have start : there.data = t := (lookSame found).trans began
  obtain ⟨data,moment⟩ := there
  obtain rfl : t = data := start.symm
  cases canonical with
  | none => exact endsPure (.inl ⟨rfl,refusedFails _⟩)
  | some canonical => cases source with
    | none => exact endsPure (.inl ⟨rfl,refusedFails _⟩)
    | some source =>
      have readCanonical : repositoryMemory t canonicalMemoryId = .ok (some canonical) := (lookOk looked).1
      have readSource : repositoryMemory t sourceMemoryId = .ok (some source) := began ▸ (lookOk found).1
      obtain ⟨row,rowHere,_⟩ := recordNamed readCanonical
      obtain ⟨sourceRow,sourceHere,_⟩ := recordNamed readSource
      -- whatever follows is a series of steps that `Merges` describes
      have made : ∀ result (after : Session Tables), Merges canonical.id source.id t after.data → Outcome call t result after :=
        fun _ _ merges => .inr ⟨_,_,⟨_,_,canonical,source,first,second,readCanonical,readSource,rfl,rfl⟩,merges⟩
      refine endsCheck (fun _ _ => made _ _ mergesRefl) fun title _ => endsCheck (fun _ _ => made _ _ mergesRefl) fun content _ =>
        endsCheck (fun _ _ => made _ _ mergesRefl) fun summary _ => endsCheck (fun _ _ => made _ _ mergesRefl) fun tags _ =>
        endsCheck (fun _ _ => made _ _ mergesRefl) fun workspaceIds _ => endsCheck (fun _ _ => made _ _ mergesRefl) fun override _ => ?_
      refine endsAsk (fun error after ran => made _ _ (updateMerges ran rowHere (.inr rfl))) fun updated revised ran => ?_
      have first : Merges canonical.id source.id t revised.data := updateMerges ran rowHere (.inr rfl)
      obtain ⟨updated,rfl,named⟩ := updateNamed ran rowHere
      refine endsThen (endsPure ?_)
      refine endsCheck (fun _ _ => made _ _ first) fun linkContext _ => ?_
      rw [named]
      refine endsAsk (fun error after ran => made _ _ (first.trans (addLinkMerges ran))) fun link linked ran => ?_
      have second := first.trans (addLinkMerges ran)
      obtain ⟨_,selected⟩ := Option.isSome_iff_exists.mp (hasIff.mp ((second.there source.id).trans (hasRow sourceHere)))
      refine endsAsk (fun error after ran => made _ _ (second.trans (updateMerges ran selected (.inl rfl)))) fun archived last ran => ?_
      have third := second.trans (updateMerges ran selected (.inl rfl))
      exact endsThen (endsCheck (fun _ _ => made _ _ third) fun _ _ => endsPure
        (endsCheck (fun _ _ => made _ _ third) fun _ _ => endsCheck (fun _ _ => made _ _ third) fun _ _ => made _ _ third))

/- A link has its source in the table, by the foreign key. -/
def Sourced (t : Tables) : Prop := ∀ a b, Supersedes t a b → t.has a

/- What is to hold of the graph after merges. -/
structure Canonical (t : Tables) : Prop where
  acyclic : Acyclic (Supersedes t)
  sourced : Sourced t

theorem canonicalMerge {call : MergeCall} (onward : Onward call t) (canonical : Canonical t) :
    Canonical (mergeInto env call t) := by
  rcases @mergeOutcome env call t with ⟨same,_⟩ | ⟨canonicalId,sourceId,names,merges⟩
  · rwa [mergeInto,same]
  · refine ⟨acyclicAdd merges.links (onward _ _ names) canonical.acyclic,fun a b edge => (merges.there a).trans ?_⟩
    rcases merges.links a b edge with old | ⟨rfl,_⟩
    · exact canonical.sourced a b old
    · obtain ⟨_,_,record,_,_,_,found,_,rfl,_⟩ := names
      obtain ⟨row,here,_⟩ := recordNamed found
      exact hasRow here

theorem supersededFinite (t : Tables) : {b | ∃ a, Supersedes t a b}.Finite := by
  refine (List.finite_toSet (t.links.map (·.targetId))).subset ?_
  rintro b ⟨a,link,member,_,_,rfl⟩
  exact List.mem_map_of_mem member

/- Walking the SUPERSEDES links back from a memory ends, in a memory that none supersedes. -/
def Rooted (t : Tables) (memoryId : String) : Prop := WellFounded (Supersedes t) ∧
  ∃ top, ReflTransGen (Supersedes t) top memoryId ∧ t.has top ∧ ∀ other, ¬ Supersedes t other top

theorem canonicalRooted (canonical : Canonical t) {memoryId : String} (there : t.has memoryId) : Rooted t memoryId := by
  have ends := acyclicEnds (supersededFinite t) canonical.acyclic
  obtain ⟨top,path,last⟩ := rooted ends memoryId
  refine ⟨ends,top,path,?_,last⟩
  rcases path.cases_head with rfl | ⟨next,edge,_⟩
  · exact there
  · exact canonical.sourced _ _ edge

theorem mergeThere (call : MergeCall) (t : Tables) (memoryId : String) :
    (mergeInto env call t).has memoryId = t.has memoryId := by
  rcases @mergeOutcome env call t with ⟨same,_⟩ | ⟨_,_,_,merges⟩
  · rw [mergeInto,same]
  · exact merges.there memoryId

theorem mergesThere (calls : List MergeCall) (t : Tables) (memoryId : String) :
    (Interleave.reach (mergeInto env) t calls).has memoryId = t.has memoryId := by
  induction calls generalizing t with
  | nil => rfl
  | cons call rest ih => exact (ih _).trans (mergeThere call t memoryId)

variable (env)

/- What merges are to keep, one after another: no cycle, and for each that succeeds its canonical memory
as it was and a way back from its source. -/
def MergesKeep (t : Tables) (calls : List MergeCall) : Prop :=
  Canonical (Interleave.reach (mergeInto env) t calls) ∧ ∀ first call rest, calls = first ++ call :: rest →
    Succeeds env call (Interleave.reach (mergeInto env) t first) → ∃ canonicalId sourceId,
      Names call (Interleave.reach (mergeInto env) t first) canonicalId sourceId ∧
      statusOf canonicalId (Interleave.reach (mergeInto env) t (first ++ [call])) =
        statusOf canonicalId (Interleave.reach (mergeInto env) t first) ∧
      Rooted (Interleave.reach (mergeInto env) t calls) sourceId

variable {env}

theorem mergesKeep {calls : List MergeCall} (start : Canonical t)
    (onward : Interleave.Holding (mergeInto env) Onward t calls) : MergesKeep env t calls := by
  have ending : Canonical (Interleave.reach (mergeInto env) t calls) :=
    Interleave.reachHolding (fun _ _ => canonicalMerge) onward start
  refine ⟨ending,?_⟩
  rintro first call rest rfl succeeds
  rcases @mergeOutcome env call (Interleave.reach (mergeInto env) t first) with ⟨_,failed⟩ | ⟨canonicalId,sourceId,names,merges⟩
  · exact absurd (failed.symm.trans succeeds) (by decide)
  · have here := (Interleave.holdingAppend.mp onward).2.1 _ _ names
    refine ⟨canonicalId,sourceId,names,?_,canonicalRooted ending ?_⟩
    · rw [Interleave.reachAppend]
      exact merges.spared canonicalId fun same => here (same ▸ .refl)
    · obtain ⟨_,_,_,record,_,_,_,found,_,rfl⟩ := names
      obtain ⟨row,there,_⟩ := recordNamed found
      have has := hasRow there
      rw [mergesThere] at has ⊢
      exact has

/- Two notes, of which one is merged into the other. -/

def firstNote : MemoryRow := ⟨"a",some 1,"first","kept",some "first","fact","active","t0","t0",none,[]⟩

def secondNote : MemoryRow := ⟨"b",some 2,"second","kept as well",some "second","fact","active","t0","t0",none,[]⟩

def twoNotes : Tables := { Memory.empty with memories := [firstNote,secondNote], workspaces := [("a","w"),("b","w")] }

def mergeCall (canonical source : String) : MergeCall :=
  ⟨[("canonical_memory_id",.str canonical),("source_memory_id",.str source)],fun _ => ⟨none,"event","t1",0⟩⟩

theorem unlinkedEdge {a b : String} (none : t.links = []) : ¬ Supersedes t a b := by
  rintro ⟨link,member,_⟩
  rw [none] at member
  cases member

theorem twoCanonical : Canonical twoNotes where
  acyclic _ cycle := by
    obtain ⟨_,_,edge⟩ := Relation.TransGen.tail'_iff.mp cycle
    exact unlinkedEdge rfl edge
  sourced _ _ edge := absurd edge (unlinkedEdge rfl)

theorem namesRead {call : MergeCall} {canonicalMemoryId sourceMemoryId a b : String}
    (first : requireString call.arguments "canonical_memory_id" = .ok canonicalMemoryId)
    (second : requireString call.arguments "source_memory_id" = .ok sourceMemoryId)
    (readCanonical : (repositoryMemory t canonicalMemoryId).toOption.join.map (·.id) = some a)
    (readSource : (repositoryMemory t sourceMemoryId).toOption.join.map (·.id) = some b)
    (names : Names call t canonicalId sourceId) : canonicalId = a ∧ sourceId = b := by
  obtain ⟨_,_,canonical,source,first',second',here,there,rfl,rfl⟩ := names
  cases first.symm.trans first'
  cases second.symm.trans second'
  rw [here] at readCanonical
  rw [there] at readSource
  exact ⟨Option.some.inj readCanonical,Option.some.inj readSource⟩

theorem mergesKeepSample : Succeeds Curation.asciiTools (mergeCall "a" "mem-2") twoNotes ∧
    MergesKeep Curation.asciiTools twoNotes [mergeCall "a" "mem-2"] := by
  refine ⟨by decide +kernel,mergesKeep twoCanonical ⟨fun canonicalId sourceId names path => ?_,trivial⟩⟩
  have canonicalText : requireString (mergeCall "a" "mem-2").arguments "canonical_memory_id" = .ok "a" := by decide +kernel
  have sourceText : requireString (mergeCall "a" "mem-2").arguments "source_memory_id" = .ok "mem-2" := by decide +kernel
  obtain ⟨rfl,rfl⟩ := namesRead canonicalText sourceText (a := "a") (b := "b") (by decide +kernel) (by decide +kernel) names
  obtain same | ⟨_,_,edge⟩ := Relation.ReflTransGen.cases_tail_iff _ _ _ |>.mp path
  · revert same
    decide
  · exact unlinkedEdge rfl edge

theorem edgeListed {link : MemoryLink} (member : link ∈ t.links) (named : link.linkType = "SUPERSEDES") :
    Supersedes t link.sourceId link.targetId := ⟨link,member,named,rfl,rfl⟩

def mergedLink (sourceId targetId : String) : MemoryLink := ⟨sourceId,targetId,"SUPERSEDES",
  "Merged into canonical memory by internal maintenance tools."⟩

/- A memory merged into itself, under its number, and a memory merged back into what superseded it. -/
theorem selfMerge : ¬ MergesKeep Curation.asciiTools twoNotes [mergeCall "a" "mem-1"] ∧
    ¬ MergesKeep Curation.asciiTools twoNotes [mergeCall "a" "b",mergeCall "b" "a"] := by
  have loop : mergedLink "a" "a" ∈ (Interleave.reach (mergeInto Curation.asciiTools) twoNotes [mergeCall "a" "mem-1"]).links := by
    decide +kernel
  have there : mergedLink "a" "b" ∈ (Interleave.reach (mergeInto Curation.asciiTools) twoNotes
      [mergeCall "a" "b",mergeCall "b" "a"]).links := by decide +kernel
  have back : mergedLink "b" "a" ∈ (Interleave.reach (mergeInto Curation.asciiTools) twoNotes
      [mergeCall "a" "b",mergeCall "b" "a"]).links := by decide +kernel
  constructor
  · exact fun kept => kept.1.acyclic "a" (.single (edgeListed loop rfl))
  · exact fun kept => kept.1.acyclic "a" (.tail (.single (edgeListed there rfl)) (edgeListed back rfl))

end McpMemory.Relational
