import McpMemory.Lib.Commuting
import McpMemory.Search.Prefetch
import McpMemory.Search.Ranking

/-! `integrations/searchkernel_record_pipeline.py`: what the memories have to say in a search. The
kernel asks of every candidate whether it is allowed, has every one that is scored, and asks of every
result whether it is allowed. The answers read the memories through the context of the search,
and tell each other what they have seen. -/
namespace McpMemory.Search.Filtering
open Memory hiding hydrateRecord
open Commuting Table Transaction
open Curation (ActionError)
open Ranking (RankingEngine RankingSignals)

structure Env where
  tables : Tables
  order : List String → List String
  accessed : String → Rat × Option String
  casefold : String → String
  engine : RankingEngine
  semanticOnlyAbstainThreshold : Rat

/- Of the details of a strategy, its raw score. -/
structure SearchResultProvenance where
  strategies : List String
  strategyDetails : List (String × Rat)

/- Which memory it is, and how it was found. -/
structure Hit where
  recordId : String
  provenance : SearchResultProvenance

structure RecordSearchCandidate extends Hit where
  score : Rat

structure RecordSearchResult extends Hit where
  score : Rat

/- A value of another type is as good as none. -/
structure Filters where
  workspaceId : Option String
  rankingWorkspaceId : Option (Option String)
  status : Option String
  memoryType : Option String
  tags : Option (List String)
  includeSuperseded : Bool

structure MemorySearchSignalContext where
  query : String
  queryTokens : List String
  semanticOnlyAbstainThreshold : Rat
  keywordCandidatesPresent : Bool
  semanticCandidateCount : Nat
  semanticOnlyCandidateCount : Nat
  semanticAbstentionCount : Nat
  maxRawSemanticScore : Rat

structure Active where
  policy : PolicyContext
  signals : MemorySearchSignalContext

abbrev Hook (α : Type) := Program Active ActionError α

variable (env : Env) (filters : Filters)

abbrev Reading (α : Type) := Program PolicyContext ActionError α

def getMemory (memoryId : String) : Reading (Option MemoryRecord) := fun context =>
  (context.getMemory env.tables memoryId).map Prod.swap

def getLinks (memoryId : String) (incoming : Bool) (linkType : Option String) : Reading (List MemoryLink) := fun context =>
  (context.getLinks env.tables memoryId incoming linkType).map Prod.swap

def getRankingCandidate (memoryId : String) : Reading (Option Relational.Reading.RankedMemoryCandidate) := fun context =>
  (context.rankingCandidate env.order env.tables memoryId).map Prod.swap

def policyPart : Part Active PolicyContext where
  get := Active.policy
  put policy active := { active with policy := policy }
  getPut _ _ := rfl
  putGet _ := rfl
  putPut _ _ _ := rfl

def signalPart : Part Active MemorySearchSignalContext where
  get := Active.signals
  put signals active := { active with signals := signals }
  getPut _ _ := rfl
  putGet _ := rfl
  putPut _ _ _ := rfl

def cachedMemory (memoryId : String) : Hook (Option MemoryRecord) := policyPart.on (getMemory env memoryId)

def cachedLinks (memoryId : String) (incoming : Bool) (linkType : Option String) : Hook (List MemoryLink) :=
  policyPart.on (getLinks env memoryId incoming linkType)

def rankingCandidate (memoryId : String) : Hook (Option Relational.Reading.RankedMemoryCandidate) :=
  policyPart.on (getRankingCandidate env memoryId)

def signalContext : Hook MemorySearchSignalContext := signalPart.on get

def signal (change : MemorySearchSignalContext → MemorySearchSignalContext) : Hook PUnit := signalPart.on (modify change)

def signalIf (condition : Bool) (change : MemorySearchSignalContext → MemorySearchSignalContext) : Hook PUnit :=
  signal fun context => if condition then change context else context

/- The conditions on the record itself. -/
def fieldsAllowed (memory : MemoryRecord) : Bool :=
  filters.workspaceId.all memory.workspaceIds.contains &&
  (match filters.status with
    | some status => memory.status == status
    | none => memory.status != "archived") &&
  filters.memoryType.all (memory.type == ·) && filters.tags.all fun tags => tags.all memory.tags.contains

def memoryAllowed (memory : MemoryRecord) : Hook Bool := do
  if !fieldsAllowed filters memory then pure false
  else if filters.includeSuperseded then pure true
  else do
    let incoming ← cachedLinks env memory.id true (some "SUPERSEDES")
    pure incoming.isEmpty

def markKeyword (context : MemorySearchSignalContext) : MemorySearchSignalContext :=
  { context with keywordCandidatesPresent := true }

def raiseSemantic (rawScore : Option Rat) (context : MemorySearchSignalContext) : MemorySearchSignalContext :=
  match rawScore with
  | none => context
  | some rawScore => { context with maxRawSemanticScore := max context.maxRawSemanticScore rawScore }

def countSemantic (seen only abstained : Nat) (context : MemorySearchSignalContext) : MemorySearchSignalContext :=
  { context with
    semanticCandidateCount := context.semanticCandidateCount + seen
    semanticOnlyCandidateCount := context.semanticOnlyCandidateCount + only
    semanticAbstentionCount := context.semanticAbstentionCount + abstained }

def candidateAllowed (candidate : RecordSearchCandidate) : Hook Bool := do
  match ← cachedMemory env candidate.recordId with
  | none => pure false
  | some record =>
    if ← memoryAllowed env filters record then
      signalIf (candidate.provenance.strategies.contains "keyword") markKeyword
      pure true
    else pure false

/- The tables leave the columns of the accesses out. -/
def rankedRecord (candidate : Relational.Reading.RankedMemoryCandidate) : Ranking.Candidate :=
  .ranked ⟨candidate.record,(env.accessed candidate.record.id).1,(env.accessed candidate.record.id).2⟩
    candidate.incomingLinksCount candidate.incomingLinkTypeCounts

/- What the engine gives the one candidate, when its signals are known. -/
def adjustedScore (candidate : RecordSearchCandidate) (record : MemoryRecord) (ranked : Relational.Reading.RankedMemoryCandidate)
    (context : MemorySearchSignalContext) : Rat :=
  let keyword := candidate.provenance.strategyDetails.lookup "keyword"
  let semantic := candidate.provenance.strategyDetails.lookup "vector"
  let signals : RankingSignals := {
    matchedByKeyword := keyword.isSome
    matchedBySemantic := semantic.isSome
    semanticScore := semantic.getD 0
    keywordTokenCoverage := if keyword.isSome then Ranking.keywordTokenCoverage context.queryTokens record else 0
    expandedByGraph := candidate.provenance.strategies.contains "graph"
    exactIdentifierMatch := Ranking.hasExactIdentifierMatch env.casefold context.query record }
  let request : RankingEngine.Request := ⟨filters.rankingWorkspaceId.getD filters.workspaceId,
    some fun memoryId => if memoryId = record.id then some signals else none,context.keywordCandidatesPresent⟩
  ((env.engine.rankRecords request [rankedRecord env ranked] fun memoryId =>
    if memoryId = record.id then some candidate.score else none).head?.map Prod.snd).getD 0

def adjustScore (candidate : RecordSearchCandidate) : Hook Rat := do
  match ← cachedMemory env candidate.recordId with
  | none => pure 0
  | some record => match ← rankingCandidate env candidate.recordId with
    | none => pure 0
    | some ranked =>
      signal (raiseSemantic (candidate.provenance.strategyDetails.lookup "vector"))
      let context ← signalContext
      pure (adjustedScore env filters candidate record ranked context)

/- A result of the vectors alone is weighed by its own score; one of neither by what was seen. -/
def weighResult (result : RecordSearchResult) : Hook Bool := do
  let semantic := result.provenance.strategyDetails.lookup "vector"
  signalIf semantic.isSome (countSemantic 1 0 0)
  if result.provenance.strategies.contains "keyword" then do
    signal markKeyword
    pure true
  else do
    signalIf semantic.isSome (countSemantic 0 1 0)
    if semantic.any (· < env.semanticOnlyAbstainThreshold) then do
      signal (countSemantic 0 0 1)
      pure false
    else do
      signal (raiseSemantic semantic)
      let context ← signalContext
      let allowed := context.keywordCandidatesPresent || context.semanticOnlyAbstainThreshold ≤ context.maxRawSemanticScore
      signalIf (semantic.isSome && !allowed) (countSemantic 0 0 1)
      pure allowed

def resultAllowed (result : RecordSearchResult) : Hook Bool := do
  match ← cachedMemory env result.recordId with
  | none => pure false
  | some record =>
    if ← memoryAllowed env filters record then weighResult env result
    else pure false

/- The kernel arranges the candidates between the passes as it likes. -/
structure Kernel where
  fused : List RecordSearchCandidate → List RecordSearchCandidate
  ranked : List RecordSearchResult → List RecordSearchResult
  fusedPerm : ∀ candidates, (fused candidates).Perm candidates
  rankedPerm : ∀ results, (ranked results).Perm results

variable (kernel : Kernel)

def allowed {α : Type} (answers : List (α × Bool)) : List α := (answers.filter Prod.snd).map Prod.fst

def scoredResult (answer : RecordSearchCandidate × Rat) : RecordSearchResult :=
  ⟨answer.1.toHit,answer.2⟩

/- The passes of a search, up to its limit. -/
def searchPasses (candidates : List RecordSearchCandidate) : Hook (List RecordSearchResult) := do
  let filtered ← each (candidateAllowed env filters) candidates
  let scored ← each (adjustScore env filters) (kernel.fused (allowed filtered))
  let answered ← each (resultAllowed env filters) (kernel.ranked (scored.map scoredResult))
  pure (allowed answered)

/- What is kept, whatever it scores and in whatever order. -/
def SameKept : Except ActionError (List RecordSearchResult × Active) → Except ActionError (List RecordSearchResult × Active) → Prop
  | .ok (kept,_),.ok (others,_) => (kept.map (·.toHit)).Perm (others.map (·.toHit))
  | .error _,.error _ => True
  | _,_ => False

/- The two maps of the context. -/

def recordsPart : Part PolicyContext (String → Option (Option MemoryRecord)) where
  get := PolicyContext.records
  put records context := { context with records := records }
  getPut _ _ := rfl
  putGet _ := rfl
  putPut _ _ _ := rfl

def linksPart : Part PolicyContext (String × Bool → Option (List MemoryLink)) where
  get := PolicyContext.links
  put links context := { context with links := links }
  getPut _ _ := rfl
  putGet _ := rfl
  putPut _ _ _ := rfl

variable {env} {filters} {kernel}

theorem getMemoryKept (memoryId : String) :
    getMemory env memoryId = recordsPart.on (kept (Relational.Reading.getMemory env.tables) memoryId) := by
  funext context
  have here : recordsPart.get context = context.records := rfl
  unfold getMemory PolicyContext.getMemory Part.on kept
  rw [here]
  cases context.records memoryId with
  | some found => rfl
  | none => cases Relational.Reading.getMemory env.tables memoryId <;> rfl

theorem getLinksKept (memoryId : String) (incoming : Bool) (linkType : Option String) : getLinks env memoryId incoming linkType =
    linksPart.on (kept (fun key : String × Bool => repositoryLinks env.tables key.1 key.2) (memoryId,incoming)) >>= fun links =>
      pure (links.filter fun link => linkType.all (· == link.linkType)) := by
  funext context
  have here : linksPart.get context = context.links := rfl
  have runs : (linksPart.on (kept (fun key : String × Bool => repositoryLinks env.tables key.1 key.2) (memoryId,incoming)) >>=
      fun links => (pure (links.filter fun link => linkType.all (· == link.linkType)) : Reading _)) context =
    (linksPart.on (kept (fun key : String × Bool => repositoryLinks env.tables key.1 key.2) (memoryId,incoming)) context).bind
      fun reply => .ok (reply.1.filter fun link => linkType.all (· == link.linkType),reply.2) := rfl
  rw [runs]
  unfold getLinks PolicyContext.getLinks Part.on kept
  rw [here]
  cases context.links (memoryId,incoming) with
  | some links => rfl
  | none =>
    dsimp only
    cases repositoryLinks env.tables memoryId incoming <;> rfl

theorem recordsApart : Apart recordsPart linksPart := ⟨fun _ _ _ => rfl,fun _ _ => rfl,fun _ _ => rfl⟩

theorem policyApart : Apart policyPart signalPart := ⟨fun _ _ _ => rfl,fun _ _ => rfl,fun _ _ => rfl⟩

theorem memoryMemory (first second : String) : Commutes (getMemory env first) (getMemory env second) := by
  rw [getMemoryKept,getMemoryKept]
  exact commutesOn (keptCommutes first second)

theorem linksLinks (first second : String) (incoming outgoing : Bool) (linkType other : Option String) :
    Commutes (getLinks env first incoming linkType) (getLinks env second outgoing other) := by
  rw [getLinksKept,getLinksKept]
  exact commutesBoth (commutesOn (keptCommutes _ _)) (fun _ => commutesPure) (fun _ => commutesPure.symm) fun _ _ => commutesPure

theorem memoryLinks (first second : String) (incoming : Bool) (linkType : Option String) :
    Commutes (getMemory env first) (getLinks env second incoming linkType) := by
  rw [getMemoryKept,getLinksKept]
  exact (commutesBind (commutesApart recordsApart).symm fun _ => commutesPure).symm

theorem runsSignal {change : MemorySearchSignalContext → MemorySearchSignalContext} {before after : Active} {u : PUnit} :
    Runs (signal change) before u after ↔ { before with signals := change before.signals } = after := by
  unfold signal
  rw [runsOn]
  constructor
  · rintro ⟨value,ran,rfl⟩
    rw [← runsModify.mp ran]
    rfl
  · rintro rfl
    exact ⟨_,runsModify.mpr rfl,rfl⟩

theorem signalReading {α : Type} (change : MemorySearchSignalContext → MemorySearchSignalContext) (x : Reading α) :
    Commutes (signal change) (policyPart.on x) := (commutesApart policyApart).symm

theorem signalSignal {f g : MemorySearchSignalContext → MemorySearchSignalContext} (same : ∀ context, g (f context) = f (g context)) :
    Commutes (signal f) (signal g) := commutesOn (commutesModify same)

section
variable {α : Type} {y : Hook α} (links : ∀ memoryId incoming linkType, Commutes (cachedLinks env memoryId incoming linkType) y)
include links

theorem memoryAllowedCommutes (memory : MemoryRecord) : Commutes (memoryAllowed env filters memory) y := by
  unfold memoryAllowed
  split
  · exact commutesPure
  split
  · exact commutesPure
  · exact commutesBind (links _ _ _) fun _ => commutesPure

variable (memories : ∀ memoryId, Commutes (cachedMemory env memoryId) y)
include memories

theorem candidateAllowedCommutes (mark : ∀ found, Commutes (signalIf found markKeyword) y) (candidate : RecordSearchCandidate) :
    Commutes (candidateAllowed env filters candidate) y := by
  refine commutesBind (memories _) fun found => ?_
  cases found with
  | none => exact commutesPure
  | some record =>
    refine commutesBind (memoryAllowedCommutes links record) fun answer => ?_
    cases answer with
    | false => exact commutesPure
    | true => exact commutesBind (mark _) fun _ => commutesPure

end

theorem candidatesCommute (first second : RecordSearchCandidate) :
    Commutes (candidateAllowed env filters first) (candidateAllowed env filters second) := by
  have marks : ∀ found other, Commutes (signalIf found markKeyword) (signalIf other markKeyword) := fun found other =>
    signalSignal fun _ => by cases found <;> cases other <;> rfl
  refine candidateAllowedCommutes (fun memoryId incoming linkType => ?_) (fun memoryId => ?_) (fun found => ?_) first
  · exact (candidateAllowedCommutes (fun _ _ _ => commutesOn (linksLinks _ _ _ _ _ _))
      (fun _ => commutesOn (memoryLinks _ _ _ _)) (fun _ => signalReading _ _) second).symm
  · exact (candidateAllowedCommutes (fun _ _ _ => commutesOn (memoryLinks _ _ _ _).symm)
      (fun _ => commutesOn (memoryMemory _ _)) (fun _ => signalReading _ _) second).symm
  · exact (candidateAllowedCommutes (fun _ _ _ => (signalReading _ _).symm) (fun _ => (signalReading _ _).symm)
      (fun other => marks other found) second).symm

/- What the query gives for one memory. -/
def fetched (candidates : List Relational.Reading.RankedMemoryCandidate) (memoryId : String) :
    Option MemoryRecord × List MemoryLink := match candidates.reverse.find? (·.record.id == memoryId) with
  | none => (none,[])
  | some candidate => (some candidate.record,rebuiltLinks memoryId candidate.incomingLinkTypeCounts)

/- What the context has of a memory once it is asked for its ranking. -/
def Slice (env : Env) (context : PolicyContext) (memoryId : String) (record : Option MemoryRecord) (links : List MemoryLink) : Prop :=
  context.records memoryId = some record ∧ context.links (memoryId,true) = some links ∨
    context.misses memoryId = true ∧ ∃ candidates, Relational.Reading.getRankingCandidates env.order env.tables [memoryId] ⟨none,true⟩ =
      .ok candidates ∧ fetched candidates memoryId = (record,links)

theorem putSame {context : PolicyContext} {memoryId : String} {record : Option MemoryRecord} {links : List MemoryLink}
    (records : context.records memoryId = some record) (held : context.links (memoryId,true) = some links) :
    context.put memoryId record links = context := by
  unfold PolicyContext.put
  rw [← records,← held,Function.update_eq_self,Function.update_eq_self]

theorem putComm {context : PolicyContext} {first second : String} (apart : first ≠ second) {record other : Option MemoryRecord}
    {links others : List MemoryLink} :
    (context.put first record links).put second other others = (context.put second other others).put first record links := by
  have keys : ((first,true) : String × Bool) ≠ (second,true) := fun same => apart (congrArg Prod.fst same)
  simp only [PolicyContext.put]
  rw [Function.update_comm apart.symm,Function.update_comm keys.symm]

theorem prefetchOne {context after : PolicyContext} {memoryId : String} :
    context.prefetch env.order env.tables [memoryId] = .ok after ↔
      ∃ record links, Slice env context memoryId record links ∧ context.put memoryId record links = after := by
  have asked : [memoryId].eraseDups = [memoryId] := by simp [List.eraseDups_cons]
  unfold PolicyContext.prefetch
  rw [asked]
  cases missing : context.misses memoryId with
  | false =>
    obtain ⟨records,links⟩ : (context.records memoryId).isSome ∧ (context.links (memoryId,true)).isSome := by
      simpa [PolicyContext.misses,Option.isSome_iff_ne_none] using missing
    obtain ⟨record,here⟩ := Option.isSome_iff_exists.mp records
    obtain ⟨links,held⟩ := Option.isSome_iff_exists.mp links
    rw [List.filter_cons_of_neg (by simp [missing]),List.filter_nil]
    constructor
    · intro ran
      cases ran
      exact ⟨record,links,.inl ⟨here,held⟩,putSame here held⟩
    · rintro ⟨other,others,⟨same,also⟩ | ⟨missed,_⟩,rfl⟩
      · rw [putSame same also]
      · rw [missing] at missed
        cases missed
  | true =>
    rw [List.filter_cons_of_pos missing,List.filter_nil]
    have put : ∀ candidates, [memoryId].foldl (keepCandidate candidates) context =
        context.put memoryId (fetched candidates memoryId).1 (fetched candidates memoryId).2 := by
      intro candidates
      show keepCandidate candidates context memoryId = _
      unfold keepCandidate fetched
      cases candidates.reverse.find? (·.record.id == memoryId) <;> rfl
    constructor
    · intro ran
      obtain ⟨candidates,read,rfl⟩ := mappedOk.mp ran
      exact ⟨_,_,.inr ⟨missing,candidates,read,rfl⟩,(put candidates).symm⟩
    · rintro ⟨record,links,⟨here,held⟩ | ⟨_,candidates,read,same⟩,rfl⟩
      · unfold PolicyContext.misses at missing
        rw [here,held] at missing
        cases missing
      · refine mappedOk.mpr ⟨candidates,read,(put candidates).trans ?_⟩
        rw [same]

theorem runsRanking {context after : PolicyContext} {memoryId : String} {found} :
    Runs (getRankingCandidate env memoryId) context found after ↔ ∃ record links, Slice env context memoryId record links ∧
      record.map (builtCandidate · links) = found ∧ context.put memoryId record links = after := by
  have own : ∀ record links, (((context.put memoryId record links).records memoryId).join.map fun kept =>
      builtCandidate kept (((context.put memoryId record links).links (memoryId,true)).getD [])) =
        record.map (builtCandidate · links) := by
    intro record links
    rw [putOwn.1,putOwn.2]
    rfl
  unfold Runs getRankingCandidate PolicyContext.rankingCandidate
  constructor
  · intro ran
    obtain ⟨pair,ran,same⟩ := mappedOk.mp ran
    obtain ⟨middle,read,rfl⟩ := mappedOk.mp ran
    obtain ⟨record,links,slice,rfl⟩ := prefetchOne.mp read
    cases same
    exact ⟨record,links,slice,(own record links).symm,rfl⟩
  · rintro ⟨record,links,slice,rfl,rfl⟩
    refine mappedOk.mpr ⟨_,mappedOk.mpr ⟨_,prefetchOne.mpr ⟨record,links,slice,rfl⟩,rfl⟩,?_⟩
    rw [own]
    rfl

theorem runsMemory {context after : PolicyContext} {memoryId : String} {found} :
    Runs (getMemory env memoryId) context found after ↔
      (context.records memoryId = some found ∨ context.records memoryId = none ∧
        Relational.Reading.getMemory env.tables memoryId = .ok found) ∧
        { context with records := Function.update context.records memoryId (some found) } = after := by
  rw [getMemoryKept,runsOn]
  constructor
  · rintro ⟨records,ran,rfl⟩
    obtain ⟨source,rfl⟩ := runsKept.mp ran
    exact ⟨source,rfl⟩
  · rintro ⟨source,rfl⟩
    exact ⟨_,runsKept.mpr ⟨source,rfl⟩,rfl⟩

/- One memory does not stand in the way of another. -/
theorem sliceOther {context other : PolicyContext} {memoryId : String} {record : Option MemoryRecord} {links : List MemoryLink}
    (records : other.records memoryId = context.records memoryId)
    (held : other.links (memoryId,true) = context.links (memoryId,true)) :
    Slice env other memoryId record links ↔ Slice env context memoryId record links := by
  unfold Slice PolicyContext.misses
  rw [records,held]

theorem rankingRanking {first second : String} (apart : first ≠ second) :
    Commutes (getRankingCandidate env first) (getRankingCandidate env second) := by
  have half : ∀ {first second}, first ≠ second → ∀ before a b after,
      (∃ middle, Runs (getRankingCandidate env first) before a middle ∧ Runs (getRankingCandidate env second) middle b after) →
        ∃ middle, Runs (getRankingCandidate env second) before b middle ∧ Runs (getRankingCandidate env first) middle a after := by
    rintro first second apart before a b after ⟨middle,one,two⟩
    obtain ⟨record,links,slice,rfl,rfl⟩ := runsRanking.mp one
    obtain ⟨other,others,beside,rfl,rfl⟩ := runsRanking.mp two
    have away := @putOther before first second record links apart.symm
    have back := @putOther before second first other others apart
    exact ⟨_,runsRanking.mpr ⟨other,others,(sliceOther away.1 away.2).mp beside,rfl,rfl⟩,
      runsRanking.mpr ⟨record,links,(sliceOther back.1 back.2).mpr slice,rfl,(putComm apart).symm⟩⟩
  exact fun before a b after => ⟨half apart before a b after,half apart.symm before b a after⟩

theorem memoryRanking {first second : String} (apart : first ≠ second) :
    Commutes (getMemory env first) (getRankingCandidate env second) := by
  have moved : ∀ (context : PolicyContext) found record links,
      ({ context with records := Function.update context.records first (some found) } : PolicyContext).put second record links =
        { context.put second record links with records := Function.update (context.put second record links).records first (some found) } := by
    intro context found record links
    simp only [PolicyContext.put]
    rw [Function.update_comm apart.symm]
  have away : ∀ (context : PolicyContext) found record links, Slice env
      { context with records := Function.update context.records first (some found) } second record links ↔
        Slice env context second record links := fun context found record links =>
    sliceOther (Function.update_of_ne apart.symm _ _) rfl
  intro before a b after
  constructor
  · rintro ⟨middle,one,two⟩
    obtain ⟨source,rfl⟩ := runsMemory.mp one
    obtain ⟨record,links,slice,rfl,rfl⟩ := runsRanking.mp two
    refine ⟨_,runsRanking.mpr ⟨record,links,(away before a record links).mp slice,rfl,rfl⟩,
      runsMemory.mpr ⟨?_,(moved before a record links).symm⟩⟩
    rwa [(putOther apart).1]
  · rintro ⟨middle,two,one⟩
    obtain ⟨record,links,slice,rfl,rfl⟩ := runsRanking.mp two
    obtain ⟨source,rfl⟩ := runsMemory.mp one
    rw [(putOther apart).1] at source
    exact ⟨_,runsMemory.mpr ⟨source,rfl⟩,runsRanking.mpr ⟨record,links,
      (away before a record links).mpr slice,rfl,moved before a record links⟩⟩

/- Whether a candidate is scored at all. -/
def reach (env : Env) (memoryId : String) : Reading Bool := do
  match ← getMemory env memoryId with
  | none => pure false
  | some _ => do
    let ranked ← getRankingCandidate env memoryId
    pure ranked.isSome

/- The same context answers the same way again. -/
theorem reachSettles {memoryId : String} {before after : PolicyContext} {found : Bool} (ran : Runs (reach env memoryId) before found after) :
    Runs (reach env memoryId) after found after := by
  obtain ⟨record,middle,read,ran⟩ := runsBind.mp ran
  obtain ⟨_,rfl⟩ := runsMemory.mp read
  have again : ∀ {context : PolicyContext} {record}, context.records memoryId = some record →
      Runs (getMemory env memoryId) context record context := fun {context record} held => runsMemory.mpr ⟨.inl held,by
    rw [← held,Function.update_eq_self]⟩
  cases record with
  | none =>
    obtain ⟨rfl,rfl⟩ := runsPure.mp ran
    exact runsBind.mpr ⟨none,_,again (Function.update_self _ _ _),runsPure.mpr ⟨rfl,rfl⟩⟩
  | some record =>
    obtain ⟨ranked,last,ranking,ran⟩ := runsBind.mp ran
    obtain ⟨kept,links,_,rfl,rfl⟩ := runsRanking.mp ranking
    obtain ⟨rfl,rfl⟩ := runsPure.mp ran
    refine runsBind.mpr ⟨kept,_,again putOwn.1,?_⟩
    cases kept with
    | none => exact runsPure.mpr ⟨rfl,rfl⟩
    | some kept =>
      exact runsBind.mpr ⟨_,_,runsRanking.mpr ⟨some kept,links,.inl ⟨putOwn.1,putOwn.2⟩,rfl,putSame putOwn.1 putOwn.2⟩,
        runsPure.mpr ⟨rfl,rfl⟩⟩

theorem reachReach (first second : String) : Commutes (reach env first) (reach env second) := by
  by_cases same : first = second
  · subst same
    exact commutesSelf fun _ _ _ => reachSettles
  · have scored : ∀ {first second}, first ≠ second → ∀ found : Option MemoryRecord,
        Commutes (match found with
          | none => pure false
          | some _ => do
            let ranked ← getRankingCandidate env first
            pure ranked.isSome : Reading Bool) (getMemory env second) := by
      intro first second apart found
      cases found with
      | none => exact commutesPure
      | some record => exact commutesBind (memoryRanking apart.symm).symm fun _ => commutesPure
    refine commutesBoth (memoryMemory first second) (scored same) (fun found => (scored (Ne.symm same) found).symm) fun found other => ?_
    cases found with
    | none => exact commutesPure
    | some record => cases other with
      | none => exact commutesPure.symm
      | some other => exact commutesBoth (rankingRanking same) (fun _ => commutesPure) (fun _ => commutesPure.symm) fun _ _ => commutesPure

/- No memory was ever read, and letters have one case. -/
def plainEnv (tables : Tables) : Env where
  tables := tables
  order values := values
  accessed _ := (0,none)
  casefold text := text
  engine := RankingEngine.defaultEngine
  semanticOnlyAbstainThreshold := 1 / 2

end McpMemory.Search.Filtering
