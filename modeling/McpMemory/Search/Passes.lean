import McpMemory.Search.Filtering

/-! The passes of a search over the same candidates in another order. A step of one pass changes
places with every other step of it, so the pass ends in one state; what a later pass asks of that
state, the earlier ones have settled, and the same results are kept. -/
namespace McpMemory.Search.Filtering
open Memory hiding hydrateRecord
open Commuting Table Transaction
open Curation (ActionError)
open Ranking (RankingEngine)

variable {env : Env} {filters : Filters} {kernel : Kernel}

/- What scoring a candidate leaves behind. -/
def adjustEffect (env : Env) (hit : Hit) : Hook PUnit := do
  let found ← policyPart.on (reach env hit.recordId)
  signalIf found (raiseSemantic (hit.provenance.strategyDetails.lookup "vector"))

theorem reachHook (memoryId : String) : policyPart.on (reach env memoryId) = (do
    match ← cachedMemory env memoryId with
    | none => pure false
    | some _ => do
      let ranked ← rankingCandidate env memoryId
      pure ranked.isSome : Hook Bool) := by
  unfold reach cachedMemory
  rw [Part.onBind]
  congr 1
  funext found
  cases found with
  | none => exact policyPart.onPure _
  | some record =>
    show policyPart.on (getRankingCandidate env memoryId >>= fun ranked => pure ranked.isSome) = _
    rw [Part.onBind]
    exact congrArg (rankingCandidate env memoryId >>= ·) (funext fun ranked => policyPart.onPure ranked.isSome)

theorem adjustErased {candidate : RecordSearchCandidate} {before after : Active} :
    (∃ score, Runs (adjustScore env filters candidate) before score after) ↔
      ∃ u, Runs (adjustEffect env candidate.toHit) before u after := by
  unfold adjustScore adjustEffect
  rw [reachHook]
  simp only [runsBind]
  constructor
  · rintro ⟨score,found,middle,read,ran⟩
    cases found with
    | none =>
      obtain ⟨rfl,rfl⟩ := runsPure.mp ran
      exact ⟨⟨⟩,false,_,⟨none,_,read,runsPure.mpr ⟨rfl,rfl⟩⟩,runsSignal.mpr rfl⟩
    | some record =>
      obtain ⟨ranked,later,ranking,ran⟩ := runsBind.mp ran
      cases ranked with
      | none =>
        obtain ⟨rfl,rfl⟩ := runsPure.mp ran
        exact ⟨⟨⟩,false,_,⟨some record,_,read,runsBind.mpr ⟨none,_,ranking,runsPure.mpr ⟨rfl,rfl⟩⟩⟩,runsSignal.mpr rfl⟩
      | some ranked =>
        obtain ⟨u,last,raised,ran⟩ := runsBind.mp ran
        obtain ⟨context,final,seen,ended⟩ := runsBind.mp ran
        obtain ⟨_,rfl⟩ := runsPure.mp ended
        obtain ⟨value,got,rfl⟩ := runsOn.mp seen
        obtain ⟨_,rfl⟩ := runsGet.mp got
        rw [signalPart.putGet]
        exact ⟨u,true,_,⟨some record,_,read,runsBind.mpr ⟨some ranked,_,ranking,runsPure.mpr ⟨rfl,rfl⟩⟩⟩,raised⟩
  · rintro ⟨u,found,middle,⟨record,early,read,ran⟩,raised⟩
    cases record with
    | none =>
      obtain ⟨rfl,rfl⟩ := runsPure.mp ran
      obtain rfl := runsSignal.mp raised
      exact ⟨0,none,_,read,runsPure.mpr ⟨rfl,rfl⟩⟩
    | some record =>
      obtain ⟨ranked,later,ranking,ran⟩ := runsBind.mp ran
      obtain ⟨rfl,rfl⟩ := runsPure.mp ran
      cases ranked with
      | none =>
        obtain rfl := runsSignal.mp raised
        exact ⟨0,some record,_,read,runsBind.mpr ⟨none,_,ranking,runsPure.mpr ⟨rfl,rfl⟩⟩⟩
      | some ranked =>
        exact ⟨_,some record,_,read,runsBind.mpr ⟨some ranked,_,ranking,runsBind.mpr ⟨u,_,raised,runsBind.mpr ⟨_,_,
          runsOn.mpr ⟨_,runsGet.mpr ⟨rfl,rfl⟩,signalPart.putGet _⟩,runsPure.mpr ⟨rfl,rfl⟩⟩⟩⟩⟩

theorem raiseRaise (first second : Option Rat) (context : MemorySearchSignalContext) :
    raiseSemantic second (raiseSemantic first context) = raiseSemantic first (raiseSemantic second context) := by
  cases first with
  | none => rfl
  | some first => cases second with
    | none => rfl
    | some second =>
      simp only [raiseSemantic]
      rw [max_right_comm]

theorem effectsCommute (first second : Hit) : Commutes (adjustEffect env first) (adjustEffect env second) := by
  refine commutesBoth (commutesOn (reachReach _ _)) (fun _ => signalReading _ _) (fun _ => (signalReading _ _).symm)
    fun found other => signalSignal fun context => ?_
  cases found <;> cases other
  · rfl
  · rfl
  · rfl
  · exact raiseRaise _ _ _

/- What no step of the passes takes back. -/
structure Grows (before after : Active) : Prop where
  keyword : before.signals.keywordCandidatesPresent = true → after.signals.keywordCandidatesPresent = true
  semantic : before.signals.maxRawSemanticScore ≤ after.signals.maxRawSemanticScore
  absent : ∀ memoryId, before.policy.records memoryId = some none → after.policy.records memoryId = some none

theorem Grows.refl (active : Active) : Grows active active := ⟨id,le_refl _,fun _ => id⟩

theorem Grows.trans {first middle last : Active} (one : Grows first middle) (two : Grows middle last) : Grows first last :=
  ⟨two.keyword ∘ one.keyword,one.semantic.trans two.semantic,fun memoryId => two.absent memoryId ∘ one.absent memoryId⟩

theorem growsBind {α β : Type} {x : Hook α} {next : α → Hook β} (first : Moves Grows x) (rest : ∀ a, Moves Grows (next a)) :
    Moves Grows (x >>= next) := @movesBind _ _ _ _ Grows Grows.trans x next first rest

theorem growsSignal {change : MemorySearchSignalContext → MemorySearchSignalContext}
    (keyword : ∀ context, context.keywordCandidatesPresent = true → (change context).keywordCandidatesPresent = true)
    (semantic : ∀ context, context.maxRawSemanticScore ≤ (change context).maxRawSemanticScore) : Moves Grows (signal change) := by
  intro before u after ran
  obtain rfl := runsSignal.mp ran
  exact ⟨keyword _,semantic _,fun _ => id⟩

theorem memoryAbsent {memoryId other : String} {context after : PolicyContext} {found}
    (ran : Runs (getMemory env memoryId) context found after) (absent : context.records other = some none) :
    after.records other = some none := by
  obtain ⟨source,rfl⟩ := runsMemory.mp ran
  show Function.update context.records memoryId (some found) other = some none
  by_cases same : other = memoryId
  · subst same
    rw [Function.update_self]
    rcases source with held | ⟨missing,_⟩
    · exact held.symm.trans absent
    · cases missing.symm.trans absent
  · rw [Function.update_of_ne same,absent]

theorem growsMemory (memoryId : String) : Moves Grows (cachedMemory env memoryId) := by
  intro before found after ran
  obtain ⟨context,read,rfl⟩ := runsOn.mp ran
  exact ⟨id,le_refl _,fun _ => memoryAbsent read⟩

theorem growsLinks (memoryId : String) (incoming : Bool) (linkType : Option String) :
    Moves Grows (cachedLinks env memoryId incoming linkType) := by
  intro before found after ran
  obtain ⟨context,read,rfl⟩ := runsOn.mp ran
  rw [getLinksKept] at read
  obtain ⟨links,middle,held,ended⟩ := runsBind.mp read
  obtain ⟨_,rfl⟩ := runsPure.mp ended
  obtain ⟨value,_,rfl⟩ := runsOn.mp held
  exact ⟨id,le_refl _,fun _ => id⟩

/- A memory is there to be scored, or known not to be there. -/
theorem reachAbsent {memoryId : String} {before after : PolicyContext} {found : Bool} (ran : Runs (reach env memoryId) before found after) :
    (∀ other, before.records other = some none → after.records other = some none) ∧
      (found = false → after.records memoryId = some none) := by
  obtain ⟨record,middle,read,ran⟩ := runsBind.mp ran
  have kept := fun other => @memoryAbsent _ memoryId other _ _ _ read
  obtain ⟨source,rfl⟩ := runsMemory.mp read
  cases record with
  | none =>
    obtain ⟨rfl,rfl⟩ := runsPure.mp ran
    exact ⟨kept,fun _ => Function.update_self _ _ _⟩
  | some record =>
    obtain ⟨ranked,last,ranking,ran⟩ := runsBind.mp ran
    obtain ⟨other,links,_,rfl,rfl⟩ := runsRanking.mp ranking
    obtain ⟨rfl,rfl⟩ := runsPure.mp ran
    refine ⟨fun another absent => ?_,fun lost => ?_⟩
    · by_cases same : another = memoryId
      · subst same
        -- the record is there, so this was never known of it
        cases (Function.update_self _ _ _).symm.trans (kept another absent)
      · rw [(putOther same).1]
        exact kept another absent
    · cases other with
      | none => exact putOwn.1
      | some other => cases lost

theorem growsReach (memoryId : String) : Moves Grows (policyPart.on (reach env memoryId)) := by
  intro before found after ran
  obtain ⟨context,read,rfl⟩ := runsOn.mp ran
  exact ⟨id,le_refl _,(reachAbsent read).1⟩

theorem growsMark (found : Bool) : Moves Grows (signalIf found markKeyword) := by
  refine growsSignal (fun context present => ?_) (fun context => ?_)
  · cases found
    · exact present
    · rfl
  · cases found <;> exact le_refl _

theorem growsRaise (found : Bool) (rawScore : Option Rat) : Moves Grows (signalIf found (raiseSemantic rawScore)) := by
  refine growsSignal (fun context present => ?_) (fun context => ?_)
  · cases found
    · exact present
    · cases rawScore <;> exact present
  · cases found
    · exact le_refl _
    · cases rawScore
      · exact le_refl _
      · exact le_max_left _ _

theorem growsAllowed (memory : MemoryRecord) : Moves Grows (memoryAllowed env filters memory) := by
  unfold memoryAllowed
  split
  · exact movesPure Grows.refl _
  split
  · exact movesPure Grows.refl _
  · exact growsBind (growsLinks _ _ _) fun _ => movesPure Grows.refl _

theorem growsCandidate (candidate : RecordSearchCandidate) : Moves Grows (candidateAllowed env filters candidate) := by
  refine growsBind (growsMemory _) fun found => ?_
  cases found with
  | none => exact movesPure Grows.refl _
  | some record =>
    refine growsBind (growsAllowed record) fun answer => ?_
    cases answer with
    | false => exact movesPure Grows.refl _
    | true => exact growsBind (growsMark _) fun _ => movesPure Grows.refl _

theorem growsScore (candidate : RecordSearchCandidate) : Moves Grows (adjustScore env filters candidate) := by
  intro before score after ran
  obtain ⟨u,ran⟩ := adjustErased.mp ⟨score,ran⟩
  exact growsBind (growsReach _) (fun _ => growsRaise _ _) _ _ _ ran

/- What the passes before have seen of a candidate that is left. -/
structure Seen (hit : Hit) (active : Active) : Prop where
  keyword : hit.provenance.strategies.contains "keyword" = true → active.signals.keywordCandidatesPresent = true
  semantic : ∀ rawScore, hit.provenance.strategyDetails.lookup "vector" = some rawScore →
    active.policy.records hit.recordId = some none ∨ rawScore ≤ active.signals.maxRawSemanticScore

theorem Seen.grow {hit : Hit} {before after : Active} (seen : Seen hit before) (grows : Grows before after) : Seen hit after :=
  ⟨grows.keyword ∘ seen.keyword,fun rawScore found => (seen.semantic rawScore found).imp (grows.absent _) grows.semantic.trans'⟩

theorem candidateSeen {candidate : RecordSearchCandidate} {before after : Active} {answer : Bool}
    (ran : Runs (candidateAllowed env filters candidate) before answer after) (kept : answer = true)
    (keyword : candidate.provenance.strategies.contains "keyword" = true) : after.signals.keywordCandidatesPresent = true := by
  obtain ⟨found,middle,_,ran⟩ := runsBind.mp ran
  cases found with
  | none =>
    obtain ⟨rfl,_⟩ := runsPure.mp ran
    cases kept
  | some record =>
    obtain ⟨allowed,later,_,ran⟩ := runsBind.mp ran
    cases allowed with
    | false =>
      obtain ⟨rfl,_⟩ := runsPure.mp ran
      cases kept
    | true =>
      obtain ⟨u,last,marked,ended⟩ := runsBind.mp ran
      obtain ⟨_,rfl⟩ := runsPure.mp ended
      obtain rfl := runsSignal.mp marked
      rw [keyword]
      rfl

theorem scoreSeen {candidate : RecordSearchCandidate} {before after : Active} {score : Rat}
    (ran : Runs (adjustScore env filters candidate) before score after) {rawScore : Rat}
    (found : candidate.provenance.strategyDetails.lookup "vector" = some rawScore) :
    after.policy.records candidate.recordId = some none ∨ rawScore ≤ after.signals.maxRawSemanticScore := by
  obtain ⟨u,ran⟩ := adjustErased.mp ⟨score,ran⟩
  obtain ⟨scored,middle,reached,raised⟩ := runsBind.mp ran
  obtain rfl := runsSignal.mp raised
  cases scored with
  | false =>
    obtain ⟨context,read,rfl⟩ := runsOn.mp reached
    exact .inl ((reachAbsent read).2 rfl)
  | true =>
    rw [found]
    exact .inr (le_max_right _ _)

/- The answer to a result, once nothing is left to be seen. -/
def weighAnswer (env : Env) (hit : Hit) (context : MemorySearchSignalContext) : Bool :=
  hit.provenance.strategies.contains "keyword" ||
  !(hit.provenance.strategyDetails.lookup "vector").any (· < env.semanticOnlyAbstainThreshold) &&
    (context.keywordCandidatesPresent || decide (context.semanticOnlyAbstainThreshold ≤ context.maxRawSemanticScore))

def weighCounts (env : Env) (hit : Hit) (context : MemorySearchSignalContext) : MemorySearchSignalContext :=
  let semantic := (hit.provenance.strategyDetails.lookup "vector").isSome
  let alone := semantic && !hit.provenance.strategies.contains "keyword"
  countSemantic semantic.toNat alone.toNat (alone && !weighAnswer env hit context).toNat context

def weighPlain (env : Env) (hit : Hit) : Hook Bool :=
  signalPart.on fun context => .ok (weighAnswer env hit context,weighCounts env hit context)

def resultPlain (env : Env) (filters : Filters) (hit : Hit) : Hook Bool := do
  match ← cachedMemory env hit.recordId with
  | none => pure false
  | some record =>
    if ← memoryAllowed env filters record then weighPlain env hit
    else pure false

theorem weighSeen {result : RecordSearchResult} {active : Active}
    (keyword : result.provenance.strategies.contains "keyword" = true → active.signals.keywordCandidatesPresent = true)
    (semantic : ∀ rawScore, result.provenance.strategyDetails.lookup "vector" = some rawScore →
      rawScore ≤ active.signals.maxRawSemanticScore) :
    weighResult env result active = weighPlain env result.toHit active := by
  obtain ⟨policy,query,tokens,threshold,present,seen,only,abstained,highest⟩ := active
  unfold weighResult weighPlain weighCounts weighAnswer
  generalize result.provenance.strategyDetails.lookup "vector" = vector at semantic ⊢
  cases found : result.provenance.strategies.contains "keyword" with
  | true =>
    obtain rfl : present = true := keyword found
    cases vector <;> rfl
  | false => cases vector with
    | none => rfl
    | some rawScore =>
      have highestKept : max highest rawScore = highest := max_eq_left (semantic rawScore rfl)
      by_cases low : rawScore < env.semanticOnlyAbstainThreshold
      · have below : Option.any (fun score => decide (score < env.semanticOnlyAbstainThreshold)) (some rawScore) = true :=
          decide_eq_true low
        rw [if_neg (by simp),if_pos below,below]
        rfl
      · have above : Option.any (fun score => decide (score < env.semanticOnlyAbstainThreshold)) (some rawScore) = false :=
          decide_eq_false low
        rw [if_neg (by simp),if_neg (by simp [above]),above]
        show Except.ok _ = Except.ok _
        cases present <;> by_cases reaches : threshold ≤ highest <;>
          simp [signalPart,raiseSemantic,countSemantic,highestKept,reaches]

theorem countSemanticComm (seen only abstained seen' only' abstained' : Nat) (context : MemorySearchSignalContext) :
    countSemantic seen only abstained (countSemantic seen' only' abstained' context) =
      countSemantic seen' only' abstained' (countSemantic seen only abstained context) := by
  simp only [countSemantic,Nat.add_right_comm]

theorem countsCounts (first second : Hit) (context : MemorySearchSignalContext) :
    weighCounts env first (weighCounts env second context) = weighCounts env second (weighCounts env first context) :=
  countSemanticComm _ _ _ _ _ _ context

theorem weighCommutes (first second : Hit) : Commutes (weighPlain env first) (weighPlain env second) := by
  refine commutesOn fun before a b after => ?_
  have runs : ∀ (hit : Hit) (context : MemorySearchSignalContext) answer last,
      Runs (fun context => Except.ok (weighAnswer env hit context,weighCounts env hit context) : Program _ ActionError Bool) context answer last ↔
        weighAnswer env hit context = answer ∧ weighCounts env hit context = last := by
    intro hit context answer last
    simp [Runs]
  simp only [runs]
  constructor
  · rintro ⟨_,⟨rfl,rfl⟩,rfl,rfl⟩
    exact ⟨_,⟨rfl,rfl⟩,rfl,countsCounts first second before⟩
  · rintro ⟨_,⟨rfl,rfl⟩,rfl,rfl⟩
    exact ⟨_,⟨rfl,rfl⟩,rfl,countsCounts second first before⟩

section
variable {α : Type} {y : Hook α} (links : ∀ memoryId incoming linkType, Commutes (cachedLinks env memoryId incoming linkType) y)
  (memories : ∀ memoryId, Commutes (cachedMemory env memoryId) y)
include links memories

theorem resultPlainCommutes (weighs : ∀ hit, Commutes (weighPlain env hit) y) (hit : Hit) : Commutes (resultPlain env filters hit) y := by
  refine commutesBind (memories _) fun found => ?_
  cases found with
  | none => exact commutesPure
  | some record =>
    refine commutesBind (memoryAllowedCommutes links record) fun answer => ?_
    cases answer with
    | false => exact commutesPure
    | true => exact weighs hit

end

theorem resultsCommute (first second : Hit) : Commutes (resultPlain env filters first) (resultPlain env filters second) := by
  have weighing : ∀ {α : Type} (hit : Hit) (x : Reading α), Commutes (weighPlain env hit) (policyPart.on x) := fun hit x =>
    (commutesApart policyApart).symm
  refine resultPlainCommutes (fun memoryId incoming linkType => ?_) (fun memoryId => ?_) (fun hit => ?_) first
  · exact (resultPlainCommutes (fun _ _ _ => commutesOn (linksLinks _ _ _ _ _ _))
      (fun _ => commutesOn (memoryLinks _ _ _ _)) (fun _ => weighing _ _) second).symm
  · exact (resultPlainCommutes (fun _ _ _ => commutesOn (memoryLinks _ _ _ _).symm)
      (fun _ => commutesOn (memoryMemory _ _)) (fun _ => weighing _ _) second).symm
  · exact (resultPlainCommutes (fun _ _ _ => (weighing _ _).symm) (fun _ => (weighing _ _).symm)
      (fun other => weighCommutes other hit) second).symm

theorem growsResult (hit : Hit) : Moves Grows (resultPlain env filters hit) := by
  refine growsBind (growsMemory _) fun found => ?_
  cases found with
  | none => exact movesPure Grows.refl _
  | some record =>
    refine growsBind (growsAllowed record) fun answer => ?_
    cases answer with
    | false => exact movesPure Grows.refl _
    | true =>
      intro before answer after ran
      have weighing : Runs (weighPlain env hit) before answer after := ran
      obtain ⟨context,weighed,rfl⟩ := runsOn.mp weighing
      cases weighed
      exact ⟨id,le_refl _,fun _ => id⟩

theorem resultSeen {result : RecordSearchResult} {before after : Active} {answer : Bool} (seen : Seen result.toHit before) :
    Runs (resultAllowed env filters result) before answer after ↔ Runs (resultPlain env filters result.toHit) before answer after := by
  refine runsBindCongr fun found middle read => ?_
  cases found with
  | none => exact Iff.rfl
  | some record =>
    refine runsBindCongr fun allowed later ruled => ?_
    cases allowed with
    | false => exact Iff.rfl
    | true =>
      have onwards := (growsMemory result.recordId _ _ _ read).trans (growsAllowed record _ _ _ ruled)
      -- the record is there, so what was seen of its score is in the highest
      have there : before.policy.records result.recordId ≠ some none := by
        intro absent
        obtain ⟨context,asked,_⟩ := runsOn.mp read
        rcases (runsMemory.mp asked).1 with held | ⟨missing,_⟩
        · cases held.symm.trans absent
        · cases missing.symm.trans absent
      show weighResult env result later = _ ↔ weighPlain env result.toHit later = _
      rw [weighSeen (seen.grow onwards).keyword fun rawScore found =>
        ((seen.semantic rawScore found).resolve_left there).trans onwards.semantic]

/- What the first two passes leave for the third. -/
theorem passesSeen {candidates left : List RecordSearchCandidate} {filtered} {scored} {before middle after : Active}
    (first : Runs (each (candidateAllowed env filters) candidates) before filtered middle)
    (second : Runs (each (adjustScore env filters) left) middle scored after) (among : ∀ candidate ∈ left, candidate ∈ allowed filtered) :
    ∀ candidate ∈ left, Seen candidate.toHit after := by
  have marked := @eachMakes _ _ _ _ (candidateAllowed env filters) _ _ _ _ (fun candidate answer active => answer = true →
      candidate.provenance.strategies.contains "keyword" = true → active.signals.keywordCandidatesPresent = true)
    (fun candidate _ _ _ _ ran => candidateSeen ran)
    (fun candidate _ _ _ _ ran _ _ known kept keyword => (growsCandidate candidate _ _ _ ran).keyword (known kept keyword)) first
  have raised := @eachMakes _ _ _ _ (adjustScore env filters) _ _ _ _ (fun candidate _ active =>
      ∀ rawScore, candidate.provenance.strategyDetails.lookup "vector" = some rawScore →
        active.policy.records candidate.recordId = some none ∨ rawScore ≤ active.signals.maxRawSemanticScore)
    (fun candidate _ _ _ _ ran _ found => scoreSeen ran found)
    (fun candidate _ _ _ _ ran _ _ known rawScore found => (known rawScore found).imp
      ((growsScore candidate _ _ _ ran).absent _) (growsScore candidate _ _ _ ran).semantic.trans') second
  have grows : Grows middle after := by
    refine eachKeeps (fun candidate _ _ _ _ known ran => ?_) second (Grows.refl middle)
    exact known.trans (growsScore candidate _ _ _ ran)
  intro candidate member
  constructor
  · intro keyword
    obtain ⟨pair,there,rfl⟩ := List.mem_map.mp (among candidate member)
    obtain ⟨there,kept⟩ := List.mem_filter.mp there
    exact grows.keyword (marked pair there kept keyword)
  · intro rawScore found
    rw [← eachValues second] at member
    obtain ⟨pair,there,rfl⟩ := List.mem_map.mp member
    exact raised pair there rawScore found

theorem allowedPerm {α : Type} {answers others : List (α × Bool)} (perm : answers.Perm others) : (allowed answers).Perm (allowed others) :=
  (perm.filter _).map _

theorem allowedMap {answers : List (RecordSearchResult × Bool)} :
    (allowed answers).map (·.toHit) = allowed (answers.map (Prod.map (·.toHit) id)) := by
  unfold allowed
  rw [List.filter_map,List.map_map,List.map_map]
  rfl

/- The third pass as one over what was found. -/
theorem thirdPass {results : List RecordSearchResult} {before after : Active} {answers : List (Hit × Bool)}
    (seen : ∀ result ∈ results, Seen result.toHit before) :
    Runs (each (resultPlain env filters) (results.map (·.toHit))) before answers after ↔
      ∃ answered, Runs (each (resultAllowed env filters) results) before answered after ∧
        answered.map (Prod.map (·.toHit) id) = answers := by
  rw [@eachMap _ _ _ _ _ (fun result : RecordSearchResult => resultPlain env filters result.toHit) _ _ _ (resultPlain env filters)
    (·.toHit) (fun _ => rfl)]
  refine exists_congr fun answered => and_congr_left fun _ => ?_
  refine (eachSame (fun result member middle answer last known => ?_) (fun result _ middle answer last known ran => ?_)
    (Grows.refl before)).symm
  · exact resultSeen ((seen result member).grow known)
  · exact known.trans (growsResult result.toHit _ _ _ ran)

/- The second pass ends where it does in another order, with scores that may be others. -/
theorem secondPerm {left others : List RecordSearchCandidate} (perm : left.Perm others) {before after : Active} {scored}
    (ran : Runs (each (adjustScore env filters) left) before scored after) :
    ∃ moved, Runs (each (adjustScore env filters) others) before moved after := by
  have erased : ∀ left, (∃ scored, Runs (each (adjustScore env filters) left) before scored after) ↔
      ∃ effects, Runs (each (fun candidate => adjustEffect env candidate.toHit) left) before effects after := fun left =>
    eachErased fun _ _ _ _ => adjustErased
  obtain ⟨effects,there⟩ := (erased left).mp ⟨scored,ran⟩
  obtain ⟨moved,there,_⟩ := eachPerm perm (fun a _ b _ => .inr (effectsCommute a.toHit b.toHit)) there
  exact (erased others).mpr ⟨moved,there⟩

theorem rankedHits (kernel : Kernel) {left : List RecordSearchCandidate} {before after : Active} {scored}
    (ran : Runs (each (adjustScore env filters) left) before scored after) :
    ((kernel.ranked (scored.map scoredResult)).map (·.toHit)).Perm (left.map (·.toHit)) := by
  refine ((kernel.rankedPerm _).map _).trans (.of_eq ?_)
  rw [← eachValues ran,List.map_map,List.map_map]
  rfl

theorem rankedSeen {candidates left : List RecordSearchCandidate} {filtered} {scored} {before middle after : Active}
    (first : Runs (each (candidateAllowed env filters) candidates) before filtered middle)
    (second : Runs (each (adjustScore env filters) left) middle scored after) (among : ∀ candidate ∈ left, candidate ∈ allowed filtered) :
    ∀ result ∈ kernel.ranked (scored.map scoredResult), Seen result.toHit after := by
  intro result member
  have hit := (rankedHits kernel second).mem_iff.mp (List.mem_map_of_mem member)
  obtain ⟨candidate,member,same⟩ := List.mem_map.mp hit
  rw [← same]
  exact passesSeen first second among candidate member

theorem passesPerm {candidates others : List RecordSearchCandidate} (perm : candidates.Perm others) {before after : Active}
    {kept : List RecordSearchResult} (ran : Runs (searchPasses env filters kernel candidates) before kept after) :
    ∃ moved, Runs (searchPasses env filters kernel others) before moved after ∧
      (kept.map (·.toHit)).Perm (moved.map (·.toHit)) := by
  obtain ⟨filtered,early,first,ran⟩ := runsBind.mp ran
  obtain ⟨scored,later,second,ran⟩ := runsBind.mp ran
  obtain ⟨answered,last,third,ended⟩ := runsBind.mp ran
  obtain ⟨rfl,rfl⟩ := runsPure.mp ended
  obtain ⟨filtered',first',same⟩ := eachPerm perm (fun a _ b _ => .inr (candidatesCommute a b)) first
  have fused : (kernel.fused (allowed filtered)).Perm (kernel.fused (allowed filtered')) :=
    (kernel.fusedPerm _).trans ((allowedPerm same).trans (kernel.fusedPerm _).symm)
  obtain ⟨scored',second'⟩ := secondPerm fused second
  have hits := (rankedHits kernel second).trans ((fused.map _).trans (rankedHits kernel second').symm)
  have seen := @rankedSeen _ _ kernel _ _ _ _ _ _ _ first second fun _ => (kernel.fusedPerm _).mem_iff.mp
  have seen' := @rankedSeen _ _ kernel _ _ _ _ _ _ _ first' second' fun _ => (kernel.fusedPerm _).mem_iff.mp
  obtain ⟨replies,third',answers⟩ := eachPerm hits (fun a _ b _ => .inr (resultsCommute a b))
    ((thirdPass seen).mpr ⟨answered,third,rfl⟩)
  obtain ⟨answered',there,rfl⟩ := (thirdPass seen').mp third'
  refine ⟨_,runsBind.mpr ⟨_,_,first',runsBind.mpr ⟨_,_,second',runsBind.mpr ⟨_,_,there,runsPure.mpr ⟨rfl,rfl⟩⟩⟩⟩,?_⟩
  rw [allowedMap,allowedMap]
  exact allowedPerm answers

theorem keptInAnyOrder (env : Env) (filters : Filters) (kernel : Kernel) {candidates others : List RecordSearchCandidate}
    (perm : candidates.Perm others) (active : Active) :
    SameKept (searchPasses env filters kernel candidates active) (searchPasses env filters kernel others active) := by
  cases first : searchPasses env filters kernel candidates active with
  | ok reply =>
    obtain ⟨moved,second,same⟩ := passesPerm perm first
    rw [second]
    exact same
  | error error => cases second : searchPasses env filters kernel others active with
    | error other => trivial
    | ok reply =>
      obtain ⟨moved,there,_⟩ := passesPerm perm.symm second
      cases first.symm.trans there

/- `n` supersedes `m`. -/
def superseding : Env := plainEnv (linked "SUPERSEDES")

def unfiltered : Filters := ⟨none,none,none,none,none,false⟩

def asGiven : Kernel := ⟨id,id,fun _ => .refl _,fun _ => .refl _⟩

def byVector (memoryId : String) : RecordSearchCandidate := ⟨⟨memoryId,["vector"],[("vector",3 / 4)]⟩,1 / 60⟩

def fresh : Active := ⟨noneCached,"budget",["budget"],1 / 2,false,0,0,0,0⟩

theorem keptInAnyOrderSample : SameKept (searchPasses superseding unfiltered asGiven [byVector "m",byVector "n"] fresh)
    (searchPasses superseding unfiltered asGiven [byVector "n",byVector "m"] fresh) :=
  keptInAnyOrder superseding unfiltered asGiven (.swap _ _ _) fresh

example : (searchPasses superseding unfiltered asGiven [byVector "m",byVector "n"] fresh).toOption.map
    (·.1.map (·.recordId)) = some ["n"] := by decide +kernel

end McpMemory.Search.Filtering
