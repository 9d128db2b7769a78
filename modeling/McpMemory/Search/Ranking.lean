import McpMemory.Curation.Policy
import McpMemory.Lib.KeySort
import McpMemory.Memory.Rows
import Mathlib.Algebra.Order.Field.Rat
import Mathlib.Data.Prod.Lex
import Mathlib.Data.Rat.Floor
import Mathlib.Data.String.Basic
import Mathlib.Tactic.Positivity

/-! `core/search_ranking.py`: the score of a candidate is composed of its parts, and the candidates
are sorted by it. Scores are rationals here; what the code takes from `math` is given with what is
known of it. -/
namespace McpMemory.Search.Ranking
open Memory

/- `half` is `0.5 ** x`. The code clamps what it gives to `exp`. -/
structure Numbers where
  exp : Rat → Rat
  log10 : Rat → Rat
  half : Rat → Rat
  expPositive : ∀ x, -20 ≤ x → x ≤ 20 → 0 < exp x
  expMonotone : ∀ x y, -20 ≤ x → x ≤ y → y ≤ 20 → exp x ≤ exp y
  logOne : log10 1 = 0
  logMonotone : ∀ x y, 1 ≤ x → x ≤ y → log10 x ≤ log10 y
  halfUnit : ∀ x, 0 ≤ x → 0 ≤ half x ∧ half x ≤ 1

structure MemoryRecencyConfig where
  maxBoostAmount : Rat
  boostDecayRate : Rat
  amounts : 0 ≤ maxBoostAmount ∧ maxBoostAmount ≤ 1 / 2
  rates : 0 < boostDecayRate ∧ boostDecayRate < 1

structure MemoryConfig where
  recencyJournal : MemoryRecencyConfig
  recencyPlan : MemoryRecencyConfig
  recencyFact : MemoryRecencyConfig
  recencyObservation : MemoryRecencyConfig
  recencyReflection : MemoryRecencyConfig

def MemoryConfig.getRecencyConfig (config : MemoryConfig) (memoryType : String) : MemoryRecencyConfig :=
  ([("journal",config.recencyJournal),("plan",config.recencyPlan),("fact",config.recencyFact),
    ("observation",config.recencyObservation),("reflection",config.recencyReflection)].lookup memoryType).getD config.recencyJournal

/- A configuration passes its own checks. -/
structure SearchRankingConfig where
  calibrationThreshold : Rat
  calibrationSteepness : Rat
  workspaceMultiplier : Rat
  semanticOnlyKeywordPenalty : Rat
  keywordCoverageFloor : Rat
  keywordLowCoveragePenalty : Rat
  graphExpansionOnlyPenalty : Rat
  degradationMultiplier : Rat
  accessHalfLifeDays : Rat
  accessBonusScale : Rat
  authorityLinkStep : Rat
  authorityLinkCap : Int
  thresholds : 0 ≤ calibrationThreshold ∧ calibrationThreshold ≤ 1
  steepness : 0 < calibrationSteepness
  workspace : 1 ≤ workspaceMultiplier
  semanticOnly : 0 ≤ semanticOnlyKeywordPenalty ∧ semanticOnlyKeywordPenalty ≤ 1
  floors : 0 < keywordCoverageFloor ∧ keywordCoverageFloor ≤ 1
  lowCoverage : 0 ≤ keywordLowCoveragePenalty ∧ keywordLowCoveragePenalty ≤ 1
  graphOnly : 0 ≤ graphExpansionOnlyPenalty ∧ graphExpansionOnlyPenalty ≤ 1
  degradation : 0 ≤ degradationMultiplier ∧ degradationMultiplier ≤ 1
  halfLife : 0 < accessHalfLifeDays
  scale : 0 ≤ accessBonusScale
  step : 0 ≤ authorityLinkStep
  cap : 0 ≤ authorityLinkCap

structure Record extends MemoryRecord where
  accessScore : Rat
  lastAccessedAt : Option String

inductive Candidate where
  | ranked (record : Record) (incomingLinksCount : Nat) (incomingLinkTypeCounts : List (String × Nat))
  | plain (record : Record)

def Candidate.record : Candidate → Record
  | .ranked record _ _ => record
  | .plain record => record

def Candidate.authorityCounts : Candidate → List (String × Nat)
  | .ranked _ _ counts => counts
  | .plain _ => []

structure RankingSignals where
  matchedByKeyword : Bool
  matchedBySemantic : Bool
  semanticScore : Rat
  keywordTokenCoverage : Rat
  expandedByGraph : Bool
  exactIdentifierMatch : Bool

def noSignals : RankingSignals := ⟨false,false,0,0,false,false⟩

/- `FTS_QUERY_TOKEN_PATTERN.findall`. -/
def findTokens (text : String) : List String :=
  ((text.toList.splitOnP fun c => !(c.isAlphanum || c == '_' || c == ':' || c == '-')).filter (!·.isEmpty)).map String.ofList

def queryTokens (query : String) : List String := (findTokens query).map String.toLower

def tokenPresenceRatio (queryTokens : List String) (text : String) : Rat :=
  if queryTokens.isEmpty || Text.strip text == "" then 0
  else queryTokens.countP ((findTokens text).map String.toLower).contains / queryTokens.length

def keywordTokenCoverage (queryTokens : List String) (record : MemoryRecord) : Rat :=
  let titleCoverage := tokenPresenceRatio queryTokens record.title
  let summaryCoverage := tokenPresenceRatio queryTokens (record.summary.getD "")
  let contentCoverage := tokenPresenceRatio queryTokens record.content
  let tagCoverage := tokenPresenceRatio queryTokens (String.intercalate " " record.tags)
  if queryTokens.isEmpty then 0
  else min (25 / 100 * titleCoverage + 4 / 10 * summaryCoverage + 25 / 100 * contentCoverage + 1 / 10 * tagCoverage +
    (if 75 / 100 ≤ titleCoverage then 1 / 10 else 0) + (if 75 / 100 ≤ summaryCoverage then 15 / 100 else 0) +
    (if 75 / 100 ≤ contentCoverage then 5 / 100 else 0)) 1

/- `_TECHNICAL_IDENTIFIER_PATTERN.findall`; `current` is the match so far. -/
def findIdentifiers (current : List Char) : List Char → List String
  | [] => if current.isEmpty then [] else [String.ofList current]
  | c::rest =>
    if current.isEmpty then findIdentifiers (if c.isAlpha then [c] else []) rest
    else if c.isAlphanum || "_.:/-".toList.contains c then findIdentifiers (current ++ [c]) rest
    else String.ofList current :: findIdentifiers [] rest

def isTechnicalIdentifier (token : String) : Bool :=
  token.toList.any Char.isDigit || token.toList.any "_-. :/".toList.contains ||
    (token.toList.zip token.toList.tail).any fun pair => pair.1.isLower && pair.2.isUpper

def hasExactIdentifierMatch (casefold : String → String) (query : String) (record : MemoryRecord) : Bool :=
  ((findIdentifiers [] query.toList).filter isTechnicalIdentifier).any fun identifier =>
    Text.contains (casefold (record.title ++ "\n" ++ record.summary.getD "")) (casefold identifier)

example : (findIdentifiers [] "fix the retryPolicy in v1.2 (now)".toList).filter isTechnicalIdentifier = ["retryPolicy","v1.2"] := by
  decide

def exactIdentifierMatchMultiplier : Rat := 11 / 10

structure ScoreComponents where
  calibratedScore : Rat
  recencyBonus : Rat
  graphSupportBonus : Rat
  accessBonus : Rat
  workspaceMultiplier : Rat
  authorityMultiplier : Rat
  degradationMultiplier : Rat
  signalMultiplier : Rat

def ScoreComponents.compose (parts : ScoreComponents) : Rat :=
  min (max (((parts.calibratedScore + parts.recencyBonus + parts.graphSupportBonus) * parts.workspaceMultiplier +
    parts.accessBonus) * parts.authorityMultiplier * parts.degradationMultiplier * parts.signalMultiplier) 0) 1

structure RankingEngine where
  numbers : Numbers
  clock : Curation.Clock
  memory : MemoryConfig
  weights : SearchRankingConfig

namespace RankingEngine
variable (engine : RankingEngine)

def calibrateScore (rrfScore : Rat) : Rat :=
  let exponent := max (-20) (min 20 (-engine.weights.calibrationSteepness * (rrfScore - engine.weights.calibrationThreshold)))
  max 0 (min 1 (1 / (1 + engine.numbers.exp exponent)))

/- The microseconds since a time that is stored as a text; a naive one is UTC. -/
def elapsed (text : String) : Option Int :=
  (engine.clock.fromIsoFormat text).map fun stamp => engine.clock.now - (stamp.wall - stamp.offset.getD 0)

def day : Int := 86400000000

def typeAwareRecencyBonus (record : Record) : Rat := match engine.elapsed record.createdAt with
  | none => 0
  | some elapsed =>
    let recency := engine.memory.getRecencyConfig record.type
    recency.maxBoostAmount * recency.boostDecayRate ^ (max (elapsed / day) 0).toNat

def workspaceMultiplier (record : Record) (workspaceId : Option String) : Rat := match workspaceId with
  | none => 1
  | some workspaceId => if workspaceId ∈ record.workspaceIds then engine.weights.workspaceMultiplier else 1

def decayedAccessScore (accessScore : Rat) (lastAccessedAt : Option String) : Rat :=
  if accessScore ≤ 0 || lastAccessedAt.all (· == "") then max accessScore 0
  else match lastAccessedAt.bind engine.elapsed with
    | none => max accessScore 0
    | some elapsed => accessScore * engine.numbers.half (max ((elapsed : Rat) / day) 0 / engine.weights.accessHalfLifeDays)

def accessBonus (record : Record) : Rat :=
  let current := engine.decayedAccessScore record.accessScore record.lastAccessedAt
  if current ≤ 0 then 0 else engine.weights.accessBonusScale * engine.numbers.log10 (current + 1)

def count (counts : List (String × Nat)) (linkType : String) : Nat := (counts.lookup linkType).getD 0

def supportingLinks (counts : List (String × Nat)) : Nat := count counts "DEPENDS_ON" + count counts "AMENDS"

def adjustedAccessBonus (record : Record) (counts : List (String × Nat)) : Rat :=
  if supportingLinks counts = 0 && ["journal","plan"].contains record.type then engine.accessBonus record * (1 / 2)
  else engine.accessBonus record

def weightedIncomingLinkCount (counts : List (String × Nat)) : Rat :=
  supportingLinks counts + 1 / 2 * count counts "CONTRADICTS"

def incomingLinks : Candidate → Rat
  | .ranked _ incomingLinksCount counts =>
    if 0 < weightedIncomingLinkCount counts then weightedIncomingLinkCount counts else incomingLinksCount
  | .plain _ => 0

def authorityMultiplierForCandidate (candidate : Candidate) : Rat :=
  1 + min (incomingLinks candidate) engine.weights.authorityLinkCap * engine.weights.authorityLinkStep

def degradationMultiplier (record : Record) : Rat :=
  if ["stale","degraded"].contains record.status then engine.weights.degradationMultiplier else 1

def graphSupportBonus (record : Record) (counts : List (String × Nat)) : Rat :=
  if supportingLinks counts = 0 || !(["fact","observation","reflection"].contains record.type) then 0
  else min (supportingLinks counts * (8 / 100) + 4 / 100) (2 / 10)

def signalAdjustmentMultiplier (signals : RankingSignals) (keywordCandidatesPresent : Bool) : Rat :=
  let multiplier := if !keywordCandidatesPresent then
      if signals.expandedByGraph && !signals.matchedBySemantic then engine.weights.graphExpansionOnlyPenalty else 1
    else if signals.expandedByGraph && !signals.matchedByKeyword && !signals.matchedBySemantic then
      engine.weights.graphExpansionOnlyPenalty
    else if signals.matchedBySemantic && !signals.matchedByKeyword then engine.weights.semanticOnlyKeywordPenalty
    else if !signals.matchedByKeyword || engine.weights.keywordCoverageFloor ≤ signals.keywordTokenCoverage then 1
    else max engine.weights.keywordLowCoveragePenalty signals.keywordTokenCoverage
  if signals.exactIdentifierMatch then multiplier * exactIdentifierMatchMultiplier else multiplier

def scoreComponents (candidate : Candidate) (rrfScore : Rat) (workspaceId : Option String) (signals : RankingSignals)
    (keywordCandidatesPresent : Bool) : ScoreComponents where
  calibratedScore := engine.calibrateScore rrfScore
  recencyBonus := engine.typeAwareRecencyBonus candidate.record
  graphSupportBonus := graphSupportBonus candidate.record candidate.authorityCounts
  accessBonus := engine.adjustedAccessBonus candidate.record candidate.authorityCounts
  workspaceMultiplier := engine.workspaceMultiplier candidate.record workspaceId
  authorityMultiplier := engine.authorityMultiplierForCandidate candidate
  degradationMultiplier := engine.degradationMultiplier candidate.record
  signalMultiplier := engine.signalAdjustmentMultiplier signals keywordCandidatesPresent

/- What a ranking is asked with, beside the candidates and their fused scores. -/
structure Request where
  workspaceId : Option String
  rankingSignals : Option (String → Option RankingSignals)
  keywordCandidatesPresent : Bool

def Request.signals (request : Request) (memoryId : String) : RankingSignals :=
  (request.rankingSignals.bind (· memoryId)).getD noSignals

def scored (request : Request) (rrfScores : String → Option Rat) (candidate : Candidate) : Option (Record × Rat) :=
  (rrfScores candidate.record.id).map fun rrfScore => (candidate.record,(engine.scoreComponents candidate rrfScore
    request.workspaceId (request.signals candidate.record.id) request.keywordCandidatesPresent).compose)

/- `key=lambda item: (-item[1], item[0].id)`. -/
def rankKey (item : Record × Rat) : Lex (Rat × String) := toLex (-item.2,item.1.id)

/- A candidate without a fused score is passed over. -/
def rankRecords (request : Request) (records : List Candidate) (rrfScores : String → Option Rat) : List (Record × Rat) :=
  KeySort.sortBy rankKey (records.filterMap (engine.scored request rrfScores))

/- To the nearest integer, and to the even one of two. -/
def roundHalfEven (x : Rat) : Int :=
  if x - x.floor < 1 / 2 then x.floor
  else if 1 / 2 < x - x.floor then x.floor + 1
  else if x.floor % 2 = 0 then x.floor else x.floor + 1

/- `round(x, 6)`. -/
def round6 (x : Rat) : Rat := roundHalfEven (x * 1000000) / 1000000

structure RankingExplanation where
  rrfScore : Rat
  calibratedScore : Rat
  recencyBonus : Rat
  graphSupportBonus : Rat
  workspaceMultiplier : Rat
  accessBonus : Rat
  authorityMultiplier : Rat
  authoritySupportingLinks : Nat
  authorityContradictingLinks : Nat
  authoritySupersedingLinks : Nat
  degradationMultiplier : Rat
  keywordTokenCoverage : Rat
  semanticScore : Rat
  exactIdentifierMatch : Bool
  exactIdentifierMultiplier : Rat
  rankingSignalMultiplier : Rat
  finalScore : Rat
  memoryType : String
  status : String
  workspaceMatch : Bool

def explainCandidate (candidate : Candidate) (rrfScore : Rat) (workspaceId : Option String) (signals : Option RankingSignals)
    (keywordCandidatesPresent : Bool) : RankingExplanation :=
  let activeSignals := signals.getD noSignals
  let components := engine.scoreComponents candidate rrfScore workspaceId activeSignals keywordCandidatesPresent
  { rrfScore := round6 rrfScore
    calibratedScore := round6 components.calibratedScore
    recencyBonus := round6 components.recencyBonus
    graphSupportBonus := round6 components.graphSupportBonus
    workspaceMultiplier := round6 components.workspaceMultiplier
    accessBonus := round6 components.accessBonus
    authorityMultiplier := round6 components.authorityMultiplier
    authoritySupportingLinks := supportingLinks candidate.authorityCounts
    authorityContradictingLinks := count candidate.authorityCounts "CONTRADICTS"
    authoritySupersedingLinks := count candidate.authorityCounts "SUPERSEDES"
    degradationMultiplier := round6 components.degradationMultiplier
    keywordTokenCoverage := round6 activeSignals.keywordTokenCoverage
    semanticScore := round6 activeSignals.semanticScore
    exactIdentifierMatch := activeSignals.exactIdentifierMatch
    exactIdentifierMultiplier := if activeSignals.exactIdentifierMatch then exactIdentifierMatchMultiplier else 1
    rankingSignalMultiplier := round6 components.signalMultiplier
    finalScore := round6 components.compose
    memoryType := candidate.record.type
    status := candidate.record.status
    workspaceMatch := workspaceId.any fun workspaceId => workspaceId != "" && candidate.record.workspaceIds.contains workspaceId }

/- The bounds the configuration and the formulas give the parts. -/
structure Bounded (record : Record) (parts : ScoreComponents) : Prop where
  calibrated : 0 ≤ parts.calibratedScore ∧ parts.calibratedScore ≤ 1
  recency : 0 ≤ parts.recencyBonus ∧ parts.recencyBonus ≤ (engine.memory.getRecencyConfig record.type).maxBoostAmount
  graphSupport : 0 ≤ parts.graphSupportBonus ∧ parts.graphSupportBonus ≤ 2 / 10
  access : 0 ≤ parts.accessBonus ∧
    parts.accessBonus ≤ engine.weights.accessBonusScale * engine.numbers.log10 (max record.accessScore 0 + 1)
  workspace : 1 ≤ parts.workspaceMultiplier ∧ parts.workspaceMultiplier ≤ engine.weights.workspaceMultiplier
  authority : 1 ≤ parts.authorityMultiplier ∧
    parts.authorityMultiplier ≤ 1 + engine.weights.authorityLinkCap * engine.weights.authorityLinkStep
  degradation : engine.weights.degradationMultiplier ≤ parts.degradationMultiplier ∧ parts.degradationMultiplier ≤ 1
  signal : 0 ≤ parts.signalMultiplier ∧ parts.signalMultiplier ≤ exactIdentifierMatchMultiplier
  score : 0 ≤ parts.compose ∧ parts.compose ≤ 1

theorem composeUnit (parts : ScoreComponents) : 0 ≤ parts.compose ∧ parts.compose ≤ 1 :=
  ⟨le_min (le_max_right _ _) zero_le_one,min_le_right _ _⟩

theorem calibrateUnit (score : Rat) : 0 ≤ engine.calibrateScore score ∧ engine.calibrateScore score ≤ 1 :=
  ⟨le_max_left _ _,max_le zero_le_one (min_le_left _ _)⟩

theorem calibrateMonotone {low high : Rat} (le : low ≤ high) : engine.calibrateScore low ≤ engine.calibrateScore high := by
  have falls : -engine.weights.calibrationSteepness * (high - engine.weights.calibrationThreshold) ≤
      -engine.weights.calibrationSteepness * (low - engine.weights.calibrationThreshold) :=
    mul_le_mul_of_nonpos_left (sub_le_sub_right le _) (neg_nonpos.mpr engine.weights.steepness.le)
  have clamped := max_le_max (le_refl (-20 : Rat)) (min_le_min (le_refl (20 : Rat)) falls)
  have top : ∀ x : Rat, max (-20) (min 20 x) ≤ 20 := fun x => max_le (by norm_num) (min_le_left _ _)
  have grows := engine.numbers.expMonotone _ _ (le_max_left _ _) clamped (top _)
  have positive := engine.numbers.expPositive _ (le_max_left _ _) (top
    (-engine.weights.calibrationSteepness * (high - engine.weights.calibrationThreshold)))
  refine max_le_max (le_refl 0) (min_le_min (le_refl 1) ?_)
  exact one_div_le_one_div_of_le (by linarith) (by linarith)

theorem recencyBounds (record : Record) : 0 ≤ engine.typeAwareRecencyBonus record ∧
    engine.typeAwareRecencyBonus record ≤ (engine.memory.getRecencyConfig record.type).maxBoostAmount := by
  have amounts := (engine.memory.getRecencyConfig record.type).amounts
  have rates := (engine.memory.getRecencyConfig record.type).rates
  unfold typeAwareRecencyBonus
  cases engine.elapsed record.createdAt with
  | none => exact ⟨le_refl 0,amounts.1⟩
  | some elapsed =>
    exact ⟨mul_nonneg amounts.1 (pow_nonneg rates.1.le _),mul_le_of_le_one_right amounts.1 (pow_le_one₀ rates.1.le rates.2.le)⟩

theorem graphSupportBounds (record : Record) (counts : List (String × Nat)) :
    0 ≤ graphSupportBonus record counts ∧ graphSupportBonus record counts ≤ 2 / 10 := by
  unfold graphSupportBonus
  split
  · norm_num
  · exact ⟨le_min (by positivity) (by norm_num),min_le_right _ _⟩

theorem decayedBounds (accessScore : Rat) (lastAccessedAt : Option String) :
    0 ≤ engine.decayedAccessScore accessScore lastAccessedAt ∧
      engine.decayedAccessScore accessScore lastAccessedAt ≤ max accessScore 0 := by
  unfold decayedAccessScore
  split
  · exact ⟨le_max_right _ _,le_refl _⟩
  · rename_i kept
    have positive : 0 < accessScore := by
      by_contra negative
      exact kept (by simp [not_lt.mp negative])
    cases lastAccessedAt.bind engine.elapsed with
    | none => exact ⟨le_max_right _ _,le_refl _⟩
    | some elapsed =>
      have unit := engine.numbers.halfUnit (max ((elapsed : Rat) / day) 0 / engine.weights.accessHalfLifeDays)
        (div_nonneg (le_max_right _ _) engine.weights.halfLife.le)
      exact ⟨mul_nonneg positive.le unit.1,(mul_le_of_le_one_right positive.le unit.2).trans (le_max_left _ _)⟩

theorem accessBounds (record : Record) : 0 ≤ engine.accessBonus record ∧
    engine.accessBonus record ≤ engine.weights.accessBonusScale * engine.numbers.log10 (max record.accessScore 0 + 1) := by
  have decayed := engine.decayedBounds record.accessScore record.lastAccessedAt
  have grows : ∀ {low high : Rat}, 0 ≤ low → low ≤ high → engine.numbers.log10 (low + 1) ≤ engine.numbers.log10 (high + 1) :=
    fun nonneg le => engine.numbers.logMonotone _ _ (by linarith) (by linarith)
  have nonneg : ∀ {x : Rat}, 0 ≤ x → 0 ≤ engine.numbers.log10 (x + 1) := fun {x} nonneg => by
    have from_one := engine.numbers.logMonotone 1 (x + 1) (le_refl 1) (by linarith)
    rwa [engine.numbers.logOne] at from_one
  unfold accessBonus
  dsimp only
  split
  · exact ⟨le_refl 0,mul_nonneg engine.weights.scale (nonneg (le_max_right _ _))⟩
  · exact ⟨mul_nonneg engine.weights.scale (nonneg decayed.1),mul_le_mul_of_nonneg_left (grows decayed.1 decayed.2) engine.weights.scale⟩

theorem adjustedBounds (record : Record) (counts : List (String × Nat)) : 0 ≤ engine.adjustedAccessBonus record counts ∧
    engine.adjustedAccessBonus record counts ≤
      engine.weights.accessBonusScale * engine.numbers.log10 (max record.accessScore 0 + 1) := by
  have bounds := engine.accessBounds record
  unfold adjustedAccessBonus
  split
  · exact ⟨by linarith,by linarith⟩
  · exact bounds

theorem workspaceBounds (record : Record) (workspaceId : Option String) : 1 ≤ engine.workspaceMultiplier record workspaceId ∧
    engine.workspaceMultiplier record workspaceId ≤ engine.weights.workspaceMultiplier := by
  have boost := engine.weights.workspace
  unfold workspaceMultiplier
  cases workspaceId with
  | none => exact ⟨le_refl 1,boost⟩
  | some workspaceId =>
    dsimp only
    split
    · exact ⟨boost,le_refl _⟩
    · exact ⟨le_refl 1,boost⟩

theorem incomingNonneg (candidate : Candidate) : 0 ≤ incomingLinks candidate := by
  cases candidate with
  | plain record => exact le_refl 0
  | ranked record incomingLinksCount counts =>
    unfold incomingLinks
    dsimp only
    split
    · rename_i weighted
      exact weighted.le
    · exact Nat.cast_nonneg _

theorem authorityBounds (candidate : Candidate) : 1 ≤ engine.authorityMultiplierForCandidate candidate ∧
    engine.authorityMultiplierForCandidate candidate ≤ 1 + engine.weights.authorityLinkCap * engine.weights.authorityLinkStep := by
  have step := engine.weights.step
  have capped : 0 ≤ min (incomingLinks candidate) (engine.weights.authorityLinkCap : Rat) :=
    le_min (incomingNonneg candidate) (Int.cast_nonneg engine.weights.cap)
  exact ⟨le_add_of_nonneg_right (mul_nonneg capped step),
    add_le_add_right (mul_le_mul_of_nonneg_right (min_le_right _ _) step) 1⟩

theorem degradationBounds (record : Record) : engine.weights.degradationMultiplier ≤ engine.degradationMultiplier record ∧
    engine.degradationMultiplier record ≤ 1 := by
  have penalty := engine.weights.degradation
  unfold degradationMultiplier
  split
  · exact ⟨le_refl _,penalty.2⟩
  · exact ⟨penalty.2,le_refl 1⟩

/- The coverage lowers a score only below the floor, and the floor is at most one. -/
theorem signalBounds (signals : RankingSignals) (keywordCandidatesPresent : Bool) :
    0 ≤ engine.signalAdjustmentMultiplier signals keywordCandidatesPresent ∧
      engine.signalAdjustmentMultiplier signals keywordCandidatesPresent ≤ exactIdentifierMatchMultiplier := by
  have graphOnly := engine.weights.graphOnly
  have semanticOnly := engine.weights.semanticOnly
  have lowCoverage := engine.weights.lowCoverage
  have unit : (0 : Rat) ≤ 1 ∧ (1 : Rat) ≤ 1 := ⟨zero_le_one,le_refl 1⟩
  unfold signalAdjustmentMultiplier
  dsimp only
  generalize hold : (if (!keywordCandidatesPresent) = true then _ else _ : Rat) = multiplier
  have bounds : 0 ≤ multiplier ∧ multiplier ≤ 1 := by
    rw [← hold]
    split
    · split
      · exact graphOnly
      · exact unit
    split
    · exact graphOnly
    split
    · exact semanticOnly
    split
    · exact unit
    · rename_i below
      have below : signals.keywordTokenCoverage < engine.weights.keywordCoverageFloor := by
        by_contra covered
        exact below (by simp [not_lt.mp covered])
      exact ⟨le_max_of_le_left lowCoverage.1,max_le lowCoverage.2 (below.le.trans engine.weights.floors.2)⟩
  unfold exactIdentifierMatchMultiplier
  split
  · exact ⟨by linarith,by linarith⟩
  · exact ⟨bounds.1,by linarith⟩

theorem componentsBounded (candidate : Candidate) (rrfScore : Rat) (workspaceId : Option String) (signals : RankingSignals)
    (keywordCandidatesPresent : Bool) : engine.Bounded candidate.record
      (engine.scoreComponents candidate rrfScore workspaceId signals keywordCandidatesPresent) where
  calibrated := engine.calibrateUnit rrfScore
  recency := engine.recencyBounds candidate.record
  graphSupport := graphSupportBounds candidate.record candidate.authorityCounts
  access := engine.adjustedBounds candidate.record candidate.authorityCounts
  workspace := engine.workspaceBounds candidate.record workspaceId
  authority := engine.authorityBounds candidate
  degradation := engine.degradationBounds candidate.record
  signal := engine.signalBounds signals keywordCandidatesPresent
  score := composeUnit _

theorem composeMonotone {parts : ScoreComponents} {record : Record} (bounded : engine.Bounded record parts) {calibratedScore : Rat}
    (le : parts.calibratedScore ≤ calibratedScore) : parts.compose ≤ ({ parts with calibratedScore := calibratedScore }).compose := by
  have workspace : 0 ≤ parts.workspaceMultiplier := zero_le_one.trans bounded.workspace.1
  have authority : 0 ≤ parts.authorityMultiplier := zero_le_one.trans bounded.authority.1
  have degradation : 0 ≤ parts.degradationMultiplier := engine.weights.degradation.1.trans bounded.degradation.1
  refine min_le_min (max_le_max ?_ (le_refl 0)) (le_refl 1)
  refine mul_le_mul_of_nonneg_right ?_ bounded.signal.1
  refine mul_le_mul_of_nonneg_right ?_ degradation
  refine mul_le_mul_of_nonneg_right ?_ authority
  refine add_le_add_left (mul_le_mul_of_nonneg_right ?_ workspace) _
  linarith

variable (request : Request) (records : List Candidate) (rrfScores : String → Option Rat)

/- The candidates that are to be in the result are in it, each of them once and no other. -/
def Permutes (wanted : Candidate → Bool) : Prop :=
  ((engine.rankRecords request records rrfScores).map Prod.fst).Perm ((records.filter wanted).map Candidate.record)

/- What the explanation of a candidate shows, for the score that it is sorted by. -/
def Explains (shown : Rat → Rat) : Prop := ∀ candidate ∈ records, ∀ rrfScore, rrfScores candidate.record.id = some rrfScore →
  ∃ score, (candidate.record,score) ∈ engine.rankRecords request records rrfScores ∧
    (engine.explainCandidate candidate rrfScore request.workspaceId (request.rankingSignals.bind (· candidate.record.id))
      request.keywordCandidatesPresent).finalScore = shown score

def placeOf (memoryId : String) (ranked : List (Record × Rat)) : Nat := ranked.findIdx (·.1.id == memoryId)

structure RankLaws (wanted : Candidate → Bool) (shown : Rat → Rat) : Prop where
  permutes : engine.Permutes request records rrfScores wanted
  ordered : (engine.rankRecords request records rrfScores).Pairwise fun before later => rankKey before < rankKey later
  independent : ∀ others, records.Perm others →
    engine.rankRecords request others rrfScores = engine.rankRecords request records rrfScores
  bounded : ∀ candidate ∈ records, ∀ rrfScore, rrfScores candidate.record.id = some rrfScore →
    ∃ parts, engine.Bounded candidate.record parts ∧
      (candidate.record,parts.compose) ∈ engine.rankRecords request records rrfScores ∧
        parts = engine.scoreComponents candidate rrfScore request.workspaceId (request.signals candidate.record.id)
          request.keywordCandidatesPresent
  raised : ∀ candidate ∈ records, ∀ rrfScore raised, rrfScores candidate.record.id = some rrfScore → rrfScore ≤ raised →
    placeOf candidate.record.id (engine.rankRecords request records
        (Function.update rrfScores candidate.record.id (some raised))) ≤
      placeOf candidate.record.id (engine.rankRecords request records rrfScores)
  explained : engine.Explains request records rrfScores shown

variable {engine request records rrfScores}

theorem scoredId {candidate : Candidate} {item : Record × Rat} (found : engine.scored request rrfScores candidate = some item) :
    item.1 = candidate.record := by
  obtain ⟨score,-,same⟩ := Option.map_eq_some_iff.mp found
  rw [← same]

theorem scoredOf {candidate : Candidate} {rrfScore : Rat} (score : rrfScores candidate.record.id = some rrfScore) :
    engine.scored request rrfScores candidate = some (candidate.record,(engine.scoreComponents candidate rrfScore
      request.workspaceId (request.signals candidate.record.id) request.keywordCandidatesPresent).compose) := by
  rw [scored,score]
  rfl

theorem keysNodup (distinct : (records.map (·.record.id)).Nodup) :
    ((records.filterMap (engine.scored request rrfScores)).map rankKey).Nodup := by
  have apart : records.Pairwise fun a b => a.record.id ≠ b.record.id := List.pairwise_map.mp distinct
  rw [List.Nodup,List.pairwise_map,List.pairwise_filterMap]
  refine apart.imp fun {a b} differ first found second other same => differ ?_
  have ids : first.1.id = second.1.id := congrArg (fun key => (ofLex key).2) same
  rwa [scoredId found,scoredId other] at ids

theorem rankMember {item : Record × Rat} : item ∈ engine.rankRecords request records rrfScores ↔
    ∃ candidate ∈ records, engine.scored request rrfScores candidate = some item :=
  KeySort.sortByPerm.mem_iff.trans List.mem_filterMap

theorem rankPermutes : engine.Permutes request records rrfScores fun candidate => (rrfScores candidate.record.id).isSome := by
  refine (KeySort.sortByPerm.map Prod.fst).trans (List.Perm.of_eq ?_)
  induction records with
  | nil => rfl
  | cons candidate rest ih =>
    cases score : rrfScores candidate.record.id with
    | none => rw [List.filterMap_cons_none (by simp only [scored,score,Option.map_none]),List.filter_cons_of_neg (by simp [score]),ih]
    | some rrfScore =>
      rw [List.filterMap_cons_some (by simp only [scored,score,Option.map_some]; rfl),List.filter_cons_of_pos (by simp [score]),
        List.map_cons,List.map_cons,ih]

/- A candidate comes after those with a smaller key. -/
theorem placeCounts (distinct : (records.map (·.record.id)).Nodup) {candidate : Candidate} (member : candidate ∈ records)
    {item : Record × Rat} (found : engine.scored request rrfScores candidate = some item) :
    placeOf candidate.record.id (engine.rankRecords request records rrfScores) =
      records.countP fun other => (engine.scored request rrfScores other).any fun other => rankKey other < rankKey item := by
  have ranked := rankMember.mpr ⟨candidate,member,found⟩
  have ordered : (engine.rankRecords request records rrfScores).Pairwise fun before later => rankKey before < rankKey later :=
    KeySort.sortByStrict (keysNodup distinct)
  rw [placeOf,KeySort.place ordered ranked (by simp [scoredId found])]
  · rw [rankRecords,KeySort.sortByPerm.countP_eq,List.countP_filterMap]
    refine List.countP_congr fun other _ => ?_
    cases engine.scored request rrfScores other <;> rfl
  · intro other there same
    obtain ⟨another,present,scored⟩ := rankMember.mp there
    have ids : another.record.id = candidate.record.id := by
      rw [← scoredId scored]
      exact eq_of_beq same
    rw [List.inj_on_of_nodup_map distinct present member ids,found] at scored
    exact (Option.some.inj scored).symm

theorem raiseKeeps (distinct : (records.map (·.record.id)).Nodup) {candidate : Candidate} (member : candidate ∈ records)
    {rrfScore raised : Rat} (score : rrfScores candidate.record.id = some rrfScore) (le : rrfScore ≤ raised) :
    placeOf candidate.record.id (engine.rankRecords request records
        (Function.update rrfScores candidate.record.id (some raised))) ≤
      placeOf candidate.record.id (engine.rankRecords request records rrfScores) := by
  have now := @scoredOf engine request (Function.update rrfScores candidate.record.id (some raised)) candidate raised
    (Function.update_self _ _ _)
  have before := @scoredOf engine request rrfScores candidate rrfScore score
  have grows := engine.composeMonotone (engine.componentsBounded candidate rrfScore request.workspaceId
    (request.signals candidate.record.id) request.keywordCandidatesPresent) (engine.calibrateMonotone le)
  rw [placeCounts distinct member now,placeCounts distinct member before]
  refine List.countP_mono_left fun other there less => ?_
  by_cases same : other.record.id = candidate.record.id
  · rw [List.inj_on_of_nodup_map distinct there member same,now] at less
    exact absurd (of_decide_eq_true less) (lt_irrefl _)
  · rw [scored,Function.update_of_ne same,← scored] at less
    cases here : engine.scored request rrfScores other with
    | none =>
      rw [here] at less
      cases less
    | some item =>
      rw [here] at less
      refine decide_eq_true ((of_decide_eq_true less).trans_le ?_)
      exact Prod.Lex.toLex_mono ⟨neg_le_neg grows,le_refl _⟩

/- Both are composed of the same parts. -/
theorem rankExplains : engine.Explains request records rrfScores round6 := by
  intro candidate member rrfScore score
  exact ⟨_,rankMember.mpr ⟨candidate,member,scoredOf score⟩,rfl⟩

def newYear : Record := ⟨⟨⟨"00000000-0000-4000-8000-000000000001",some 1,"New year","",none,"journal","active",
  "2026-01-01T00:00:00+00:00","2026-01-01T00:00:00+00:00",none,[]⟩,[],[]⟩,0,none⟩

/- As the functions are where they are asked, at zero and one. -/
def linearNumbers : Numbers where
  exp x := (x + 21) / 21
  log10 x := (x - 1) / 9
  half x := 1 / (1 + x)
  expPositive x low _ := div_pos (by linarith) (by norm_num)
  expMonotone x y _ le _ := div_le_div_of_nonneg_right (by linarith) (by norm_num)
  logOne := by norm_num
  logMonotone x y _ le := div_le_div_of_nonneg_right (by linarith) (by norm_num)
  halfUnit x nonneg := ⟨by positivity,div_le_one_of_le₀ (by linarith) (by linarith)⟩

def journalRecency : MemoryRecencyConfig := ⟨2 / 10,95 / 100,by norm_num,by norm_num⟩

def planRecency : MemoryRecencyConfig := ⟨15 / 100,97 / 100,by norm_num,by norm_num⟩

def factRecency : MemoryRecencyConfig := ⟨5 / 100,99 / 100,by norm_num,by norm_num⟩

def defaultWeights : SearchRankingConfig where
  calibrationThreshold := 35 / 1000
  calibrationSteepness := 150
  workspaceMultiplier := 12 / 10
  semanticOnlyKeywordPenalty := 65 / 100
  keywordCoverageFloor := 6 / 10
  keywordLowCoveragePenalty := 4 / 10
  graphExpansionOnlyPenalty := 35 / 100
  degradationMultiplier := 3 / 10
  accessHalfLifeDays := 7
  accessBonusScale := 1 / 10
  authorityLinkStep := 2 / 100
  authorityLinkCap := 10
  thresholds := by norm_num
  steepness := by norm_num
  workspace := by norm_num
  semanticOnly := by norm_num
  floors := by norm_num
  lowCoverage := by norm_num
  graphOnly := by norm_num
  degradation := by norm_num
  halfLife := by norm_num
  scale := by norm_num
  step := by norm_num
  cap := by norm_num

/- Five days after `newYear`. -/
def fiveDaysOn : Curation.Clock where
  fromIsoFormat text := if text = "2026-01-01T00:00:00+00:00" then some ⟨1767225600000000,some 0⟩ else none
  now := 1767225600000000 + 5 * 86400000000

def defaultEngine : RankingEngine :=
  ⟨linearNumbers,fiveDaysOn,⟨journalRecency,planRecency,factRecency,journalRecency,factRecency⟩,defaultWeights⟩

def unasked : Request := ⟨none,none,false⟩

/- A score at the threshold. -/
def atThreshold (memoryId : String) : Option Rat := if memoryId = newYear.id then some (35 / 1000) else none

end RankingEngine

end McpMemory.Search.Ranking
