import Mathlib.Data.List.Dedup
import McpMemory.Cache.Serialize
import McpMemory.Memory.Identity

/-! The requests of the search cache: `build_search_cache_request` of `cache_policy.py`,
`SharedReadCacheSearchRequest` of `ports.py` and the keys of `shared_read_cache.py`, beside what
decides the answer of the search itself. -/
namespace McpMemory.Cache
open Memory

inductive RetrievalMode where
  | keyword
  | semantic
  | hybrid
  deriving DecidableEq, Repr

def RetrievalMode.text : RetrievalMode → String
  | .keyword => "keyword"
  | .semantic => "semantic"
  | .hybrid => "hybrid"

/- The arguments of a search that is not debugged, the workspace it is called in and the feature
fingerprint of its configuration. All of them go into the search. -/
structure Search where
  query : String
  workspaceId : Option String
  limit : Int
  adaptiveLimit : Bool
  memoryType : Option String
  status : Option String
  tags : List String
  includeSuperseded : Bool
  retrievalMode : RetrievalMode
  contextWorkspace : Option String
  featureFingerprint : Option String
  deriving DecidableEq, Repr

structure SharedReadCacheSearchRequest where
  query : String
  workspaceId : Option String
  limit : Int
  adaptiveLimit : Bool
  memoryType : Option String
  status : Option String
  includeSuperseded : Bool
  rankingWorkspaceId : Option String
  policyVersion : String
  featureFingerprint : Option String
  deriving DecidableEq, Repr

def cacheSchemaVersion : Int := 1

def defaultSearchPolicyVersion : String := "default"

def memorySearchPolicyVersion : String := "mcp-memory-record-policy-v1"

/- `f"{feature_fingerprint or 'default'}|retrieval_mode={retrieval_mode}"` -/
def requestFingerprint (search : Search) : Option String :=
  if search.retrievalMode = .hybrid then search.featureFingerprint
  else
    let features := match search.featureFingerprint with
      | some features => if features = "" then "default" else features
      | none => "default"
    some (features ++ "|retrieval_mode=" ++ search.retrievalMode.text)

def buildSearchCacheRequest (search : Search) : SharedReadCacheSearchRequest where
  query := search.query
  workspaceId := search.workspaceId <|> search.contextWorkspace
  limit := search.limit
  adaptiveLimit := search.adaptiveLimit
  memoryType := search.memoryType
  status := search.status
  includeSuperseded := search.includeSuperseded
  rankingWorkspaceId := if search.workspaceId.isSome then search.contextWorkspace else none
  policyVersion := memorySearchPolicyVersion
  featureFingerprint := requestFingerprint search

def given (key : String) : Option String → Json.Object
  | some value => [(key,.str value)]
  | none => []

def normalizedParams (request : SharedReadCacheSearchRequest) : Json.Object :=
  [("cache_schema_version",.int cacheSchemaVersion),("query",.str request.query),
    ("workspace_id",Memory.optional request.workspaceId),("limit",.int request.limit),
    ("adaptive_limit",.bool request.adaptiveLimit),("memory_type",Memory.optional request.memoryType),
    ("status",Memory.optional request.status),("include_superseded",.bool request.includeSuperseded)] ++
  given "ranking_workspace_id" request.rankingWorkspaceId ++
  (if request.policyVersion = defaultSearchPolicyVersion then [] else [("policy_version",.str request.policyVersion)]) ++
  given "feature_fingerprint" request.featureFingerprint

variable (sha256 : String → String)

def searchCacheKey (request : SharedReadCacheSearchRequest) : String :=
  sha256 (serializeJson (.obj (normalizedParams request)))

def legacySearchCacheKey (request : SharedReadCacheSearchRequest) : String :=
  sha256 (serializeJson (.obj (Json.erase (normalizedParams request) "ranking_workspace_id")))

/- The requests whose rows a request takes, the first that has one. The legacy key is the key of
the request without its ranking workspace. -/
def servedRequests (request : SharedReadCacheSearchRequest) : List SharedReadCacheSearchRequest :=
  [request] ++
  (if request.policyVersion = defaultSearchPolicyVersion ∧ request.featureFingerprint = none
    then [{ request with rankingWorkspaceId := none }] else []) ++
  (if request.rankingWorkspaceId = none ∧ request.workspaceId ≠ none
    then [{ request with rankingWorkspaceId := request.workspaceId }] else [])

/- `_fetch_search_row` -/
def searchKeys (request : SharedReadCacheSearchRequest) : List String :=
  ([searchCacheKey sha256 request] ++
  (if request.policyVersion = defaultSearchPolicyVersion ∧ request.featureFingerprint = none
    then [legacySearchCacheKey sha256 request] else []) ++
  (if request.rankingWorkspaceId = none ∧ request.workspaceId ≠ none
    then [searchCacheKey sha256 { request with rankingWorkspaceId := request.workspaceId }] else [])).eraseDups

section
variable {sha256} {request other : SharedReadCacheSearchRequest}

theorem eraseAbsent {fields : Json.Object} {key} (absent : ∀ field ∈ fields, field.1 ≠ key) : Json.erase fields key = fields :=
  List.filter_eq_self.mpr fun field member => bne_iff_ne.mpr (absent field member)

theorem givenKey {key : String} {value} : ∀ field ∈ given key value, field.1 = key := by
  cases value with
  | none => exact fun _ member => absurd member List.not_mem_nil
  | some value => exact fun _ member => List.mem_singleton.mp member ▸ rfl

theorem legacyKey : legacySearchCacheKey sha256 request = searchCacheKey sha256 { request with rankingWorkspaceId := none } := by
  have append : ∀ first rest : Json.Object, Json.erase (first ++ rest) "ranking_workspace_id" =
      Json.erase first "ranking_workspace_id" ++ Json.erase rest "ranking_workspace_id" := fun _ _ => List.filter_append ..
  have ranking : Json.erase (given "ranking_workspace_id" request.rankingWorkspaceId) "ranking_workspace_id" = [] :=
    List.filter_eq_nil_iff.mpr fun field member => by simp [givenKey field member]
  have kept : Json.erase (normalizedParams request) "ranking_workspace_id" =
      normalizedParams { request with rankingWorkspaceId := none } := by
    unfold normalizedParams
    rw [append,append,append,ranking,eraseAbsent,eraseAbsent,eraseAbsent]
    · rfl
    · intro field member
      simp [givenKey field member]
    · intro field member
      split at member
      · exact absurd member List.not_mem_nil
      · simp [List.mem_singleton.mp member]
    · intro field member
      simp only [List.mem_cons,List.not_mem_nil,or_false] at member
      rcases member with rfl | rfl | rfl | rfl | rfl | rfl | rfl | rfl <;> simp
  rw [legacySearchCacheKey,kept]
  rfl

theorem keysServed {key : String} :
    key ∈ searchKeys sha256 request ↔ ∃ served ∈ servedRequests request, searchCacheKey sha256 served = key := by
  have same : searchKeys sha256 request = ((servedRequests request).map (searchCacheKey sha256)).eraseDups := by
    unfold searchKeys servedRequests
    rw [legacyKey,List.map_append,List.map_append]
    congr 2
    · congr 1
      split <;> rfl
    · split <;> rfl
  rw [same,List.mem_eraseDups,List.mem_map]

theorem givenScalar {key value} : ∀ field ∈ given key value, Scalar field.2 := by
  cases value with
  | none => exact fun _ member => absurd member List.not_mem_nil
  | some value => exact fun _ member => List.mem_singleton.mp member ▸ .str value

theorem optionalScalar {value : Option String} : Scalar (Memory.optional value) := by
  cases value with
  | none => exact .null
  | some value => exact .str value

theorem paramsScalar : ∀ field ∈ normalizedParams request, Scalar field.2 := by
  intro field member
  simp only [normalizedParams,List.mem_append] at member
  rcases member with ((plain | ranking) | policy) | features
  · simp only [List.mem_cons,List.not_mem_nil,or_false] at plain
    rcases plain with rfl | rfl | rfl | rfl | rfl | rfl | rfl | rfl
    · exact .int _
    · exact .str _
    · exact optionalScalar
    · exact .int _
    · exact .bool _
    · exact optionalScalar
    · exact optionalScalar
    · exact .bool _
  · exact givenScalar field ranking
  · split at policy
    · exact absurd policy List.not_mem_nil
    · exact List.mem_singleton.mp policy ▸ .str _
  · exact givenScalar field features

theorem optionalApart {value other : Option String} (same : Memory.optional value = Memory.optional other) : value = other := by
  cases value <;> cases other <;> simp_all [Memory.optional]

theorem memGiven {key name : String} {text value} :
    (key,value) ∈ given name text ↔ key = name ∧ ∃ here, text = some here ∧ value = .str here := by
  cases text <;> simp [given]

theorem memParams {key : String} {value} : (key,value) ∈ normalizedParams request ↔
    (key = "cache_schema_version" ∧ value = .int cacheSchemaVersion ∨ key = "query" ∧ value = .str request.query ∨
      key = "workspace_id" ∧ value = Memory.optional request.workspaceId ∨ key = "limit" ∧ value = .int request.limit ∨
      key = "adaptive_limit" ∧ value = .bool request.adaptiveLimit ∨
      key = "memory_type" ∧ value = Memory.optional request.memoryType ∨
      key = "status" ∧ value = Memory.optional request.status ∨
      key = "include_superseded" ∧ value = .bool request.includeSuperseded) ∨
    (key = "ranking_workspace_id" ∧ ∃ here, request.rankingWorkspaceId = some here ∧ value = .str here) ∨
    (request.policyVersion ≠ defaultSearchPolicyVersion ∧ key = "policy_version" ∧ value = .str request.policyVersion) ∨
    (key = "feature_fingerprint" ∧ ∃ here, request.featureFingerprint = some here ∧ value = .str here) := by
  unfold normalizedParams
  rw [List.mem_append,List.mem_append,List.mem_append,memGiven,memGiven,or_assoc,or_assoc]
  refine or_congr (by simp only [List.mem_cons,List.not_mem_nil,or_false,Prod.mk.injEq])
    (or_congr Iff.rfl (or_congr ?_ Iff.rfl))
  split
  · rename_i same
    exact ⟨fun member => absurd member List.not_mem_nil,fun other => absurd same other.1⟩
  · rename_i apart
    simp [apart]

theorem optionSame {value other : Option String} (same : ∀ json, (∃ here, value = some here ∧ json = Json.str here) ↔
    ∃ here, other = some here ∧ json = .str here) : value = other := by
  refine Option.ext fun here => ?_
  simpa using same (.str here)

/- The text of a request tells all that it holds. -/
theorem paramsApart (same : serializeJson (.obj (normalizedParams request)) = serializeJson (.obj (normalizedParams other))) :
    request = other := by
  have shared := fun key value => (objectApart paramsScalar paramsScalar same).mem_iff (a := (key,value))
  simp only [memParams] at shared
  have query : request.query = other.query := by simpa using shared "query" (.str request.query)
  have workspace : request.workspaceId = other.workspaceId :=
    optionalApart (by simpa using shared "workspace_id" (Memory.optional request.workspaceId))
  have limit : request.limit = other.limit := by simpa using shared "limit" (.int request.limit)
  have adaptive : request.adaptiveLimit = other.adaptiveLimit := by
    simpa using shared "adaptive_limit" (.bool request.adaptiveLimit)
  have type : request.memoryType = other.memoryType :=
    optionalApart (by simpa using shared "memory_type" (Memory.optional request.memoryType))
  have status : request.status = other.status :=
    optionalApart (by simpa using shared "status" (Memory.optional request.status))
  have superseded : request.includeSuperseded = other.includeSuperseded := by
    simpa using shared "include_superseded" (.bool request.includeSuperseded)
  have ranking : request.rankingWorkspaceId = other.rankingWorkspaceId :=
    optionSame fun json => by simpa using shared "ranking_workspace_id" json
  have features : request.featureFingerprint = other.featureFingerprint :=
    optionSame fun json => by simpa using shared "feature_fingerprint" json
  have policy : request.policyVersion = other.policyVersion := by
    have here := shared "policy_version" (.str request.policyVersion)
    have there := shared "policy_version" (.str other.policyVersion)
    by_cases plain : request.policyVersion = defaultSearchPolicyVersion
    · by_cases plain' : other.policyVersion = defaultSearchPolicyVersion
      · rw [plain,plain']
      · simp [plain,plain'] at there
    · simp only [ne_eq,plain,not_false_eq_true,true_and] at here
      have told := here.mp (by simp)
      simp at told
      exact told.2
  cases request
  cases other
  simp_all

end

end McpMemory.Cache
