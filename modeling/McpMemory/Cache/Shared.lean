import McpMemory.Cache.Repository
import McpMemory.Cache.Requests
import McpMemory.Lib.Interleave

/-! The shared read cache under the search and the read of a memory: `shared_read_cache.py`,
`cache_policy.py` and `memory_use_cases.py`, for external calls that are not debugged and for the
default shape of a read. A statement, on the database of the cache or on the repository, is a step.
The states that a call has seen are history: no step reads them. -/
namespace McpMemory.Cache
open Curation (ActionError parseMemoryRef)
open Interleave Memory Reading

/- What the search gives for a memory, without its debug fields. -/
structure Found where
  memoryId : String
  memoryRef : Option Nat
  title : String
  summary : String
  status : String
  createdAt : Option String
  updatedAt : Option String
  deriving DecidableEq, Repr

structure SearchResult where
  memoryRef : String
  title : String
  summary : String
  status : String
  createdAt : Option String
  updatedAt : Option String
  deriving DecidableEq, Repr

def searchResultPayloadCompact (found : Found) : SearchResult :=
  ⟨match found.memoryRef with
    | some memoryRef => "mem-" ++ toString memoryRef
    | none => found.memoryId,found.title,found.summary,found.status,found.createdAt,found.updatedAt⟩

/- A row of `cached_search_results`, with the two entries of `params_json` that a purge looks at. -/
structure SearchRow where
  cacheKey : String
  policyVersion : String
  featureFingerprint : Option String
  results : List SearchResult
  validationTokens : List (String × String)
  searchEpochs : SearchEpochs
  cachedAt : Int
  deriving DecidableEq, Repr

/- A row of `cached_memory_records`. -/
structure ReadRow where
  memoryId : String
  payload : ReadPayload
  validationToken : Option String
  deriving DecidableEq, Repr

/- `_SharedReadCacheInFlightSearchState` -/
structure Flight where
  cacheKey : String
  policyVersion : String
  featureFingerprint : Option String
  payload : Option (List SearchResult)
  error : Option String
  completed : Bool
  purged : Bool
  deriving DecidableEq, Repr

/- Each process keeps its own searches in flight; the rows are shared. -/
structure Shared where
  repository : Repository
  searches : List SearchRow
  reads : List ReadRow
  flights : List Flight
  inflight : List ((Nat × String) × Nat)

/- `search` is what the search reads of the repository, and fails with. -/
structure CacheEnv where
  sha256 : String → String
  search : Search → Reading Repository (Except String (List Found))

inductive Manner where
  | fresh (checked : Repository)
  | coalesced
  | stale

inductive Emitted where
  | computed (search : Search) (found : List Found) (seen : List Repository)
  | served (manner : Manner) (search : Search) (results : List SearchResult)
  | stored (memoryId : String) (row : MemoryRow) (payload : ReadPayload) (token : Option String) (tokenSeen : List Repository)
  | validated (memoryId : String) (payload : ReadPayload) (token : String)

/- A search, the process it runs in and its clock when it looks for a fresh answer and stores its own. -/
structure Asking where
  search : Search
  process : Nat
  lookedAt : Int
  storedAt : Int

inductive Asked where
  | fetching (keys : List String)
  | comparing (row : SearchRow)
  | validating (row : SearchRow) (checked : Repository) (reading : Reading Repository Bool)
  | entering
  | waiting (flight : Nat)
  | searching (flight : Nat) (reading : Reading Repository (Except String (List Found))) (seen : List Repository)
  | capturing (flight : Nat) (found : List Found) (seen : List Repository)
  | tokening (flight : Nat) (found : List Found) (epochs : SearchEpochs)
      (reading : Reading Repository (List (String × String)))
  | storing (flight : Nat) (found : List Found) (epochs : SearchEpochs) (tokens : List (String × String))
  | finishing (flight : Nat) (found : List Found)
  | failing (flight : Nat) (error : String)
  | falling (keys : List String) (error : String)
  | answered (answer : Except String (List SearchResult))

section
variable (env : CacheEnv) (asking : Asking)

def Asking.request : SharedReadCacheSearchRequest := buildSearchCacheRequest asking.search

def Asking.key : String := searchCacheKey env.sha256 asking.request

def Asking.keys : List String := searchKeys env.sha256 asking.request

def freshTtlSeconds : Int := 5

def timedOut : String := "Timed out waiting for in-flight shared read-cache search"

def purgedSearch : String := "In-flight shared read-cache search purged by policy change"

def noOutcome : String := "In-flight search completed without payload or error"

/- `_cached_result_memory_id`, for each result. -/
def resultIds : List SearchResult → Reading Repository (Option (List String))
  | [] => pure (some [])
  | result::rest => do
    match ← resolveMemoryId result.memoryRef with
    | .ok (some memoryId) => return (← resultIds rest).map (memoryId::·)
    | _ => pure none

/- `_cached_search_payload_has_current_records` -/
def currentRecords (row : SearchRow) : Reading Repository Bool := do
  match ← resultIds row.results with
  | none => pure false
  | some memoryIds =>
    if memoryIds.isEmpty then pure true
    else
      let tokens ← validationTokens env.sha256 memoryIds
      pure (memoryIds.all fun memoryId =>
        (row.validationTokens.lookup memoryId).isSome && tokens.lookup memoryId == row.validationTokens.lookup memoryId)

/- The flight is still the one that its key leads to. -/
def isCurrent (flight : Nat) (c : Shared) : Bool := c.inflight.lookup (asking.process,asking.key env) == some flight

def dropFlight (flight : Nat) (c : Shared) : Shared :=
  if isCurrent env asking flight c then
    { c with inflight := c.inflight.filter (·.1 != (asking.process,asking.key env)) }
  else c

def newFlight : Flight :=
  ⟨asking.key env,asking.request.policyVersion,asking.request.featureFingerprint,none,none,false,false⟩

/- `begin_inflight_search`, for a leader. -/
def beginFlight (c : Shared) : Shared := { c with
  flights := c.flights ++ [newFlight env asking]
  inflight := ((asking.process,asking.key env),c.flights.length)::c.inflight }

def complete (payload : Option (List SearchResult)) (error : Option String) (flight : Flight) : Flight :=
  if flight.purged then flight else { flight with
    payload := payload
    error := error
    completed := true }

/- `finish_inflight_search` -/
def finishFlight (flight : Nat) (payload : Option (List SearchResult)) (error : Option String) (c : Shared) : Shared :=
  dropFlight env asking flight { c with flights := c.flights.modify flight (complete payload error) }

def searchRow (found : List Found) (epochs : SearchEpochs) (tokens : List (String × String)) : SearchRow :=
  ⟨asking.key env,asking.request.policyVersion,asking.request.featureFingerprint,
    found.map searchResultPayloadCompact,tokens,epochs,asking.storedAt⟩

/- `ON CONFLICT(cache_key) DO UPDATE` -/
def storeSearch (flight : Nat) (row : SearchRow) (c : Shared) : Shared :=
  if isCurrent env asking flight c && c.flights[flight]?.any (!·.purged) then
    { c with searches := c.searches.filter (·.cacheKey != row.cacheKey) ++ [row] }
  else c

def askStep (asked : Asked) (c : Shared) : Asked × Shared × List Emitted :=
  match asked with
  | .fetching [] => (.entering,c,[])
  | .fetching (key::keys) => match c.searches.find? (·.cacheKey == key) with
    | none => (.fetching keys,c,[])
    | some row => if freshTtlSeconds < asking.lookedAt - row.cachedAt then (.entering,c,[]) else (.comparing row,c,[])
  | .comparing row =>
    if getSearchEpochs c.repository = row.searchEpochs then
      (.validating row c.repository (currentRecords env row),c,[])
    else (.entering,c,[])
  | .validating row checked (.look next) => (.validating row checked (next c.repository),c,[])
  | .validating row checked (.done current) =>
    if current then (.answered (.ok row.results),c,[.served (.fresh checked) asking.search row.results])
    else (.entering,c,[])
  | .entering => match c.inflight.lookup (asking.process,asking.key env) with
    | some flight => (.waiting flight,c,[])
    | none => (.searching c.flights.length (env.search asking.search) [],beginFlight env asking c,[])
  | .waiting flight => match c.flights[flight]? with
    | none => (.falling (asking.keys env) noOutcome,c,[])
    | some state =>
      if state.completed then match state.payload,state.error with
        | some results,_ => (.answered (.ok results),c,[.served .coalesced asking.search results])
        | none,some error => (.falling (asking.keys env) error,c,[])
        | none,none => (.falling (asking.keys env) noOutcome,c,[])
      else (.falling (asking.keys env) timedOut,dropFlight env asking flight c,[])
  | .searching flight (.look next) seen => (.searching flight (next c.repository) (seen ++ [c.repository]),c,[])
  | .searching flight (.done (.ok found)) seen => (.capturing flight found seen,c,[.computed asking.search found seen])
  | .searching flight (.done (.error error)) _ => (.failing flight error,c,[])
  | .capturing flight found _ =>
    (.tokening flight found (getSearchEpochs c.repository) (validationTokens env.sha256 (found.map (·.memoryId))),c,[])
  | .tokening flight found epochs (.look next) => (.tokening flight found epochs (next c.repository),c,[])
  | .tokening flight found epochs (.done tokens) => (.storing flight found epochs tokens,c,[])
  | .storing flight found epochs tokens =>
    (.finishing flight found,storeSearch env asking flight (searchRow env asking found epochs tokens) c,[])
  | .finishing flight found =>
    let results := found.map searchResultPayloadCompact
    (.answered (.ok results),finishFlight env asking flight (some results) none c,[])
  | .failing flight error =>
    (.falling (asking.keys env) error,finishFlight env asking flight none (some error) c,[])
  | .falling [] error => (.answered (.error error),c,[])
  | .falling (key::keys) error => match c.searches.find? (·.cacheKey == key) with
    | none => (.falling keys error,c,[])
    | some row => (.answered (.ok row.results),c,[.served .stale asking.search row.results])
  | .answered answer => (.answered answer,c,[])

end

/- The read of a memory. `record_access` counts it in the row, which no payload shows, and reads the
row again. What is read of the links and of superseded memories is left out of the default shape. -/
inductive Read where
  | loading
  | checking (entry : ReadRow) (expected : String) (reading : Reading Repository (List (String × String)))
      (tokenSeen : List Repository)
  | reading (token : Option String) (tokenSeen : List Repository)
      (reading : Reading Repository (Except ActionError (Option MemoryRow)))
  | resolving (token : Option String) (tokenSeen : List Repository) (row : MemoryRow)
      (reading : Reading Repository (Except ActionError (Option String)))
  | accessing (token : Option String) (tokenSeen : List Repository) (row : MemoryRow) (memoryId : String)
  | rereading (token : Option String) (tokenSeen : List Repository) (row : MemoryRow)
      (reading : Reading Repository (Except ActionError (Option MemoryRow)))
  | tokening (row : MemoryRow) (payload : ReadPayload) (reading : Reading Repository (List (String × String)))
      (tokenSeen : List Repository)
  | storing (row : MemoryRow) (payload : ReadPayload) (token : Option String) (tokenSeen : List Repository)
  | fallback (error : ActionError)
  | answered (answer : Except ActionError (Option ReadPayload))

section
variable (sha256 : String → String) (memoryId : String)

def touchRow (memoryId : String) : Write := .row (.update .memories (fun row => row.id == memoryId) id)

/- A token that was fetched to check an entry, and was another, is not fetched again. -/
def withPayload (token : Option String) (tokenSeen : List Repository) (row : MemoryRow) : Read :=
  match agentMemoryRecordPayload row with
  | .error error => .answered (.error error)
  | .ok payload => match token with
    | some token => .storing row payload (some token) tokenSeen
    | none => .tokening row payload (validationTokens sha256 [memoryId]) []

def storeRead (row : ReadRow) (c : Shared) : Shared :=
  { c with reads := c.reads.filter (·.memoryId != row.memoryId) ++ [row] }

/- `broken` stands for a repository that cannot be reached. -/
def readStep (broken : Bool) (read : Read) (c : Shared) : Read × Shared × List Emitted :=
  match read with
  | .loading => match c.reads.find? (·.memoryId == memoryId) with
    | some entry => match entry.validationToken with
      | some expected => (.checking entry expected (validationTokens sha256 [memoryId]) [],c,[])
      | none => (.reading none [] (getMemory memoryId),c,[])
    | none => (.reading none [] (getMemory memoryId),c,[])
  | .checking entry expected (.look next) tokenSeen =>
    (.checking entry expected (next c.repository) (tokenSeen ++ [c.repository]),c,[])
  | .checking entry expected (.done tokens) tokenSeen =>
    if tokens.lookup memoryId = some expected then
      (.answered (.ok (some entry.payload)),c,[.validated memoryId entry.payload expected])
    else (.reading (tokens.lookup memoryId) tokenSeen (getMemory memoryId),c,[])
  | .reading token tokenSeen (.look next) =>
    if broken then (.fallback (.other "OperationalError"),c,[]) else (.reading token tokenSeen (next c.repository),c,[])
  | .reading _ _ (.done (.error error)) => (.fallback error,c,[])
  | .reading _ _ (.done (.ok none)) => (.answered (.ok none),c,[])
  | .reading token tokenSeen (.done (.ok (some row))) => (.resolving token tokenSeen row (resolveMemoryId memoryId),c,[])
  | .resolving token tokenSeen row (.look next) => (.resolving token tokenSeen row (next c.repository),c,[])
  | .resolving _ _ _ (.done (.error error)) => (.fallback error,c,[])
  | .resolving token tokenSeen row (.done (.ok none)) => (withPayload sha256 memoryId token tokenSeen row,c,[])
  | .resolving token tokenSeen row (.done (.ok (some resolved))) => (.accessing token tokenSeen row resolved,c,[])
  | .accessing token tokenSeen row resolved =>
    (.rereading token tokenSeen row (getMemory resolved),{ c with repository := commit [touchRow resolved] c.repository },[])
  | .rereading token tokenSeen row (.look next) => (.rereading token tokenSeen row (next c.repository),c,[])
  | .rereading _ _ _ (.done (.error error)) => (.fallback error,c,[])
  | .rereading token tokenSeen row (.done (.ok found)) => (withPayload sha256 memoryId token tokenSeen (found.getD row),c,[])
  | .tokening row payload (.look next) tokenSeen =>
    (.tokening row payload (next c.repository) (tokenSeen ++ [c.repository]),c,[])
  | .tokening row payload (.done tokens) tokenSeen => (.storing row payload (tokens.lookup memoryId) tokenSeen,c,[])
  | .storing row payload token tokenSeen =>
    (.answered (.ok (some payload)),storeRead ⟨memoryId,payload,token⟩ c,[.stored memoryId row payload token tokenSeen])
  | .fallback error => match c.reads.find? (·.memoryId == memoryId) with
    | some entry => (.answered (.ok (some entry.payload)),c,[])
    | none => (.answered (.error error),c,[])
  | .answered answer => (.answered answer,c,[])

end

/- `invalidate_for_mutation` -/
def invalidateForMutation (memoryIds : List String) (c : Shared) : Shared := { c with
  reads := c.reads.filter fun row => !(memoryIds.filter (· != "")).contains row.memoryId
  searches := [] }

def policyMatches (policyVersion featureFingerprint : Option String) (version : String) (features : Option String) : Bool :=
  policyVersion.isNone || (policyVersion == some version && features == featureFingerprint)

def purgeFlight (flight : Flight) : Flight := { flight with
  purged := true
  error := some purgedSearch
  completed := true }

/- `purge_search_responses`; it refuses a fingerprint without a policy. -/
def purgeSearchResponses (process : Nat) (policyVersion featureFingerprint : Option String) (c : Shared) : Shared :=
  if policyVersion = none ∧ featureFingerprint ≠ none then c
  else
    let hit := fun entry : (Nat × String) × Nat => entry.1.1 == process && c.flights[entry.2]?.any fun flight =>
      policyMatches policyVersion featureFingerprint flight.policyVersion flight.featureFingerprint
    { c with
      flights := (c.inflight.filter hit).foldl (fun flights entry => flights.modify entry.2 purgeFlight) c.flights
      inflight := c.inflight.filter fun entry => !hit entry
      searches := c.searches.filter fun row =>
        !policyMatches policyVersion featureFingerprint row.policyVersion row.featureFingerprint }

/- The writer of `last_surfaced_at` is buffered, so that what a search writes is a mutation of its own. -/
inductive Op where
  | search (asking : Asking)
  | read (memoryId : String) (broken : Bool)
  | mutate (writes : List Write)
  | invalidate (memoryIds : List String)
  | purge (process : Nat) (policyVersion featureFingerprint : Option String)

inductive Call where
  | search (asking : Asking) (asked : Asked)
  | read (memoryId : String) (broken : Bool) (read : Read)
  | mutate (writes : List Write)
  | invalidate (memoryIds : List String)
  | purge (process : Nat) (policyVersion featureFingerprint : Option String)
  | finished

variable (env : CacheEnv)

def enter : Op → Call
  | .search asking => .search asking (.fetching (asking.keys env))
  | .read memoryId broken => .read memoryId broken .loading
  | .mutate writes => .mutate writes
  | .invalidate memoryIds => .invalidate memoryIds
  | .purge process policyVersion featureFingerprint => .purge process policyVersion featureFingerprint

def step (call : Call) (c : Shared) : Call × Shared × List Emitted :=
  match call with
  | .search asking asked =>
    let after := askStep env asking asked c
    (.search asking after.1,after.2)
  | .read memoryId broken reader =>
    let after := readStep env.sha256 memoryId broken reader c
    (.read memoryId broken after.1,after.2)
  | .mutate writes => (.finished,{ c with repository := commit writes c.repository },[])
  | .invalidate memoryIds => (.finished,invalidateForMutation memoryIds c,[])
  | .purge process policyVersion featureFingerprint =>
    (.finished,purgeSearchResponses process policyVersion featureFingerprint c,[])
  | .finished => (.finished,c,[])

def cached : Machine Op Call Shared Emitted := ⟨enter env,step env⟩

end McpMemory.Cache
