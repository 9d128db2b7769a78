import McpMemory.Cache.Repository
import McpMemory.Cache.Requests
import McpMemory.Search.Filtering

/-! The search that answers from the projections of the shared read cache when the search itself has
failed: `search_projection_entries` of `shared_read_cache.py` and the fallback of `cache_policy.py`.
What it gives for a request is held against what the search asks of a memory. -/
namespace McpMemory.Search.Projections
open Memory hiding hydrateRecord
open Commuting
open Cache (SharedReadCacheSearchRequest buildSearchCacheRequest)
open Curation (ActionError)
open Filtering

/- `str.lower`, and `str` of a value that is no text. -/
structure Texts where
  lower : String → String
  str : Json → String

/- A row of `cached_memory_projections`. A payload that is not the text of an object is none. -/
structure ProjectionRow where
  memoryId : String
  payload : Option Json.Object
  validationToken : Option String
  cachedAt : Option Rat

/- The memory is the key of its row. -/
structure ProjectionCache where
  rows : List ProjectionRow
  distinct : (rows.map (·.memoryId)).Nodup

structure SharedReadCacheProjectionEntry where
  memoryId : String
  payload : Json.Object
  validationToken : Option String
  cachedAt : Rat

def projectionEntryFromRow (row : ProjectionRow) : Option SharedReadCacheProjectionEntry := match row.payload,row.cachedAt with
  | some payload,some cachedAt => some ⟨row.memoryId,payload,row.validationToken,cachedAt⟩
  | _,_ => none

def textOf : Option Json → Option String
  | some (.str text) => some text
  | _ => none

def projectionMatchesRequest (payload : Json.Object) (request : SharedReadCacheSearchRequest) : Bool :=
  request.workspaceId.all (fun workspaceId => match Json.get payload "workspace_ids" with
    | some (.arr workspaceIds) => workspaceIds.any fun item => textOf (some item) == some workspaceId
    | _ => false) &&
  request.memoryType.all (fun memoryType => textOf (Json.get payload "memory_type") == some memoryType) &&
  request.status.all (fun status => textOf (Json.get payload "status") == some status) &&
  (request.includeSuperseded || textOf (Json.get payload "status") != some "superseded")

section
variable (texts : Texts)

/- `re.findall(r"[a-z0-9]+", query.lower())`, each token once. -/
def projectionQueryTokens (query : String) : List String :=
  ((((texts.lower query).toList.splitOnP fun c => !(c.isLower || c.isDigit)).filter (!·.isEmpty)).map String.ofList).eraseDups

/- `str(payload.get(field) or "").lower()` -/
def loweredField (payload : Json.Object) (field : String) : String := texts.lower (match Json.get payload field with
  | none => ""
  | some (.str text) => text
  | some value => if truthy value then texts.str value else "")

/- What a loop over the value runs through. -/
def iterated : Option Json → Except ActionError (List Json)
  | none => .ok []
  | some (.arr items) => .ok items
  | some (.obj fields) => .ok (fields.map fun field => .str field.1)
  | some (.str text) => .ok (text.toList.map fun c => .str (String.singleton c))
  | some _ => .error (.other "TypeError")

def projectionHitCount (payload : Json.Object) (queryTokens : List String) : Except ActionError Nat :=
  (iterated (Json.get payload "tags")).map fun tags =>
    let lowered := (tags.filterMap fun tag => textOf (some tag)).map texts.lower
    queryTokens.countP fun token => Text.contains (loweredField texts payload "title") token ||
      Text.contains (loweredField texts payload "summary") token || lowered.any (Text.contains · token)

variable (request : SharedReadCacheSearchRequest)

def matchedProjection (row : ProjectionRow) : Except ActionError (Option (Nat × SharedReadCacheProjectionEntry)) :=
  match projectionEntryFromRow row with
  | none => .ok none
  | some entry =>
    if entry.validationToken.isNone || !projectionMatchesRequest entry.payload request then .ok none
    else (projectionHitCount texts entry.payload (projectionQueryTokens texts request.query)).map fun hitCount =>
      if hitCount = 0 then none else some (hitCount,entry)

def matchedProjections : List ProjectionRow → Except ActionError (List (Nat × SharedReadCacheProjectionEntry))
  | [] => .ok []
  | row::rest => do
    let found ← matchedProjection texts request row
    let others ← matchedProjections rest
    .ok (found.toList ++ others)

/- `key=lambda item: (-item[0], -item[1], item[2])` -/
def matchKey (found : Nat × SharedReadCacheProjectionEntry) : Lex (Int × Lex (Rat × String)) :=
  toLex (-(found.1 : Int),toLex (-found.2.cachedAt,found.2.memoryId))

def searchProjectionEntries (cache : ProjectionCache) : Except ActionError (List (Nat × SharedReadCacheProjectionEntry)) :=
  if (projectionQueryTokens texts request.query).isEmpty || request.limit ≤ 0 then .ok []
  else (matchedProjections texts request cache.rows).map (KeySort.sortBy matchKey)

end

/- What the repository answers when it is asked for tokens. -/
abbrev ReadCacheValidationResolver := List String → Except ActionError (List (String × String))

def resolveReadCacheValidationTokens (resolver : ReadCacheValidationResolver) (memoryIds : List String) :
    Except ActionError (List (String × String)) :=
  match (memoryIds.filter (· != "")).eraseDups with
  | [] => .ok []
  | asked => (resolver asked).map fun tokens => tokens.filter fun token => token.1 != "" && token.2 != ""

/- Whether the token of an entry is the one that the repository gives. -/
def vouched (tokens : List (String × String)) (entry : SharedReadCacheProjectionEntry) : Bool := match tokens.lookup entry.memoryId with
  | some token => entry.validationToken == some token
  | none => false

/- The entries that are still right, and the memories whose rows go. -/
def validateCachedProjectionEntries (resolver : ReadCacheValidationResolver) (entries : List SharedReadCacheProjectionEntry) :
    List SharedReadCacheProjectionEntry × List String :=
  match entries.filter (·.validationToken.isSome) with
  | [] => ([],entries.map (·.memoryId))
  | withTokens => match resolveReadCacheValidationTokens resolver (withTokens.map (·.memoryId)) with
    | .error _ => ([],[])
    | .ok tokens => (entries.filter (vouched tokens),(entries.filter (!vouched tokens ·)).map (·.memoryId))

def deleteProjectionEntries (memoryIds : List String) (cache : ProjectionCache) : ProjectionCache where
  rows := cache.rows.filter fun row => !((memoryIds.filter (· != "")).contains row.memoryId)
  distinct := cache.distinct.sublist (List.filter_sublist.map _)

section
variable (texts : Texts) (resolver : Option ReadCacheValidationResolver)

/- The entries that the fallback serves, and the cache after it. -/
def projectionFallback (request : SharedReadCacheSearchRequest) (cache : ProjectionCache) :
    Except ActionError (List SharedReadCacheProjectionEntry × ProjectionCache) := do
  let found ← searchProjectionEntries texts request cache
  let entries := found.map Prod.snd
  match resolver with
  | some resolver =>
    if entries.isEmpty then .ok ([],cache)
    else
      let checked := validateCachedProjectionEntries resolver entries
      .ok (checked.1.take request.limit.toNat,deleteProjectionEntries checked.2 cache)
  | none => .ok ((entries.filter (·.validationToken.isSome)).take request.limit.toNat,cache)

/- `_compact_cached_search_result` -/
def compactCachedSearchResult (result : Json.Object) : Json.Object :=
  let identifierKey := if (textOf (Json.get result "memory_ref")).isSome then "memory_ref" else "memory_id"
  [identifierKey,"title","summary","status","created_at","updated_at"].filterMap fun key =>
    (Json.get result key).map fun value => (key,value)

/- None where there is nothing to serve: the error of the search stands. -/
def loadProjectionSearchFallback (request : SharedReadCacheSearchRequest) (cache : ProjectionCache) :
    Except ActionError (Option Json.Object × ProjectionCache) :=
  (projectionFallback texts resolver request cache).map fun served =>
    (if served.1.isEmpty then none else some [("status",.str "ok"),
      ("results",.arr (served.1.map fun entry => .obj (compactCachedSearchResult entry.payload))),
      ("cache_status",.str "projection_fallback"),("degraded",.bool true)],served.2)

end

/- What the search itself is asked to filter by. -/
def activeFilters (search : Cache.Search) : Filters where
  workspaceId := search.workspaceId
  rankingWorkspaceId := search.contextWorkspace.map some
  status := search.status
  memoryType := search.memoryType
  tags := if search.tags.isEmpty then none else some search.tags
  includeSuperseded := search.includeSuperseded

/- A candidate that no strategy has found yet. -/
def bare (memoryId : String) : RecordSearchCandidate := ⟨⟨memoryId,[],[]⟩,0⟩

/- The memory passes the filter of the search, with nothing at hand. -/
def Eligible (env : Env) (search : Cache.Search) (memoryId : String) : Prop := ∀ signals,
  ∃ after, Runs (candidateAllowed env (activeFilters search) (bare memoryId)) ⟨noneCached,signals⟩ true after

variable (env : Env) (texts : Texts) (resolver : Option ReadCacheValidationResolver)

def Respects (search : Cache.Search) (cache : ProjectionCache) : Prop :=
  ∀ served after, projectionFallback texts resolver (buildSearchCacheRequest search) cache = .ok (served,after) →
    ∀ entry ∈ served, Eligible env search entry.memoryId

/- What a projection shows of its memory is so. -/
structure Shows (payload : Json.Object) (memory : MemoryRecord) : Prop where
  status : ∀ status, textOf (Json.get payload "status") = some status → memory.status = status
  memoryType : ∀ memoryType, textOf (Json.get payload "memory_type") = some memoryType → memory.type = memoryType
  workspaceIds : ∀ workspaceIds, Json.get payload "workspace_ids" = some (.arr workspaceIds) →
    ∀ workspaceId, Json.str workspaceId ∈ workspaceIds → workspaceId ∈ memory.workspaceIds

/- The entries that are served are those with a token that stands. -/
def vouchedBy (resolver : Option ReadCacheValidationResolver) (entries : List SharedReadCacheProjectionEntry)
    (entry : SharedReadCacheProjectionEntry) : Bool := match resolver with
  | none => entry.validationToken.isSome
  | some resolver =>
    match resolveReadCacheValidationTokens resolver ((entries.filter (·.validationToken.isSome)).map (·.memoryId)) with
    | .error _ => false
    | .ok tokens => vouched tokens entry

/- Of the rows that a request matches, those with a token that stands. -/
def standing (found : List (Nat × SharedReadCacheProjectionEntry)) : List (Nat × SharedReadCacheProjectionEntry) :=
  found.filter fun item => vouchedBy resolver ((KeySort.sortBy matchKey found).map Prod.snd) item.2

/- A projection whose token stands shows its memory as it is. -/
def Truthful (request : SharedReadCacheSearchRequest) (cache : ProjectionCache) : Prop :=
  ∀ found, matchedProjections texts request cache.rows = .ok found → ∀ item ∈ standing resolver found,
    ∃ memory, Relational.Reading.getMemory env.tables item.2.memoryId = .ok (some memory) ∧ Shows item.2.payload memory

/- Among the first, up to the limit. -/
def Offered (request : SharedReadCacheSearchRequest) (cache : ProjectionCache) (item : Nat × SharedReadCacheProjectionEntry) : Prop :=
  ∃ found, matchedProjections texts request cache.rows = .ok found ∧ item ∈ standing resolver found ∧
    ((standing resolver found).countP fun other => matchKey other < matchKey item) < request.limit.toNat

/- A link of the tables that supersedes the memory. -/
def Superseded (t : Tables) (memoryId : String) : Prop :=
  ∃ link ∈ t.links, link.targetId = memoryId ∧ link.linkType = "SUPERSEDES"

/- What the projections are not asked. -/
structure Clear (search : Cache.Search) (memory : MemoryRecord) : Prop where
  archived : search.status = none → memory.status ≠ "archived"
  superseded : search.includeSuperseded = true ∨ ¬ Superseded env.tables memory.id
  tags : ∀ tag ∈ search.tags, tag ∈ memory.tags

variable {env} {texts} {resolver} {search : Cache.Search} {memoryId : String}

theorem memoryHas {t : Tables} {memory : MemoryRecord} (found : Relational.Reading.getMemory t memoryId = .ok (some memory)) :
    t.has memory.id = true := by
  obtain ⟨resolved,_,here⟩ := Transaction.mappedOk.mp found
  obtain ⟨row,there,rfl⟩ := Option.map_eq_some_iff.mp here
  obtain ⟨resolved,rfl,there⟩ := Option.bind_eq_some_iff.mp there
  exact List.any_eq_true.mpr ⟨row,List.mem_of_find?_eq_some there,beq_self_eq_true row.id⟩

theorem supersededLinks {t : Tables} {links : List MemoryLink} (there : t.has memoryId = true)
    (read : repositoryLinks t memoryId true = .ok links) :
    (links.filter fun link => (some "SUPERSEDES").all (· == link.linkType)).isEmpty = true ↔ ¬ Superseded t memoryId := by
  rw [incomingRead there] at read
  cases read
  rw [List.isEmpty_iff,List.filter_eq_nil_iff]
  constructor
  · rintro none ⟨link,member,target,linkType⟩
    refine none link ((List.mem_insertionSort _).mpr (List.mem_filter.mpr ⟨member,beq_iff_eq.mpr target⟩)) ?_
    exact beq_iff_eq.mpr linkType.symm
  · intro none link member supersedes
    obtain ⟨member,target⟩ := List.mem_filter.mp ((List.mem_insertionSort _).mp member)
    exact none ⟨link,member,eq_of_beq target,(eq_of_beq supersedes).symm⟩

/- What the filter says of a record whose links are not at hand. -/
theorem allowedWhen {filters : Filters} {memory : MemoryRecord} {active : Active} (there : env.tables.has memory.id = true)
    (missing : active.policy.links (memory.id,true) = none) :
    (∃ after, Runs (memoryAllowed env filters memory) active true after) ↔
      fieldsAllowed filters memory = true ∧ (filters.includeSuperseded = true ∨ ¬ Superseded env.tables memory.id) := by
  unfold memoryAllowed
  cases fields : fieldsAllowed filters memory with
  | false =>
    constructor
    · rintro ⟨after,ran⟩
      cases (runsPure.mp ran).1
    · rintro ⟨allowed,_⟩
      cases allowed
  | true => cases shown : filters.includeSuperseded with
    | true => exact ⟨fun _ => ⟨rfl,.inl rfl⟩,fun _ => ⟨active,runsPure.mpr ⟨rfl,rfl⟩⟩⟩
    | false =>
      have read := incomingRead there
      obtain ⟨after,ran⟩ : ∃ after, Runs (cachedLinks env memory.id true (some "SUPERSEDES")) active
          (((Relational.Reading.incomingLinks env.tables memory.id).insertionSort fun a b =>
            a.sourceId < b.sourceId || a.sourceId == b.sourceId && a.targetId ≤ b.targetId).filter
              fun link => (some "SUPERSEDES").all (· == link.linkType)) after := by
        have given : policyPart.get active = active.policy := rfl
        unfold Runs cachedLinks getLinks PolicyContext.getLinks Part.on
        rw [given]
        dsimp only
        rw [missing,read]
        exact ⟨_,rfl⟩
      have answer := supersededLinks there read
      constructor
      · rintro ⟨last,whole⟩
        obtain ⟨links,middle,linked,ended⟩ := runsBind.mp whole
        obtain ⟨rfl,rfl⟩ := runsOnce linked ran
        exact ⟨rfl,.inr (answer.mp (runsPure.mp ended).1)⟩
      · rintro ⟨_,shows | plain⟩
        · cases shows
        · exact ⟨after,runsBind.mpr ⟨_,_,ran,runsPure.mpr ⟨answer.mpr plain,rfl⟩⟩⟩

theorem eligibleWhen : Eligible env search memoryId ↔ ∃ memory,
    Relational.Reading.getMemory env.tables memoryId = .ok (some memory) ∧ fieldsAllowed (activeFilters search) memory = true ∧
      (search.includeSuperseded = true ∨ ¬ Superseded env.tables memory.id) := by
  have read : ∀ {signals found middle}, Runs (cachedMemory env memoryId) ⟨noneCached,signals⟩ found middle ↔
      Relational.Reading.getMemory env.tables memoryId = .ok found ∧
        ⟨{ noneCached with records := Function.update noneCached.records memoryId (some found) },signals⟩ = middle := by
    intro signals found middle
    unfold cachedMemory
    rw [runsOn]
    constructor
    · rintro ⟨context,ran,rfl⟩
      obtain ⟨held | ⟨_,got⟩,rfl⟩ := runsMemory.mp ran
      · cases held
      · exact ⟨got,rfl⟩
    · rintro ⟨got,rfl⟩
      exact ⟨_,runsMemory.mpr ⟨.inr ⟨rfl,got⟩,rfl⟩,rfl⟩
  constructor
  · intro eligible
    obtain ⟨after,ran⟩ := eligible ⟨"",[],0,false,0,0,0,0⟩
    obtain ⟨found,middle,here,ran⟩ := runsBind.mp ran
    obtain ⟨got,rfl⟩ := read.mp here
    cases found with
    | none => cases (runsPure.mp ran).1
    | some memory =>
      obtain ⟨answer,later,ruled,ran⟩ := runsBind.mp ran
      cases answer with
      | false => cases (runsPure.mp ran).1
      | true => exact ⟨memory,got,(allowedWhen (memoryHas got) rfl).mp ⟨later,ruled⟩⟩
  · rintro ⟨memory,got,allowed⟩ signals
    obtain ⟨later,ruled⟩ := (@allowedWhen env (activeFilters search) memory
      ⟨{ noneCached with records := Function.update noneCached.records memoryId (some (some memory)) },signals⟩ (memoryHas got) rfl).mpr allowed
    exact ⟨later,runsBind.mpr ⟨_,_,read.mpr ⟨got,rfl⟩,runsBind.mpr ⟨true,later,ruled,runsBind.mpr ⟨⟨⟩,later,runsSignal.mpr rfl,
      runsPure.mpr ⟨rfl,rfl⟩⟩⟩⟩⟩

/- What a projection is asked, its memory need not be asked again. -/
theorem clearWhen {payload : Json.Object} {memory : MemoryRecord} (shows : Shows payload memory)
    (matched : projectionMatchesRequest payload (buildSearchCacheRequest search) = true) :
    fieldsAllowed (activeFilters search) memory = true ∧
      (search.includeSuperseded = true ∨ ¬ Superseded env.tables memory.id) ↔ Clear env search memory := by
  unfold projectionMatchesRequest at matched
  simp only [Bool.and_eq_true] at matched
  obtain ⟨⟨⟨workspace,memoryType⟩,status⟩,_⟩ := matched
  have inWorkspace : (activeFilters search).workspaceId.all memory.workspaceIds.contains = true := by
    show search.workspaceId.all _ = true
    cases given : search.workspaceId with
    | none => rfl
    | some workspaceId =>
      have asked : (buildSearchCacheRequest search).workspaceId = some workspaceId := by
        show (search.workspaceId <|> search.contextWorkspace) = _
        rw [given]
        rfl
      rw [asked] at workspace
      simp only [Option.all_some] at workspace
      split at workspace
      · rename_i workspaceIds listed
        obtain ⟨item,member,same⟩ := List.any_eq_true.mp workspace
        cases item with
        | str text =>
          obtain rfl : text = workspaceId := Option.some.inj (eq_of_beq same)
          exact List.contains_iff_mem.mpr (shows.workspaceIds _ listed _ member)
        | null | bool | int | arr | obj => cases eq_of_beq same
      · cases workspace
  have ofType : (activeFilters search).memoryType.all (memory.type == ·) = true := by
    show search.memoryType.all _ = true
    cases given : search.memoryType with
    | none => rfl
    | some asked =>
      have same : (buildSearchCacheRequest search).memoryType = some asked := given
      rw [same] at memoryType
      exact beq_iff_eq.mpr (shows.memoryType _ (eq_of_beq memoryType))
  have tagged : ((activeFilters search).tags.all fun tags => tags.all memory.tags.contains) = true ↔
      ∀ tag ∈ search.tags, tag ∈ memory.tags := by
    unfold activeFilters
    cases search.tags with
    | nil => simp
    | cons tag rest => simp
  have ofStatus : (match (activeFilters search).status with
      | some status => memory.status == status
      | none => memory.status != "archived") = true ↔ (search.status = none → memory.status ≠ "archived") := by
    show (match search.status with
      | some status => memory.status == status
      | none => memory.status != "archived") = true ↔ _
    cases given : search.status with
    | none => exact bne_iff_ne.trans ⟨fun apart _ => apart,fun apart => apart rfl⟩
    | some asked =>
      have same : (buildSearchCacheRequest search).status = some asked := given
      rw [same] at status
      exact iff_of_true (beq_iff_eq.mpr (shows.status _ (eq_of_beq status))) nofun
  unfold fieldsAllowed
  rw [inWorkspace,ofType]
  simp only [Bool.true_and,Bool.and_true,Bool.and_eq_true,tagged]
  constructor
  · rintro ⟨⟨archived,tags⟩,superseded⟩
    exact ⟨ofStatus.mp archived,superseded,tags⟩
  · intro clear
    exact ⟨⟨ofStatus.mpr clear.archived,clear.tags⟩,clear.superseded⟩

structure Matching (texts : Texts) (request : SharedReadCacheSearchRequest) (row : ProjectionRow)
    (item : Nat × SharedReadCacheProjectionEntry) : Prop where
  decoded : projectionEntryFromRow row = some item.2
  token : item.2.validationToken.isSome = true
  asked : projectionMatchesRequest item.2.payload request = true
  counted : projectionHitCount texts item.2.payload (projectionQueryTokens texts request.query) = .ok item.1
  hits : item.1 ≠ 0

variable {request : SharedReadCacheSearchRequest} {cache : ProjectionCache} {item : Nat × SharedReadCacheProjectionEntry}

theorem matchingRow {row : ProjectionRow} (matched : matchedProjection texts request row = .ok (some item)) :
    Matching texts request row item := by
  unfold matchedProjection at matched
  split at matched
  · cases matched
  · rename_i entry decoded
    split at matched
    · cases matched
    · rename_i kept
      obtain ⟨token,asked⟩ := not_or.mp fun either => kept (Bool.or_eq_true_iff.mpr either)
      obtain ⟨hitCount,counted,shown⟩ := Transaction.mappedOk.mp matched
      split at shown
      · cases shown
      · rename_i hits
        cases shown
        refine ⟨decoded,?_,?_,counted,hits⟩
        · cases given : entry.validationToken with
          | none => exact absurd (by rw [given]; rfl) token
          | some token => rfl
        · simpa using asked

theorem matchingItem {rows : List ProjectionRow} {found} (matched : matchedProjections texts request rows = .ok found)
    (member : item ∈ found) : ∃ row ∈ rows, Matching texts request row item := by
  induction rows generalizing found with
  | nil =>
    cases matched
    cases member
  | cons row rest ih =>
    obtain ⟨first,here,next⟩ := Transaction.checkedOk.mp matched
    obtain ⟨others,below,last⟩ := Transaction.checkedOk.mp next
    cases last
    rcases List.mem_append.mp member with own | later
    · obtain rfl := Option.mem_toList.mp own
      exact ⟨row,List.mem_cons_self,matchingRow here⟩
    · obtain ⟨row,there,matching⟩ := ih below later
      exact ⟨row,List.mem_cons_of_mem _ there,matching⟩

theorem decodedRow {row : ProjectionRow} {entry} (decoded : projectionEntryFromRow row = some entry) :
    entry.memoryId = row.memoryId ∧ row.payload = some entry.payload ∧ entry.validationToken = row.validationToken := by
  unfold projectionEntryFromRow at decoded
  split at decoded
  · rename_i payload _ stored _
    cases decoded
    exact ⟨rfl,stored,rfl⟩
  · cases decoded

/- One entry of a memory at most. -/
theorem matchedIds {rows : List ProjectionRow} {found} (matched : matchedProjections texts request rows = .ok found) :
    (found.map fun item => item.2.memoryId).Sublist (rows.map (·.memoryId)) := by
  induction rows generalizing found with
  | nil =>
    cases matched
    exact .slnil
  | cons row rest ih =>
    obtain ⟨first,here,next⟩ := Transaction.checkedOk.mp matched
    obtain ⟨others,below,last⟩ := Transaction.checkedOk.mp next
    cases last
    cases first with
    | none => exact (ih below).cons _
    | some item =>
      show (item.2.memoryId :: others.map _).Sublist (row.memoryId :: rest.map _)
      rw [(decodedRow (matchingRow here).decoded).1]
      exact (ih below).cons_cons _

theorem matchKeys {found : List (Nat × SharedReadCacheProjectionEntry)}
    (matched : matchedProjections texts request cache.rows = .ok found) : (found.map matchKey).Nodup := by
  have ids := cache.distinct.sublist (matchedIds matched)
  rw [List.Nodup,List.pairwise_map] at ids ⊢
  refine ids.imp fun {first second} apart same => apart ?_
  exact congrArg (fun key => (ofLex (ofLex key).2).2) same

theorem checkedEntries {resolver : ReadCacheValidationResolver} {entries : List SharedReadCacheProjectionEntry} :
    (validateCachedProjectionEntries resolver entries).1 = entries.filter (vouchedBy (some resolver) entries) := by
  unfold validateCachedProjectionEntries vouchedBy
  split
  · rename_i none
    rw [none]
    exact (List.filter_eq_nil_iff.mpr fun _ _ => Bool.false_ne_true).symm
  · cases resolved : resolveReadCacheValidationTokens resolver ((entries.filter (·.validationToken.isSome)).map (·.memoryId)) with
    | error error =>
      dsimp only
      rw [resolved]
      exact (List.filter_eq_nil_iff.mpr fun _ _ => Bool.false_ne_true).symm
    | ok tokens =>
      dsimp only
      rw [resolved]

/- What is served is cut off the entries that stand. -/
theorem fallbackServed {found : List (Nat × SharedReadCacheProjectionEntry)}
    (searched : searchProjectionEntries texts request cache = .ok found) : ∃ after, projectionFallback texts resolver request cache =
      .ok (((found.map Prod.snd).filter (vouchedBy resolver (found.map Prod.snd))).take request.limit.toNat,after) := by
  unfold projectionFallback
  rw [searched]
  cases resolver with
  | none => exact ⟨cache,rfl⟩
  | some resolver =>
    show ∃ after, (if (found.map Prod.snd).isEmpty then _ else _) = _
    cases found with
    | nil => exact ⟨cache,by simp⟩
    | cons item rest => exact ⟨_,congrArg (fun checked => Except.ok (List.take request.limit.toNat checked,_)) checkedEntries⟩

theorem servedWhen {entry : SharedReadCacheProjectionEntry} :
    (∃ served after, projectionFallback texts resolver request cache = .ok (served,after) ∧ entry ∈ served) ↔
      ∃ hits, Offered texts resolver request cache (hits,entry) := by
  have cut : ∀ {found}, matchedProjections texts request cache.rows = .ok found → ∀ n,
      entry ∈ (((KeySort.sortBy matchKey found).map Prod.snd).filter
        (vouchedBy resolver ((KeySort.sortBy matchKey found).map Prod.snd))).take n ↔ ∃ hits, (hits,entry) ∈ standing resolver found ∧
          ((standing resolver found).countP fun other => matchKey other < matchKey (hits,entry)) < n := by
    intro found matched n
    have stood : (((KeySort.sortBy matchKey found).filter fun item =>
        vouchedBy resolver ((KeySort.sortBy matchKey found).map Prod.snd) item.2)).Perm (standing resolver found) :=
      KeySort.sortByPerm.filter _
    rw [List.filter_map,← List.map_take,List.mem_map]
    constructor
    · rintro ⟨⟨hits,entry⟩,member,rfl⟩
      obtain ⟨there,few⟩ := (KeySort.memTake ((KeySort.sortByStrict (matchKeys matched)).filter _)).mp member
      exact ⟨hits,stood.mem_iff.mp there,stood.countP_eq _ ▸ few⟩
    · rintro ⟨hits,there,few⟩
      exact ⟨_,(KeySort.memTake ((KeySort.sortByStrict (matchKeys matched)).filter _)).mpr
        ⟨stood.mem_iff.mpr there,(stood.countP_eq _).symm ▸ few⟩,rfl⟩
  constructor
  · rintro ⟨served,after,ran,member⟩
    obtain ⟨found,searched,_⟩ := Transaction.checkedOk.mp ran
    obtain ⟨last,same⟩ := @fallbackServed _ resolver _ _ _ searched
    cases ran.symm.trans same
    unfold searchProjectionEntries at searched
    split at searched
    · cases searched
      cases resolver <;> simp at member
    · obtain ⟨found,matched,rfl⟩ := Transaction.mappedOk.mp searched
      obtain ⟨hits,there,few⟩ := (cut matched _).mp member
      exact ⟨hits,found,matched,there,few⟩
  · rintro ⟨hits,found,matched,there,few⟩
    obtain ⟨row,_,matching⟩ := matchingItem matched (List.mem_of_mem_filter there)
    have searched : searchProjectionEntries texts request cache = .ok (KeySort.sortBy matchKey found) := by
      unfold searchProjectionEntries
      rw [matched,if_neg]
      · rfl
      · intro idle
        rcases Bool.or_eq_true_iff.mp idle with blank | none
        · obtain ⟨tags,_,counted⟩ := Transaction.mappedOk.mp matching.counted
          rw [List.isEmpty_iff.mp blank] at counted
          exact matching.hits counted.symm
        · rw [Int.toNat_of_nonpos (of_decide_eq_true none)] at few
          exact Nat.not_lt_zero _ few
    obtain ⟨after,ran⟩ := @fallbackServed _ resolver _ _ _ searched
    exact ⟨_,after,ran,(cut matched _).mpr ⟨hits,there,few⟩⟩

/- The projection of `m`, as it is in the tables below. -/
def shown (status : String) : ProjectionCache where
  rows := [⟨"m",some [("memory_ref",.str "mem-1"),("title",.str "title"),("summary",.str "summary"),("status",.str status)],
    some "token",some 0⟩]
  distinct := List.nodup_singleton _

def plainTexts : Texts := ⟨id,fun _ => ""⟩

/- Every token stands. -/
def unmoved : ReadCacheValidationResolver := fun memoryIds => .ok (memoryIds.map fun memoryId => (memoryId,"token"))

def titled : Cache.Search := ⟨"title",none,10,true,none,none,[],false,.hybrid,none,none⟩

def archivedTables : Tables := { linked "AMENDS" with memories := [{ target with status := "archived" }] }

theorem shownTruthful {request : SharedReadCacheSearchRequest} :
    Truthful (plainEnv (linked "AMENDS")) plainTexts (some unmoved) request (shown "active") := by
  intro found matched item there
  obtain ⟨row,member,matching⟩ := matchingItem matched (List.mem_of_mem_filter there)
  obtain rfl := List.mem_singleton.mp member
  have same := Option.some.inj matching.decoded
  rw [← same]
  refine ⟨_,rfl,fun status given => Option.some.inj given,fun memoryType given => ?_,fun workspaceIds given => ?_⟩
  · cases given
  · cases given

theorem servedEligible {env : Env} (respects : Respects env texts resolver search cache)
    (served : (projectionFallback texts resolver (buildSearchCacheRequest search) cache).toOption.map
      (·.1.map (·.memoryId)) = some [memoryId]) : ∃ memory, Relational.Reading.getMemory env.tables memoryId = .ok (some memory) ∧
        fieldsAllowed (activeFilters search) memory = true ∧
          (search.includeSuperseded = true ∨ ¬ Superseded env.tables memory.id) := by
  cases ran : projectionFallback texts resolver (buildSearchCacheRequest search) cache with
  | error error =>
    rw [ran] at served
    cases served
  | ok reply =>
    rw [ran] at served
    have ids : reply.1.map (·.memoryId) = [memoryId] := Option.some.inj served
    obtain ⟨entry,member,rfl⟩ := List.mem_map.mp (ids.symm ▸ List.mem_singleton_self memoryId)
    exact eligibleWhen.mp (respects reply.1 reply.2 ran entry member)

theorem barredFields {t : Tables} {memory : MemoryRecord} {filters : Filters}
    (barred : (Relational.Reading.getMemory t memoryId).toOption.join.map (fieldsAllowed filters) = some false)
    (got : Relational.Reading.getMemory t memoryId = .ok (some memory)) : fieldsAllowed filters memory = false := by
  rw [got] at barred
  exact Option.some.inj barred

end McpMemory.Search.Projections
