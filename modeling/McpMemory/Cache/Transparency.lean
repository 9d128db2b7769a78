import McpMemory.Cache.Provenance

/-! Which searches share an answer. The key leaves the tags out, keeps one workspace where the
search has two, and writes the features and the mode into one text. -/
namespace McpMemory.Cache
open Epochs Interleave Memory Reading

def activeFeatures (search : Search) : String := match search.featureFingerprint with
  | some features => if features = "" then "default" else features
  | none => "default"

/- The modes and features that one fingerprint stands for. -/
def FeaturesAlike (first second : Search) : Prop := match first.retrievalMode,second.retrievalMode with
  | .hybrid,.hybrid => first.featureFingerprint = second.featureFingerprint
  | .hybrid,mode => first.featureFingerprint = some (activeFeatures second ++ "|retrieval_mode=" ++ mode.text)
  | mode,.hybrid => second.featureFingerprint = some (activeFeatures first ++ "|retrieval_mode=" ++ mode.text)
  | mode,other => mode = other ∧ activeFeatures first = activeFeatures second

/- A search in one workspace: only that it filters by, or only that it ranks by. -/
def OneWorkspace (search : Search) (workspace : String) : Prop :=
  search.workspaceId = none ∧ search.contextWorkspace = some workspace ∨
  search.workspaceId = some workspace ∧ search.contextWorkspace = none

/- The last case is the fallback key. -/
def WorkspacesAlike (first second : Search) : Prop :=
  first.workspaceId = second.workspaceId ∧ first.contextWorkspace = second.contextWorkspace ∨
  ∃ workspace, OneWorkspace second workspace ∧ (OneWorkspace first workspace ∨
    first.workspaceId = some workspace ∧ first.contextWorkspace = some workspace)

/- All that the key can tell of two searches is alike, for the first as the one whose row is there. -/
structure Keyed (first second : Search) : Prop where
  query : first.query = second.query
  limit : first.limit = second.limit
  adaptiveLimit : first.adaptiveLimit = second.adaptiveLimit
  memoryType : first.memoryType = second.memoryType
  status : first.status = second.status
  includeSuperseded : first.includeSuperseded = second.includeSuperseded
  features : FeaturesAlike first second
  workspaces : WorkspacesAlike first second

section
variable {first second : Search}

theorem modeTold {features other : String} {mode mode' : RetrievalMode} (given : mode ≠ .hybrid) (given' : mode' ≠ .hybrid) :
    features ++ "|retrieval_mode=" ++ mode.text = other ++ "|retrieval_mode=" ++ mode'.text ↔ mode = mode' ∧ features = other := by
  constructor
  · intro same
    -- The modes end in different letters.
    have last := congrArg (fun text => text.toList.getLast?) same
    simp only [String.toList_append,List.getLast?_append] at last
    have modes : mode = mode' := by
      cases mode <;> cases mode' <;> first | rfl | contradiction | simp [RetrievalMode.text] at last
    subst modes
    have lists := congrArg String.toList same
    simp only [String.toList_append,List.append_cancel_right_eq] at lists
    exact ⟨rfl,String.toList_injective lists⟩
  · rintro ⟨rfl,rfl⟩
    rfl

theorem fingerprintOf {search : Search} (mode : search.retrievalMode ≠ .hybrid) :
    requestFingerprint search = some (activeFeatures search ++ "|retrieval_mode=" ++ search.retrievalMode.text) := by
  unfold requestFingerprint
  rw [if_neg mode]
  rfl

theorem featuresAlike : requestFingerprint first = requestFingerprint second ↔ FeaturesAlike first second := by
  unfold FeaturesAlike
  by_cases hybrid : first.retrievalMode = .hybrid
  · have plain : requestFingerprint first = first.featureFingerprint := if_pos hybrid
    by_cases hybrid' : second.retrievalMode = .hybrid
    · have plain' : requestFingerprint second = second.featureFingerprint := if_pos hybrid'
      rw [hybrid,hybrid',plain,plain']
    · rw [plain,fingerprintOf hybrid',hybrid]
      split <;> simp_all
  · by_cases hybrid' : second.retrievalMode = .hybrid
    · have plain' : requestFingerprint second = second.featureFingerprint := if_pos hybrid'
      rw [plain',fingerprintOf hybrid,hybrid']
      split <;> simp_all [eq_comm]
    · rw [fingerprintOf hybrid,fingerprintOf hybrid',Option.some.injEq,modeTold hybrid hybrid']
      split <;> simp_all

theorem keptSame (first second : Search) (workspaceId rankingWorkspaceId : Option String) : buildSearchCacheRequest first =
      { buildSearchCacheRequest second with
        workspaceId := workspaceId
        rankingWorkspaceId := rankingWorkspaceId } ↔
    (first.query = second.query ∧ first.limit = second.limit ∧ first.adaptiveLimit = second.adaptiveLimit ∧
      first.memoryType = second.memoryType ∧ first.status = second.status ∧
      first.includeSuperseded = second.includeSuperseded ∧ requestFingerprint first = requestFingerprint second) ∧
    (buildSearchCacheRequest first).workspaceId = workspaceId ∧
      (buildSearchCacheRequest first).rankingWorkspaceId = rankingWorkspaceId := by
  unfold buildSearchCacheRequest
  simp only [SharedReadCacheSearchRequest.mk.injEq,true_and]
  constructor
  · rintro ⟨query,workspace,limit,adaptive,type,status,superseded,ranking,features⟩
    exact ⟨⟨query,limit,adaptive,type,status,superseded,features⟩,workspace,ranking⟩
  · rintro ⟨⟨query,limit,adaptive,type,status,superseded,features⟩,workspace,ranking⟩
    exact ⟨query,workspace,limit,adaptive,type,status,superseded,ranking,features⟩

theorem servedKeyed : buildSearchCacheRequest first ∈ servedRequests (buildSearchCacheRequest second) ↔ Keyed first second := by
  have policy : ¬ ((buildSearchCacheRequest second).policyVersion = defaultSearchPolicyVersion ∧
      (buildSearchCacheRequest second).featureFingerprint = none) := fun both => by simp [buildSearchCacheRequest,defaultSearchPolicyVersion,memorySearchPolicyVersion] at both
  have workspaces : WorkspacesAlike first second ↔
      (buildSearchCacheRequest first).workspaceId = (buildSearchCacheRequest second).workspaceId ∧
        ((buildSearchCacheRequest first).rankingWorkspaceId = (buildSearchCacheRequest second).rankingWorkspaceId ∨
        ((buildSearchCacheRequest second).rankingWorkspaceId = none ∧ (buildSearchCacheRequest second).workspaceId ≠ none) ∧
          (buildSearchCacheRequest first).rankingWorkspaceId = (buildSearchCacheRequest second).workspaceId) := by
    unfold WorkspacesAlike OneWorkspace buildSearchCacheRequest
    cases first.workspaceId <;> cases first.contextWorkspace <;> cases second.workspaceId <;>
      cases second.contextWorkspace <;> simp
  unfold servedRequests
  rw [if_neg policy,List.append_nil,List.mem_append,List.mem_singleton,List.mem_ite_nil_right,List.mem_singleton,
    keptSame first second (buildSearchCacheRequest second).workspaceId (buildSearchCacheRequest second).rankingWorkspaceId,
    keptSame first second (buildSearchCacheRequest second).workspaceId (buildSearchCacheRequest second).workspaceId,
    featuresAlike]
  constructor
  · intro served
    have kept : (first.query = second.query ∧ first.limit = second.limit ∧ first.adaptiveLimit = second.adaptiveLimit ∧
        first.memoryType = second.memoryType ∧ first.status = second.status ∧
        first.includeSuperseded = second.includeSuperseded ∧ FeaturesAlike first second) ∧ WorkspacesAlike first second := by
      rw [workspaces]
      rcases served with own | fallback
      · exact ⟨own.1,own.2.1,.inl own.2.2⟩
      · exact ⟨fallback.2.1,fallback.2.2.1,.inr ⟨fallback.1,fallback.2.2.2⟩⟩
    obtain ⟨⟨query,limit,adaptive,type,status,superseded,features⟩,alike⟩ := kept
    exact ⟨query,limit,adaptive,type,status,superseded,features,alike⟩
  · rintro ⟨query,limit,adaptive,type,status,superseded,features,alike⟩
    obtain ⟨workspace,own | fallback⟩ := workspaces.mp alike
    · exact .inl ⟨⟨query,limit,adaptive,type,status,superseded,features⟩,workspace,own⟩
    · exact .inr ⟨fallback.1,⟨query,limit,adaptive,type,status,superseded,features⟩,workspace,fallback.2⟩

end

/- No two texts that are hashed for the keys of a search, and for the row of another, have one digest. -/
def Collisionless (sha256 : String → String) (first second : Search) : Prop :=
  ∀ served ∈ servedRequests (buildSearchCacheRequest second),
    searchCacheKey sha256 served = searchCacheKey sha256 (buildSearchCacheRequest first) →
    serializeJson (.obj (normalizedParams served)) = serializeJson (.obj (normalizedParams (buildSearchCacheRequest first)))

/- A run that computes answers for the first alone serves one of them to the second. -/
def Shares (sha256 : String → String) (first second : Search) : Prop :=
  ∃ (search : Search → Reading Repository (Except String (List Found))) (repository : Repository) (reads : List ReadRow)
    (events : List (Event Op)) (manner : Manner) (results : List SearchResult),
    (∀ computed found seen, .computed computed found seen ∈
      ((cached ⟨sha256,search⟩).run (idle (unused repository reads)) events).trace → computed = first) ∧
    .served manner second results ∈ ((cached ⟨sha256,search⟩).run (idle (unused repository reads)) events).trace

section
variable {sha256 : String → String} {first second : Search}

theorem keyedKeys (keyed : Keyed first second) :
    searchCacheKey sha256 (buildSearchCacheRequest first) ∈ searchKeys sha256 (buildSearchCacheRequest second) :=
  keysServed.mpr ⟨_,servedKeyed.mpr keyed,rfl⟩

theorem keysKeyed (collisionless : Collisionless sha256 first second)
    (listed : searchCacheKey sha256 (buildSearchCacheRequest first) ∈ searchKeys sha256 (buildSearchCacheRequest second)) :
    Keyed first second := by
  obtain ⟨served,member,same⟩ := keysServed.mp listed
  exact servedKeyed.mp (paramsApart (collisionless served member same) ▸ member)

/- Every served answer was computed for a search that the key cannot tell from the one that takes it. -/
theorem servedOrigin {env : CacheEnv} {repository reads events manner results}
    (served : .served manner second results ∈ ((cached env).run (idle (unused repository reads)) events).trace) :
    ∃ computed found seen, .computed computed found seen ∈ ((cached env).run (idle (unused repository reads)) events).trace ∧
      results = found.map searchResultPayloadCompact ∧ (env.search computed).after seen = .done (.ok found) ∧
      searchCacheKey env.sha256 (buildSearchCacheRequest computed) ∈ searchKeys env.sha256 (buildSearchCacheRequest second) := by
  obtain ⟨key,listed,from_⟩ := runSoundAny.served _ _ _ served
  have origin : Origin env ((cached env).run (idle (unused repository reads)) events).trace key results := by
    cases manner with
    | fresh checked => exact stampedOrigin from_
    | coalesced | stale => exact from_
  obtain ⟨computed,found,seen,made⟩ := origin
  exact ⟨computed,found,seen,made.event,made.results,made.answer,made.key.symm ▸ listed⟩

/- A search that finds nothing, and after it another that takes its row. -/

def askedAt (search : Search) : Asking := ⟨search,1,0,0⟩

section
variable {env : CacheEnv}

def nothingRow (env : CacheEnv) (search : Search) (repository : Repository) : SearchRow :=
  searchRow env (askedAt search) [] (getSearchEpochs repository) []

theorem missesAlone {asking : Asking} {c : Shared} (empty : c.searches = []) (keys : List String) :
    Alone (cached env) (.search asking (.fetching keys)) c (.search asking .entering) c [] := by
  induction keys with
  | nil => exact aloneQuiet rfl (.rest _ _)
  | cons key keys ih =>
    refine aloneQuiet ?_ ih
    simp only [cached,step,askStep,empty,List.find?_nil]

theorem finishedRest {asking : Asking} {flight payload error} {c : Shared} :
    (finishFlight env asking flight payload error c).searches = c.searches ∧
      (finishFlight env asking flight payload error c).repository = c.repository := by
  obtain ⟨inflight,dropped,_⟩ := droppedRest env asking flight
    { c with flights := c.flights.modify flight (complete payload error) }
  unfold finishFlight
  rw [dropped]
  exact ⟨rfl,rfl⟩

theorem storesAlone (nothing : env.search first = .done (.ok [])) (repository : Repository) (reads : List ReadRow) :
    ∃ c, Alone (cached env) (.search (askedAt first) .entering) (unused repository reads)
        (.search (askedAt first) (.answered (.ok []))) c [.computed first [] []] ∧
      c.searches = [nothingRow env first repository] ∧ c.repository = repository := by
  have stored : storeSearch env (askedAt first) 0 (nothingRow env first repository)
      (beginFlight env (askedAt first) (unused repository reads)) =
    { beginFlight env (askedAt first) (unused repository reads) with searches := [nothingRow env first repository] } := by
    have current : isCurrent env (askedAt first) 0 (beginFlight env (askedAt first) (unused repository reads)) = true := by
      simp [isCurrent,beginFlight,unused]
    unfold storeSearch
    rw [current]
    rfl
  refine ⟨finishFlight env (askedAt first) 0 (some []) none (storeSearch env (askedAt first) 0
    (nothingRow env first repository) (beginFlight env (askedAt first) (unused repository reads))),?_,
    finishedRest.1.trans (by rw [stored]),finishedRest.2.trans (by rw [stored]; rfl)⟩
  have enters : (cached env).step (.search (askedAt first) .entering) (unused repository reads) =
      (.search (askedAt first) (.searching 0 (.done (.ok [])) []),beginFlight env (askedAt first) (unused repository reads),[]) := by
    rw [← nothing]
    rfl
  exact aloneQuiet enters (.step _ _ (aloneQuiet rfl (aloneQuiet rfl (aloneQuiet rfl (aloneQuiet rfl (.rest _ _))))))

theorem hitsAlone {c : Shared} (rows : c.searches = [nothingRow env first c.repository]) {keys : List String}
    (listed : searchCacheKey env.sha256 (buildSearchCacheRequest first) ∈ keys) :
    Alone (cached env) (.search (askedAt second) (.fetching keys)) c (.search (askedAt second) (.answered (.ok []))) c
      [.served (.fresh c.repository) second []] := by
  induction keys with
  | nil => exact absurd listed List.not_mem_nil
  | cons key keys ih =>
    by_cases here : (nothingRow env first c.repository).cacheKey = key
    · have fetches : (cached env).step (.search (askedAt second) (.fetching (key::keys))) c =
          (.search (askedAt second) (.comparing (nothingRow env first c.repository)),c,[]) := by
        simp only [cached,step,askStep,rows,List.find?_cons,here,beq_self_eq_true]
        rfl
      have compares : (cached env).step (.search (askedAt second) (.comparing (nothingRow env first c.repository))) c =
          (.search (askedAt second) (.validating (nothingRow env first c.repository) c.repository (.done true)),c,[]) := by
        have same : getSearchEpochs c.repository = (nothingRow env first c.repository).searchEpochs := rfl
        simp only [cached,step,askStep,if_pos same]
        rfl
      exact aloneQuiet fetches (aloneQuiet compares (.step _ _ (.rest _ _)))
    · have later : searchCacheKey env.sha256 (buildSearchCacheRequest first) ∈ keys :=
        (List.mem_cons.mp listed).resolve_left fun same => here same
      refine aloneQuiet ?_ (ih later)
      simp only [cached,step,askStep,rows,List.find?_cons,beq_eq_false_iff_ne.mpr here,List.find?_nil]

theorem keyedServed (keyed : Keyed first second) (nothing : env.search first = .done (.ok [])) (repository : Repository) :
    ∃ events, ((cached env).run (idle (unused repository [])) events).trace =
      [.served (.fresh repository) second [],.computed first [] []] := by
  obtain ⟨c,stores,rows,same⟩ := storesAlone nothing repository []
  have alone := aloneTrans (missesAlone rfl ((askedAt first).keys env)) stores
  obtain ⟨n,early⟩ : ∃ n, (cached env).run ⟨unused repository [],[enter env (.search (askedAt first))],[]⟩
      (List.replicate n (.advance 0)) = ⟨c,[.search (askedAt first) (.answered (.ok []))],[.computed first [] []]⟩ :=
    aloneRun alone rfl
  obtain ⟨m,late⟩ : ∃ m, (cached env).run ⟨c,[.search (askedAt first) (.answered (.ok [])),enter env (.search (askedAt second))],
      [.computed first [] []]⟩ (List.replicate m (.advance 1)) =
      ⟨c,[.search (askedAt first) (.answered (.ok [])),.search (askedAt second) (.answered (.ok []))],
        [.served (.fresh c.repository) second [],.computed first [] []]⟩ :=
    aloneRun (hitsAlone (same.symm ▸ rows) (keyedKeys keyed)) rfl
  refine ⟨[.start (.search (askedAt first))] ++ List.replicate n (.advance 0) ++ [.start (.search (askedAt second))] ++
    List.replicate m (.advance 1),?_⟩
  have begun : (cached env).run (idle (unused repository [])) [.start (.search (askedAt first))] =
    ⟨unused repository [],[enter env (.search (askedAt first))],[]⟩ := rfl
  have between : (cached env).run ⟨c,[.search (askedAt first) (.answered (.ok []))],[.computed first [] []]⟩
      [.start (.search (askedAt second))] = ⟨c,[.search (askedAt first) (.answered (.ok [])),
        enter env (.search (askedAt second))],[.computed first [] []]⟩ := rfl
  rw [runAppend,runAppend,runAppend,begun,early,between,late,same]

end

theorem keyedShares (keyed : Keyed first second) : Shares sha256 first second := by
  obtain ⟨events,trace⟩ := @keyedServed first second ⟨sha256,fun _ => .done (.ok [])⟩ keyed rfl ⟨⟨fun _ => [],fun _ => 0⟩,[]⟩
  refine ⟨_,_,_,events,.fresh ⟨⟨fun _ => [],fun _ => 0⟩,[]⟩,[],fun computed found seen member => ?_,trace ▸ List.mem_cons_self⟩
  rw [trace] at member
  rcases List.mem_cons.mp member with other | own
  · cases other
  · cases List.mem_singleton.mp own
    rfl

/- Two searches share answers where the key cannot tell them apart, and only there. -/
theorem sharesKeyed (collisionless : Collisionless sha256 first second) : Shares sha256 first second ↔ Keyed first second := by
  constructor
  · rintro ⟨search,repository,reads,events,manner,results,own,served⟩
    obtain ⟨computed,found,seen,made,_,_,listed⟩ := servedOrigin served
    cases own computed found seen made
    exact keysKeyed collisionless listed
  · exact keyedShares

/- An answer that was computed for the very search that it is served to. -/
def Own (env : CacheEnv) (trace : List Emitted) (search : Search) (results : List SearchResult) : Prop :=
  ∃ found seen, .computed search found seen ∈ trace ∧ results = found.map searchResultPayloadCompact ∧
    (env.search search).after seen = .done (.ok found)

theorem searchTransparent (sha256 : String → String) :
    (∀ first second, Collisionless sha256 first second →
      ((Shares sha256 first second → first = second) ↔ (Keyed first second → first = second))) ∧
    ∀ (search : Search → Reading Repository (Except String (List Found))) (repository : Repository) (reads : List ReadRow)
      (events : List (Event Op)) (manner : Manner) (second : Search) (results : List SearchResult),
      (∀ first found seen, .computed first found seen ∈
          ((cached ⟨sha256,search⟩).run (idle (unused repository reads)) events).trace →
        Collisionless sha256 first second ∧ (Keyed first second → first = second)) →
      .served manner second results ∈ ((cached ⟨sha256,search⟩).run (idle (unused repository reads)) events).trace →
      Own ⟨sha256,search⟩ ((cached ⟨sha256,search⟩).run (idle (unused repository reads)) events).trace second results := by
  refine ⟨fun first second collisionless => ?_,fun search repository reads events manner second results apart served => ?_⟩
  · rw [sharesKeyed collisionless]
  · obtain ⟨computed,found,seen,made,given,answer,listed⟩ := servedOrigin served
    obtain ⟨collisionless,told⟩ := apart computed found seen made
    cases told (keysKeyed collisionless listed)
    exact ⟨found,seen,made,given,answer⟩

end

/- A search for tags that no memory has, then one without tags; and a search that a workspace filters,
then one that it only ranks. -/

def plainSearch : Search := ⟨"anything",none,10,true,none,none,[],false,.hybrid,none,none⟩

def taggedSearch : Search := { plainSearch with tags := ["rare"] }

def filteredSearch : Search := { plainSearch with workspaceId := some "w" }

def rankedSearch : Search := { plainSearch with contextWorkspace := some "w" }

theorem searchTransparentPlain :
    ((Shares id taggedSearch plainSearch → taggedSearch = plainSearch) ↔
      (Keyed taggedSearch plainSearch → taggedSearch = plainSearch)) ∧
    ∃ events, Own ⟨id,fun _ => .done (.ok [])⟩
      ((cached ⟨id,fun _ => .done (.ok [])⟩).run (idle (unused ⟨⟨fun _ => [],fun _ => 0⟩,[]⟩ [])) events).trace plainSearch [] := by
  refine ⟨(searchTransparent id).1 _ _ fun _ _ same => same,?_⟩
  have alike : Keyed plainSearch plainSearch := ⟨rfl,rfl,rfl,rfl,rfl,rfl,rfl,.inl ⟨rfl,rfl⟩⟩
  obtain ⟨events,trace⟩ := @keyedServed plainSearch plainSearch ⟨id,fun _ => .done (.ok [])⟩ alike rfl
    ⟨⟨fun _ => [],fun _ => 0⟩,[]⟩
  refine ⟨events,(searchTransparent id).2 _ _ _ _ _ _ _ (fun first found seen made => ?_) (trace ▸ List.mem_cons_self)⟩
  rw [trace] at made
  rcases List.mem_cons.mp made with other | own
  · cases other
  · cases List.mem_singleton.mp own
    exact ⟨fun _ _ same => same,fun _ => rfl⟩

/- No hash makes the cache transparent. -/
theorem neverTransparent : ¬ ∃ sha256 : String → String,
    (∀ first second, Shares sha256 first second → first = second) ∨
    ∀ (search : Search → Reading Repository (Except String (List Found))) (repository : Repository) (reads : List ReadRow)
      (events : List (Event Op)) (manner : Manner) (second : Search) (results : List SearchResult),
      .served manner second results ∈ ((cached ⟨sha256,search⟩).run (idle (unused repository reads)) events).trace →
      ∃ seen found, (search second).after seen = .done (.ok found) ∧ results = found.map searchResultPayloadCompact := by
  rintro ⟨sha256,agree | answer⟩
  · have tagged : Keyed taggedSearch plainSearch := ⟨rfl,rfl,rfl,rfl,rfl,rfl,rfl,.inl ⟨rfl,rfl⟩⟩
    exact absurd (agree taggedSearch plainSearch (keyedShares tagged)) (by decide)
  · have ranked : Keyed filteredSearch rankedSearch :=
      ⟨rfl,rfl,rfl,rfl,rfl,rfl,rfl,.inr ⟨"w",.inl ⟨rfl,rfl⟩,.inl (.inr ⟨rfl,rfl⟩)⟩⟩
    -- One memory, in no workspace.
    obtain ⟨events,trace⟩ := @keyedServed filteredSearch rankedSearch ⟨sha256,fun search =>
      .done (.ok (if search.workspaceId = none then [⟨"m",some 1,"first","","active",none,none⟩] else []))⟩ ranked rfl
      ⟨⟨fun _ => [],fun _ => 0⟩,[]⟩
    obtain ⟨seen,found,gives,results⟩ := answer _ _ _ events _ rankedSearch [] (trace ▸ List.mem_cons_self)
    cases gives
    cases results

end McpMemory.Cache
