import McpMemory.Cache.Shared

/-! Where the answers of the search cache come from: each is one that a search has computed whose
key is among the keys of the search that takes it. `good` is what is known of the states that a
search has read and of the epochs that it takes for its row. -/
namespace McpMemory.Cache
open Epochs Interleave Reading

variable (env : CacheEnv) (good : List Repository → SearchEpochs → Prop)

/- A search that was computed, with the key of its row. -/
structure Computed (trace : List Emitted) (key : String) (results : List SearchResult) (search : Search)
    (found : List Found) (seen : List Repository) : Prop where
  event : .computed search found seen ∈ trace
  results : results = found.map searchResultPayloadCompact
  key : searchCacheKey env.sha256 (buildSearchCacheRequest search) = key
  answer : (env.search search).after seen = .done (.ok found)

def Origin (trace : List Emitted) (key : String) (results : List SearchResult) : Prop :=
  ∃ search found seen, Computed env trace key results search found seen

/- All that a search has seen lies before a state. -/
def Past (seen : List Repository) (r : Repository) : Prop := ∀ state ∈ seen, Since state.counted r.counted

def Stamped (trace : List Emitted) (r : Repository) (key : String) (results : List SearchResult) (epochs : SearchEpochs) : Prop :=
  ∃ search found seen, Computed env trace key results search found seen ∧ good seen epochs ∧ Past seen r

/- A flight is one of a key. -/
def Flies (flights : List Flight) (key : String) (flight : Nat) : Prop := ∃ state ∈ flights[flight]?, state.cacheKey = key

structure Held (c : Shared) (trace : List Emitted) : Prop where
  rows : ∀ row ∈ c.searches, Stamped env good trace c.repository row.cacheKey row.results row.searchEpochs
  flights : ∀ flight ∈ c.flights, ∀ results ∈ flight.payload, Origin env trace flight.cacheKey results
  inflight : ∀ entry ∈ c.inflight, Flies c.flights entry.1.2 entry.2

def AskedHeld (c : Shared) (trace : List Emitted) (asking : Asking) : Asked → Prop
  | .fetching keys | .falling keys _ => keys ⊆ asking.keys env
  | .comparing row => row.cacheKey ∈ asking.keys env ∧
    Stamped env good trace c.repository row.cacheKey row.results row.searchEpochs
  | .validating row checked _ => row.cacheKey ∈ asking.keys env ∧
    Stamped env good trace checked row.cacheKey row.results (getSearchEpochs checked)
  | .waiting flight => Flies c.flights (asking.key env) flight
  | .searching flight reading seen => Flies c.flights (asking.key env) flight ∧ Past seen c.repository ∧
    (env.search asking.search).after seen = reading
  | .capturing flight found seen => Flies c.flights (asking.key env) flight ∧ Past seen c.repository ∧
    Computed env trace (asking.key env) (found.map searchResultPayloadCompact) asking.search found seen
  | .tokening flight found epochs _ | .storing flight found epochs _ => Flies c.flights (asking.key env) flight ∧
    Stamped env good trace c.repository (asking.key env) (found.map searchResultPayloadCompact) epochs
  | .finishing flight found => Flies c.flights (asking.key env) flight ∧
    Origin env trace (asking.key env) (found.map searchResultPayloadCompact)
  | .entering | .failing .. | .answered _ => True

def CallHeld (c : Shared) (trace : List Emitted) : Call → Prop
  | .search asking asked => AskedHeld env good c trace asking asked
  | _ => True

def Served (trace : List Emitted) (manner : Manner) (search : Search) (results : List SearchResult) : Prop :=
  ∃ key ∈ searchKeys env.sha256 (buildSearchCacheRequest search), match manner with
    | .fresh checked => Stamped env good trace checked key results (getSearchEpochs checked)
    | .coalesced | .stale => Origin env trace key results

variable {env good} {c after : Shared} {trace : List Emitted} {key : String} {results : List SearchResult}
  {asking : Asking}

theorem computedMore {emitted search found seen} (computed : Computed env trace key results search found seen) :
    Computed env (emitted ++ trace) key results search found seen :=
  { computed with event := List.mem_append_right _ computed.event }

theorem originMore {emitted} (origin : Origin env trace key results) : Origin env (emitted ++ trace) key results := by
  obtain ⟨search,found,seen,computed⟩ := origin
  exact ⟨search,found,seen,computedMore computed⟩

theorem stampedOrigin {r epochs} (stamped : Stamped env good trace r key results epochs) : Origin env trace key results := by
  obtain ⟨search,found,seen,computed,_⟩ := stamped
  exact ⟨search,found,seen,computed⟩

theorem pastLater {seen : List Repository} {r later : Repository} (past : Past seen r) (since : Since r.counted later.counted) :
    Past seen later := fun state member => sinceTrans (past state member) since

theorem stampedMore {emitted r later epochs} (stamped : Stamped env good trace r key results epochs)
    (since : Since r.counted later.counted) : Stamped env good (emitted ++ trace) later key results epochs := by
  obtain ⟨search,found,seen,computed,fine,past⟩ := stamped
  exact ⟨search,found,seen,computedMore computed,fine,pastLater past since⟩

theorem servedMore {emitted manner search} (served : Served env good trace manner search results) :
    Served env good (emitted ++ trace) manner search results := by
  obtain ⟨key,listed,from_⟩ := served
  cases manner with
  | fresh checked => exact ⟨key,listed,stampedMore from_ (sinceRefl _)⟩
  | coalesced | stale => exact ⟨key,listed,originMore from_⟩

/- What a step keeps of the state for the other calls. -/
structure Grows (before after : Shared) : Prop where
  since : Since before.repository.counted after.repository.counted
  flies : ∀ key flight, Flies before.flights key flight → Flies after.flights key flight

theorem askedGrows {emitted asked} (grows : Grows c after) (held : AskedHeld env good c trace asking asked) :
    AskedHeld env good after (emitted ++ trace) asking asked := by
  cases asked with
  | fetching | falling => exact held
  | comparing => exact ⟨held.1,stampedMore held.2 grows.since⟩
  | validating => exact ⟨held.1,stampedMore held.2 (sinceRefl _)⟩
  | waiting => exact grows.flies _ _ held
  | searching => exact ⟨grows.flies _ _ held.1,pastLater held.2.1 grows.since,held.2.2⟩
  | capturing => exact ⟨grows.flies _ _ held.1,pastLater held.2.1 grows.since,computedMore held.2.2⟩
  | tokening | storing => exact ⟨grows.flies _ _ held.1,stampedMore held.2 grows.since⟩
  | finishing => exact ⟨grows.flies _ _ held.1,originMore held.2⟩
  | entering | failing | answered => trivial

theorem callGrows {emitted call} (grows : Grows c after) (held : CallHeld env good c trace call) :
    CallHeld env good after (emitted ++ trace) call := by
  cases call with
  | search => exact askedGrows grows held
  | read | mutate | invalidate | purge | finished => trivial

/- Where only rows of the cache and the repository change. -/
theorem flightsGrow (since : Since c.repository.counted after.repository.counted) (flights : after.flights = c.flights) :
    Grows c after := ⟨since,fun _ _ flies => by rwa [Flies,flights]⟩

theorem growsRefl : Grows c c := ⟨sinceRefl _,fun _ _ flies => flies⟩

theorem heldAfter {emitted} (held : Held env good c trace) (grows : Grows c after)
    (rows : ∀ row ∈ after.searches, row ∈ c.searches ∨
      Stamped env good (emitted ++ trace) after.repository row.cacheKey row.results row.searchEpochs)
    (flights : ∀ flight ∈ after.flights, flight ∈ c.flights ∨
      ∀ results ∈ flight.payload, Origin env (emitted ++ trace) flight.cacheKey results)
    (inflight : ∀ entry ∈ after.inflight, entry ∈ c.inflight ∨ Flies after.flights entry.1.2 entry.2) :
    Held env good after (emitted ++ trace) := by
  refine ⟨fun row member => ?_,fun flight member results given => ?_,fun entry member => ?_⟩
  · rcases rows row member with old | new
    · exact stampedMore (held.rows row old) grows.since
    · exact new
  · rcases flights flight member with old | new
    · exact originMore (held.flights flight old results given)
    · exact new results given
  · rcases inflight entry member with old | new
    · exact grows.flies _ _ (held.inflight entry old)
    · exact new

theorem heldMore {emitted} (held : Held env good c trace) : Held env good c (emitted ++ trace) :=
  heldAfter held growsRefl (fun _ member => .inl member) (fun _ member => .inl member) fun _ member => .inl member

/- What a step of a search gives. -/
structure Stepped (env : CacheEnv) (good : List Repository → SearchEpochs → Prop) (c : Shared) (trace : List Emitted)
    (asking : Asking) (next : Asked × Shared × List Emitted) : Prop where
  held : Held env good next.2.1 (next.2.2 ++ trace)
  asked : AskedHeld env good next.2.1 (next.2.2 ++ trace) asking next.1
  grows : Grows c next.2.1
  served : ∀ manner search results, .served manner search results ∈ next.2.2 → Served env good trace manner search results

theorem stays {asked} (held : Held env good c trace) (next : AskedHeld env good c trace asking asked) :
    Stepped env good c trace asking (asked,c,[]) :=
  ⟨held,next,growsRefl,fun _ _ _ member => absurd member List.not_mem_nil⟩

theorem answers {manner} (held : Held env good c trace) (served : Served env good trace manner asking.search results) :
    Stepped env good c trace asking (.answered (.ok results),c,[.served manner asking.search results]) := by
  refine ⟨heldMore held,trivial,growsRefl,fun _ _ _ member => ?_⟩
  cases List.mem_singleton.mp member
  exact served

theorem rowFound {rows : List SearchRow} {key row} (found : rows.find? (·.cacheKey == key) = some row) :
    row ∈ rows ∧ row.cacheKey = key :=
  ⟨List.mem_of_find?_eq_some found,by simpa using List.find?_some found⟩

theorem ownKey : asking.key env ∈ asking.keys env := by
  refine keysServed.mpr ⟨asking.request,?_,rfl⟩
  simp [servedRequests]

/- Flights are only ever changed in what they end with. -/
theorem modifiedFlies {n : Nat} {change : Flight → Flight} (keeps : ∀ flight, (change flight).cacheKey = flight.cacheKey)
    {flights : List Flight} {flight : Nat} {key : String} (flies : Flies flights key flight) :
    Flies (flights.modify n change) key flight := by
  obtain ⟨state,there,same⟩ := flies
  rw [Option.mem_def] at there
  unfold Flies
  rw [List.getElem?_modify,there]
  split
  · exact ⟨change state,rfl,(keeps state).trans same⟩
  · exact ⟨state,rfl,same⟩

theorem completeKey {payload error} (flight : Flight) : (complete payload error flight).cacheKey = flight.cacheKey := by
  unfold complete
  split <;> rfl

theorem droppedRest (env : CacheEnv) (asking : Asking) (flight : Nat) (c : Shared) :
    ∃ inflight, dropFlight env asking flight c = { c with inflight := inflight } ∧
    ∀ entry ∈ inflight, entry ∈ c.inflight := by
  unfold dropFlight
  split
  · exact ⟨_,rfl,fun entry member => (List.mem_filter.mp member).1⟩
  · exact ⟨_,rfl,fun entry member => member⟩

theorem begins (held : Held env good c trace) : Stepped env good c trace asking
    (.searching c.flights.length (env.search asking.search) [],beginFlight env asking c,[]) := by
  have own : Flies (beginFlight env asking c).flights (asking.key env) c.flights.length :=
    ⟨newFlight env asking,List.getElem?_concat_length,rfl⟩
  have grows : Grows c (beginFlight env asking c) := by
    refine ⟨sinceRefl _,fun key flight flies => ?_⟩
    obtain ⟨state,there,same⟩ := flies
    refine ⟨state,?_,same⟩
    rw [Option.mem_def] at there ⊢
    have bound : flight < c.flights.length := (List.getElem?_eq_some_iff.mp there).1
    simp only [beginFlight]
    rwa [List.getElem?_append_left bound]
  have flights : ∀ flight ∈ (beginFlight env asking c).flights, flight ∈ c.flights ∨
      ∀ results ∈ flight.payload, Origin env ([] ++ trace) flight.cacheKey results := by
    intro flight member
    rcases List.mem_append.mp member with old | new
    · exact .inl old
    · cases List.mem_singleton.mp new
      exact .inr nofun
  have inflight : ∀ entry ∈ (beginFlight env asking c).inflight, entry ∈ c.inflight ∨
      Flies (beginFlight env asking c).flights entry.1.2 entry.2 := by
    intro entry member
    rcases List.mem_cons.mp member with new | old
    · exact .inr (new ▸ own)
    · exact .inl old
  exact ⟨heldAfter held grows (fun _ member => .inl member) flights inflight,
    ⟨own,fun _ member => absurd member List.not_mem_nil,afterNil⟩,grows,fun _ _ _ member => absurd member List.not_mem_nil⟩

/- The end of a search in flight, by the call that leads it. -/
theorem finishes {flight : Nat} {payload error asked} (held : Held env good c trace)
    (next : ∀ after, AskedHeld env good after trace asking asked)
    (from_ : ∀ state ∈ c.flights[flight]?, ∀ results ∈ payload, Origin env trace state.cacheKey results) :
    Stepped env good c trace asking (asked,finishFlight env asking flight payload error c,[]) := by
  obtain ⟨inflight,dropped,fewer⟩ := droppedRest env asking flight
    { c with flights := c.flights.modify flight (complete payload error) }
  unfold finishFlight
  rw [dropped]
  have grows : Grows c { c with
      flights := c.flights.modify flight (complete payload error)
      inflight := inflight } := ⟨sinceRefl _,fun _ _ => modifiedFlies completeKey⟩
  have flights : ∀ other ∈ c.flights.modify flight (complete payload error), other ∈ c.flights ∨
      ∀ results ∈ other.payload, Origin env ([] ++ trace) other.cacheKey results := by
    intro other member
    obtain ⟨n,there⟩ := List.mem_iff_getElem?.mp member
    rw [List.getElem?_modify] at there
    split at there
    · rename_i here
      obtain ⟨state,found,changed⟩ := Option.map_eq_some_iff.mp there
      have old : state ∈ c.flights := List.mem_of_getElem? found
      unfold complete at changed
      split at changed
      · exact .inl (changed ▸ old)
      · refine .inr fun results given => ?_
        subst changed
        exact from_ state (here ▸ found) results given
    · exact .inl (List.mem_of_getElem? (by simpa using there))
  exact ⟨heldAfter held grows (fun _ member => .inl member) flights fun entry member => .inl (fewer entry member),
    next _,grows,fun _ _ _ member => absurd member List.not_mem_nil⟩

theorem stores {flight : Nat} {row : SearchRow} {asked} (held : Held env good c trace)
    (stamped : Stamped env good trace c.repository row.cacheKey row.results row.searchEpochs)
    (next : ∀ after, Grows c after → AskedHeld env good after trace asking asked) :
    Stepped env good c trace asking (asked,storeSearch env asking flight row c,[]) := by
  have grows : Grows c (storeSearch env asking flight row c) := by
    unfold storeSearch
    split
    · exact flightsGrow (sinceRefl _) rfl
    · exact growsRefl
  refine ⟨?_,next _ grows,grows,fun _ _ _ member => absurd member List.not_mem_nil⟩
  unfold storeSearch
  split
  · refine heldAfter held (flightsGrow (sinceRefl _) rfl) (fun other member => ?_) (fun _ member => .inl member)
      fun _ member => .inl member
    rcases List.mem_append.mp member with old | new
    · exact .inl (List.mem_filter.mp old).1
    · exact .inr (List.mem_singleton.mp new ▸ stamped)
  · exact held

/- What the condition asks of a step of a search. -/
def Captures (good : List Repository → SearchEpochs → Prop) (c : Shared) : Asked → Prop
  | .capturing _ _ seen => good seen (getSearchEpochs c.repository)
  | _ => True

theorem askStepped {asked} (held : Held env good c trace) (asking_ : AskedHeld env good c trace asking asked)
    (ok : Captures good c asked) : Stepped env good c trace asking (askStep env asking asked c) := by
  cases asked with
  | fetching keys =>
    cases keys with
    | nil => exact stays held trivial
    | cons key keys =>
      have rest : keys ⊆ asking.keys env := fun other member => asking_ (List.mem_cons_of_mem _ member)
      cases found : c.searches.find? (·.cacheKey == key) with
      | none =>
        simp only [askStep,found]
        exact stays held rest
      | some row =>
        obtain ⟨member,same⟩ := rowFound found
        simp only [askStep,found]
        split
        · exact stays held trivial
        · exact stays held ⟨same ▸ asking_ List.mem_cons_self,held.rows row member⟩
  | comparing row =>
    simp only [askStep]
    split
    · rename_i current
      exact stays held ⟨asking_.1,current ▸ asking_.2⟩
    · exact stays held trivial
  | validating row checked reading =>
    cases reading with
    | look next => exact stays held asking_
    | done current =>
      simp only [askStep]
      split
      · exact answers held ⟨row.cacheKey,asking_⟩
      · exact stays held trivial
  | entering =>
    cases found : c.inflight.lookup (asking.process,asking.key env) with
    | some flight =>
      simp only [askStep,found]
      have flies : Flies c.flights (asking.key env) flight := held.inflight _ (Table.lookupMember found)
      exact stays held flies
    | none =>
      simp only [askStep,found]
      exact begins held
  | waiting flight =>
    obtain ⟨state,there,same⟩ := asking_
    rw [Option.mem_def] at there
    have every : asking.keys env ⊆ asking.keys env := fun _ member => member
    simp only [askStep,there]
    split
    · cases given : state.payload with
      | some results =>
        have origin := held.flights state (List.mem_of_getElem? there) results given
        exact answers held ⟨asking.key env,ownKey,same ▸ origin⟩
      | none => cases state.error <;> exact stays held every
    · obtain ⟨inflight,dropped,fewer⟩ := droppedRest env asking flight c
      rw [dropped]
      have grows : Grows c { c with inflight := inflight } := flightsGrow (sinceRefl _) rfl
      exact ⟨heldAfter held grows (fun _ member => .inl member) (fun _ member => .inl member)
        fun entry member => .inl (fewer entry member),every,grows,fun _ _ _ member => absurd member List.not_mem_nil⟩
  | searching flight reading seen =>
    obtain ⟨flies,past,read⟩ := asking_
    cases reading with
    | look next =>
      refine stays held ⟨flies,fun state member => ?_,?_⟩
      · rcases List.mem_append.mp member with old | new
        · exact past state old
        · exact List.mem_singleton.mp new ▸ sinceRefl _
      · rw [afterAppend,read]
        exact afterNil
    | done answer =>
      cases answer with
      | error error => exact stays held trivial
      | ok found =>
        refine ⟨heldMore held,⟨flies,past,⟨List.mem_cons_self,rfl,rfl,read⟩⟩,growsRefl,fun _ _ _ member => ?_⟩
        cases List.mem_singleton.mp member
  | capturing flight found seen =>
    obtain ⟨flies,past,computed⟩ := asking_
    exact stays held ⟨flies,asking.search,found,seen,computed,ok,past⟩
  | tokening flight found epochs reading =>
    cases reading with
    | look next => exact stays held asking_
    | done tokens => exact stays held asking_
  | storing flight found epochs tokens =>
    obtain ⟨flies,stamped⟩ := asking_
    exact stores held stamped fun after grows => ⟨grows.flies _ _ flies,stampedOrigin stamped⟩
  | finishing flight found =>
    obtain ⟨⟨own,there,same⟩,origin⟩ := asking_
    refine finishes held (fun _ => trivial) fun state member results given => ?_
    cases Option.some.inj (there.symm.trans member)
    cases given
    exact same ▸ origin
  | failing flight error =>
    have every : asking.keys env ⊆ asking.keys env := fun _ member => member
    exact finishes held (fun _ => every) nofun
  | falling keys error =>
    cases keys with
    | nil => exact stays held trivial
    | cons key keys =>
      have rest : keys ⊆ asking.keys env := fun other member => asking_ (List.mem_cons_of_mem _ member)
      cases found : c.searches.find? (·.cacheKey == key) with
      | none =>
        simp only [askStep,found]
        exact stays held rest
      | some row =>
        obtain ⟨member,same⟩ := rowFound found
        simp only [askStep,found]
        exact answers held ⟨row.cacheKey,same ▸ asking_ List.mem_cons_self,stampedOrigin (held.rows row member)⟩
  | answered answer => exact stays held trivial

/- What the other calls leave. -/
structure Beside (c after : Shared) (emitted : List Emitted) : Prop where
  since : Since c.repository.counted after.repository.counted
  searches : after.searches = c.searches
  flights : after.flights = c.flights
  inflight : after.inflight = c.inflight
  served : ∀ manner search results, .served manner search results ∉ emitted

theorem besideRefl : Beside c c [] := ⟨sinceRefl _,rfl,rfl,rfl,fun _ _ _ => List.not_mem_nil⟩

theorem readBeside {sha256 memoryId broken read} :
    Beside c (readStep sha256 memoryId broken read c).2.1 (readStep sha256 memoryId broken read c).2.2 := by
  cases read with
  | loading =>
    simp only [readStep]
    split
    · split <;> exact besideRefl
    · exact besideRefl
  | checking entry expected reading tokenSeen =>
    cases reading with
    | look next => exact besideRefl
    | done tokens =>
      simp only [readStep]
      split
      · refine ⟨sinceRefl _,rfl,rfl,rfl,fun _ _ _ member => ?_⟩
        cases List.mem_singleton.mp member
      · exact besideRefl
  | reading token tokenSeen reading =>
    cases reading with
    | look next =>
      simp only [readStep]
      split <;> exact besideRefl
    | done answer => rcases answer with error | (_ | row) <;> exact besideRefl
  | resolving token tokenSeen row reading =>
    cases reading with
    | look next => exact besideRefl
    | done answer => rcases answer with error | (_ | resolved) <;> exact besideRefl
  | accessing token tokenSeen row resolved =>
    exact ⟨commitSince,rfl,rfl,rfl,fun _ _ _ => List.not_mem_nil⟩
  | rereading token tokenSeen row reading =>
    cases reading with
    | look next => exact besideRefl
    | done answer => cases answer <;> exact besideRefl
  | tokening row payload reading tokenSeen => cases reading <;> exact besideRefl
  | storing row payload token tokenSeen =>
    refine ⟨sinceRefl _,rfl,rfl,rfl,fun _ _ _ member => ?_⟩
    cases List.mem_singleton.mp member
  | fallback error =>
    simp only [readStep]
    split <;> exact besideRefl
  | answered answer => exact besideRefl

theorem purgeKey (flight : Flight) : (purgeFlight flight).cacheKey = flight.cacheKey := rfl

/- A purge takes rows and searches in flight away, and marks the flights that it takes. -/
theorem purgedFlights {entries : List ((Nat × String) × Nat)} {flights : List Flight} :
    (∀ key flight, Flies flights key flight →
      Flies (entries.foldl (fun flights entry => flights.modify entry.2 purgeFlight) flights) key flight) ∧
    ∀ flight ∈ entries.foldl (fun flights entry => flights.modify entry.2 purgeFlight) flights,
      ∃ old ∈ flights, old.cacheKey = flight.cacheKey ∧ old.payload = flight.payload := by
  induction entries generalizing flights with
  | nil => exact ⟨fun _ _ flies => flies,fun flight member => ⟨flight,member,rfl,rfl⟩⟩
  | cons entry entries ih =>
    obtain ⟨flies,from_⟩ := @ih (flights.modify entry.2 purgeFlight)
    refine ⟨fun key flight old => flies key flight (modifiedFlies purgeKey old),fun flight member => ?_⟩
    obtain ⟨middle,there,key,payload⟩ := from_ flight member
    obtain ⟨n,found⟩ := List.mem_iff_getElem?.mp there
    rw [List.getElem?_modify] at found
    split at found
    · obtain ⟨old,before,changed⟩ := Option.map_eq_some_iff.mp found
      subst changed
      exact ⟨old,List.mem_of_getElem? before,key,payload⟩
    · exact ⟨middle,List.mem_of_getElem? (by simpa using found),key,payload⟩

theorem purgeHeld (process : Nat) (policyVersion featureFingerprint : Option String) (held : Held env good c trace) :
    Held env good (purgeSearchResponses process policyVersion featureFingerprint c) trace ∧
      Grows c (purgeSearchResponses process policyVersion featureFingerprint c) := by
  unfold purgeSearchResponses
  split
  · exact ⟨held,growsRefl⟩
  · rename_i given
    refine ⟨⟨fun row member => held.rows row (List.mem_filter.mp member).1,fun flight member results payload => ?_,
      fun entry member => purgedFlights.1 _ _ (held.inflight entry (List.mem_filter.mp member).1)⟩,
      sinceRefl _,fun _ _ => purgedFlights.1 _ _⟩
    obtain ⟨old,before,key,same⟩ := purgedFlights.2 flight member
    rw [← key]
    exact held.flights old before results (same ▸ payload)

/- What a call's step keeps, and what it is after it. -/
structure Kept (env : CacheEnv) (good : List Repository → SearchEpochs → Prop) (c : Shared) (trace : List Emitted)
    (next : Call × Shared × List Emitted) : Prop where
  held : Held env good next.2.1 (next.2.2 ++ trace)
  call : CallHeld env good next.2.1 (next.2.2 ++ trace) next.1
  grows : Grows c next.2.1
  served : ∀ manner search results, .served manner search results ∈ next.2.2 → Served env good trace manner search results

theorem besideKept {next : Call × Shared × List Emitted} (held : Held env good c trace) (beside : Beside c next.2.1 next.2.2)
    (call : CallHeld env good next.2.1 (next.2.2 ++ trace) next.1) : Kept env good c trace next := by
  refine ⟨?_,call,flightsGrow beside.since beside.flights,
    fun manner search results member => absurd member (beside.served manner search results)⟩
  refine heldAfter held (flightsGrow beside.since beside.flights) (fun row member => .inl ?_) (fun flight member => .inl ?_)
    fun entry member => .inl ?_
  · exact beside.searches ▸ member
  · exact beside.flights ▸ member
  · exact beside.inflight ▸ member

def CallCaptures (good : List Repository → SearchEpochs → Prop) (c : Shared) : Call → Prop
  | .search _ asked => Captures good c asked
  | _ => True

theorem stepKept {call} (held : Held env good c trace) (calling : CallHeld env good c trace call)
    (ok : CallCaptures good c call) : Kept env good c trace (step env call c) := by
  cases call with
  | search asking asked =>
    have stepped := askStepped held calling ok
    exact ⟨stepped.held,stepped.asked,stepped.grows,stepped.served⟩
  | read memoryId broken reader => exact besideKept held readBeside trivial
  | mutate writes => exact besideKept held ⟨commitSince,rfl,rfl,rfl,fun _ _ _ => List.not_mem_nil⟩ trivial
  | invalidate memoryIds =>
    exact ⟨⟨fun _ member => absurd member List.not_mem_nil,held.flights,held.inflight⟩,trivial,flightsGrow (sinceRefl _) rfl,
      fun _ _ _ member => absurd member List.not_mem_nil⟩
  | purge process policyVersion featureFingerprint =>
    have purged := purgeHeld process policyVersion featureFingerprint held
    exact ⟨purged.1,trivial,purged.2,fun _ _ _ member => absurd member List.not_mem_nil⟩
  | finished => exact besideKept held besideRefl trivial

structure Sound (env : CacheEnv) (good : List Repository → SearchEpochs → Prop) (w : World Call Shared Emitted) : Prop where
  held : Held env good w.store w.trace
  calls : ∀ call ∈ w.calls, CallHeld env good w.store w.trace call
  served : ∀ manner search results, .served manner search results ∈ w.trace → Served env good w.trace manner search results

/- Whenever a search captures the epochs, they and the states that it has read are good. -/
def Capturing (good : List Repository → SearchEpochs → Prop) (w : World Call Shared Emitted) : Event Op → Prop
  | .start _ => True
  | .advance index => ∀ call ∈ w.calls[index]?, CallCaptures good w.store call

section
variable [∀ seen epochs, Decidable (good seen epochs)]

instance (asked : Asked) : Decidable (Captures good c asked) := match asked with
  | .capturing _ _ seen => inferInstanceAs (Decidable (good seen (getSearchEpochs c.repository)))
  | .fetching _ | .comparing _ | .validating .. | .entering | .waiting _ | .searching .. | .tokening .. | .storing ..
  | .finishing .. | .failing .. | .falling .. | .answered _ => .isTrue trivial

instance (call : Call) : Decidable (CallCaptures good c call) := match call with
  | .search _ asked => inferInstanceAs (Decidable (Captures good c asked))
  | .read .. | .mutate _ | .invalidate _ | .purge .. | .finished => .isTrue trivial

instance (w : World Call Shared Emitted) (event : Event Op) : Decidable (Capturing good w event) := match event with
  | .start _ => .isTrue trivial
  | .advance index => inferInstanceAs (Decidable (∀ call ∈ w.calls[index]?, CallCaptures good w.store call))

end

theorem nextSound {w event} (ok : Capturing good w event) (sound : Sound env good w) :
    Sound env good ((cached env).next w event) := by
  cases event with
  | start op =>
    refine ⟨sound.held,fun call member => ?_,sound.served⟩
    rcases List.mem_append.mp member with old | new
    · exact sound.calls call old
    · cases List.mem_singleton.mp new
      cases op with
      | search asking => exact List.Subset.refl _
      | read | mutate | invalidate | purge => trivial
  | advance index =>
    cases found : w.calls[index]? with
    | none =>
      rw [nextIdle found]
      exact sound
    | some call =>
      rw [nextAdvance found]
      have kept := stepKept sound.held (sound.calls call (List.mem_of_getElem? found)) (ok call found)
      refine ⟨kept.held,fun other member => ?_,fun manner search results member => ?_⟩
      · rcases List.mem_or_eq_of_mem_set member with old | new
        · exact callGrows kept.grows (sound.calls other old)
        · exact new ▸ kept.call
      · rcases List.mem_append.mp member with new | old
        · exact servedMore (kept.served manner search results new)
        · exact servedMore (sound.served manner search results old)

def unused (repository : Repository) (reads : List ReadRow) : Shared := ⟨repository,[],reads,[],[]⟩

theorem runSound {repository reads events} (meets : Meets (cached env) (Capturing good) (idle (unused repository reads)) events) :
    Sound env good ((cached env).run (idle (unused repository reads)) events) :=
  runMeets (fun _ _ => nextSound) meets
    ⟨⟨fun _ member => absurd member List.not_mem_nil,fun _ member => absurd member List.not_mem_nil,
      fun _ member => absurd member List.not_mem_nil⟩,fun _ member => absurd member List.not_mem_nil,
      fun _ _ _ member => absurd member List.not_mem_nil⟩

/- Where nothing is asked of the epochs, every run will do. -/
theorem capturingAny {w event} : Capturing (fun _ _ => True) w event := by
  cases event with
  | start op => trivial
  | advance index =>
    intro call _
    cases call with
    | search asking asked => cases asked <;> trivial
    | read | mutate | invalidate | purge | finished => trivial

theorem runSoundAny {repository reads events} :
    Sound env (fun _ _ => True) ((cached env).run (idle (unused repository reads)) events) :=
  runSound (meetsAt.mpr fun _ _ _ => capturingAny)

end McpMemory.Cache
