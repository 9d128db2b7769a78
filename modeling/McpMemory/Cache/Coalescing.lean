import McpMemory.Cache.Provenance

/-! The searches in flight of `memory_use_cases.py`, with a step for everything that can raise once a
search leads: what begins and ends a flight is that of the shared cache. Clocks are whole seconds. -/
namespace McpMemory.Cache.Coalescing
open Interleave

/- What a leader does up to the end of its flight, in order. -/
inductive Step where
  | repairHealthBefore
  | authoritativeSearch
  | repairHealthAfter
  | touchLastSurfaced
  | resolveSearchEpochs
  | recordSearch
  | buildSearchResultPayloads
  | resolveValidationTokens
  | warmProjections
  | warmedMetric
  | storeResponse
  deriving DecidableEq, Repr

def Step.next : Step → Option Step
  | .repairHealthBefore => some .authoritativeSearch
  | .authoritativeSearch => some .repairHealthAfter
  | .repairHealthAfter => some .touchLastSurfaced
  | .touchLastSurfaced => some .resolveSearchEpochs
  | .resolveSearchEpochs => some .recordSearch
  | .recordSearch => some .buildSearchResultPayloads
  | .buildSearchResultPayloads => some .resolveValidationTokens
  | .resolveValidationTokens => some .warmProjections
  | .warmProjections => some .warmedMetric
  | .warmedMetric => some .storeResponse
  | .storeResponse => none

/- What these raise is logged, and the search goes on. -/
def Step.logged : Step → Bool
  | .resolveValidationTokens | .storeResponse => true
  | _ => false

/- A search: whether it is coalesced, the fresh answer it may find, what each step raises, what it finds,
and what is left to fall back on. -/
structure Searching where
  asking : Asking
  coalesced : Bool
  fresh : Option (List SearchResult)
  raises : Step → Option String
  found : List Found
  fallback : Option (List SearchResult)

/- A flight that is `none` is that of a search which is not coalesced, or which followed another. -/
inductive Stage where
  | starting
  | joining (flight : Nat)
  | waiting (flight : Nat) (since : Int)
  | timingOut (flight : Nat)
  | working (flight : Option Nat) (step : Step)
  | finishing (flight : Option Nat)
  | failing (flight : Option Nat) (error : String)
  | ended (flight : Option Nat) (crashed : Bool) (answer : Except String (List SearchResult))

structure Clocked where
  shared : Shared
  now : Int

/- A flight was taken out of the table by a follower that timed out, or by a purge. -/
inductive Emitted where
  | removed (flight : Nat)
  deriving DecidableEq, Repr

def removed (before after : Shared) : List Emitted :=
  (before.inflight.filter fun entry => !after.inflight.contains entry).map fun entry => .removed entry.2

def inflightSearchFollowerWaitTimeoutSeconds : Int := 1

variable (env : CacheEnv)

section
variable (s : Searching)

def slot : Nat × String := (s.asking.process,s.asking.key env)

/- The fallbacks to a cached answer and to the projections, or the error. -/
def fallBack (error : String) : Stage := .ended none false (match s.fallback with
  | some results => .ok results
  | none => .error error)

/- `_finish_inflight_search_coalescing` -/
def finish (flight : Option Nat) (payload : Option (List SearchResult)) (error : Option String) (c : Clocked) : Clocked :=
  match flight with
  | none => c
  | some flight => { c with shared := finishFlight env s.asking flight payload error c.shared }

def follow (flight : Flight) : Stage := match flight.payload,flight.error with
  | some results,_ => .ended none false (.ok results)
  | none,some error => fallBack s error
  | none,none => fallBack s noOutcome

def searchStep (stage : Stage) (c : Clocked) : Stage × Clocked × List Emitted := match stage with
  | .starting => match s.fresh with
    | some results => (.ended none false (.ok results),c,[])
    | none =>
      if s.coalesced then match c.shared.inflight.lookup (slot env s) with
        | some flight => (.joining flight,c,[])
        | none => (.working (some c.shared.flights.length) .repairHealthBefore,{ c with shared := beginFlight env s.asking c.shared },[])
      else (.working none .repairHealthBefore,c,[])
  | .joining flight => (.waiting flight c.now,c,[])
  | .waiting flight since => match c.shared.flights[flight]? with
    | none => (fallBack s noOutcome,c,[])
    | some state =>
      if state.completed then (follow s state,c,[])
      else if inflightSearchFollowerWaitTimeoutSeconds ≤ c.now - since then (.timingOut flight,c,[])
      else (.waiting flight since,c,[])
  | .timingOut flight =>
    if c.shared.flights[flight]?.any (!·.completed) then
      let after := dropFlight env s.asking flight c.shared
      (fallBack s timedOut,{ c with shared := after },removed c.shared after)
    else (fallBack s timedOut,c,[])
  | .working flight step =>
    let later : Stage := match step.next with
      | some next => .working flight next
      | none => .finishing flight
    match s.raises step with
    | none => (later,c,[])
    | some error =>
      if step = .authoritativeSearch then (.failing flight error,c,[])
      else if step.logged then (later,c,[])
      else (.ended flight true (.error error),c,[])
  | .finishing flight =>
    let results := s.found.map searchResultPayloadCompact
    (.ended flight false (.ok results),finish env s flight (some results) none c,[])
  | .failing flight error =>
    (.ended flight false (match s.fallback with
      | some results => .ok results
      | none => .error error),finish env s flight none (some error) c,[])
  | .ended flight crashed answer => (.ended flight crashed answer,c,[])

end

inductive Op where
  | search (s : Searching)
  | purge (process : Nat) (policyVersion featureFingerprint : Option String)
  | tick (seconds : Nat)

inductive Call where
  | search (s : Searching) (stage : Stage)
  | purge (process : Nat) (policyVersion featureFingerprint : Option String)
  | tick (seconds : Nat)
  | finished

def enter : Op → Call
  | .search s => .search s .starting
  | .purge process policyVersion featureFingerprint => .purge process policyVersion featureFingerprint
  | .tick seconds => .tick seconds

def step : Call → Clocked → Call × Clocked × List Emitted
  | .search s stage,c =>
    let after := searchStep env s stage c
    (.search s after.1,after.2)
  | .purge process policyVersion featureFingerprint,c =>
    let after := purgeSearchResponses process policyVersion featureFingerprint c.shared
    (.finished,{ c with shared := after },removed c.shared after)
  | .tick seconds,c => (.finished,{ c with now := c.now + seconds },[])
  | .finished,c => (.finished,c,[])

def coalescing : Machine Op Call Clocked Emitted := ⟨enter,step env⟩

/- The flight that a call leads or has led. -/
def Stage.flight : Stage → Option Nat
  | .working flight _ | .finishing flight | .failing flight _ | .ended flight _ _ => flight
  | _ => none

def Stage.leading : Stage → Bool
  | .working .. | .finishing _ | .failing .. => true
  | _ => false

/- It has returned or raised, and not because a step after its search raised. -/
def Stage.left : Stage → Bool
  | .ended _ crashed _ => !crashed
  | _ => false

/- The slot of the table that a search leads or has led, with its flight. -/
def Call.flown : Call → Option ((Nat × String) × Nat)
  | .search s stage => stage.flight.map (slot env s,·)
  | _ => none

def Call.leading : Call → Bool
  | .search _ stage => stage.leading
  | _ => false

def Call.left : Call → Bool
  | .search _ stage => stage.left
  | _ => false

def Call.ended : Call → Bool
  | .search _ (.ended ..) => true
  | _ => false

/- What the call at this place leads, and what it led if it has ended without a crash or at all. -/

def leads (w : World Call Clocked Emitted) (index : Nat) : Option ((Nat × String) × Nat) :=
  (w.calls[index]?.filter Call.leading).bind (·.flown env)

def hasLeft (w : World Call Clocked Emitted) (index : Nat) : Option ((Nat × String) × Nat) :=
  (w.calls[index]?.filter Call.left).bind (·.flown env)

def hasEnded (w : World Call Clocked Emitted) (index : Nat) : Option ((Nat × String) × Nat) :=
  (w.calls[index]?.filter Call.ended).bind (·.flown env)

/- No key leads to the flight, and whoever waits for it need not wait. -/
def Released (c : Shared) (flight : Nat) : Prop :=
  (∀ entry ∈ c.inflight, entry.2 ≠ flight) ∧ ∃ state, c.flights[flight]? = some state ∧ state.completed = true

/- A key has two leaders only after one's flight was removed, and a flight is released when its search leaves. -/
structure LiveSafe (w : World Call Clocked Emitted) : Prop where
  oneLeader : ∀ i j key f g, leads env w i = some (key,f) → leads env w j = some (key,g) → i ≠ j →
    .removed f ∈ w.trace ∨ .removed g ∈ w.trace
  released : ∀ i key flight, hasLeft env w i = some (key,flight) → Released w.store.shared flight

/- The same without regard to what removes a flight, and to what a search raises when it has its results. -/
structure AlwaysSafe (w : World Call Clocked Emitted) : Prop where
  oneLeader : ∀ i j key f g, leads env w i = some (key,f) → leads env w j = some (key,g) → i = j
  released : ∀ i key flight, hasEnded env w i = some (key,flight) → Released w.store.shared flight

/- A process that begins, with what others have left in the database of the cache. -/
def begin (repository : Repository) (searches : List SearchRow) (reads : List ReadRow) (now : Int) : Clocked :=
  ⟨⟨repository,searches,reads,[],[]⟩,now⟩

/- The table of the searches in flight. -/
structure Tidy (c : Shared) : Prop where
  keys : (c.inflight.map Prod.fst).Nodup
  bound : ∀ entry ∈ c.inflight, entry.2 < c.flights.length
  purged : ∀ flight ∈ c.flights, flight.purged = true → flight.completed = true

/- What holds of a flight as long as there is a call that leads or has led it. -/
structure Flying (c : Shared) (trace : List Emitted) (call : Call) (key : Nat × String) (flight : Nat) : Prop where
  bound : flight < c.flights.length
  own : ∀ entry ∈ c.inflight, entry.2 = flight → entry.1 = key
  held : call.leading = true → (key,flight) ∈ c.inflight ∨ .removed flight ∈ trace
  released : call.left = true → Released c flight

structure Sound (w : World Call Clocked Emitted) : Prop where
  tidy : Tidy w.store.shared
  flying : ∀ call ∈ w.calls, ∀ key flight, call.flown env = some (key,flight) → Flying w.store.shared w.trace call key flight
  apart : ∀ (i j : Nat) first second key other flight, w.calls[i]? = some first → w.calls[j]? = some second →
    first.flown env = some (key,flight) → second.flown env = some (other,flight) → i = j

/- How a step may change the table under the other calls: all but this flight is kept or recorded as removed. -/
structure Onward (c after : Shared) (emitted : List Emitted) (own : Option Nat) : Prop where
  length : c.flights.length ≤ after.flights.length
  completed : ∀ (n : Nat) (state : Flight), c.flights[n]? = some state → state.completed = true →
    ∃ later : Flight, after.flights[n]? = some later ∧ later.completed = true
  entries : ∀ entry ∈ after.inflight, entry ∈ c.inflight ∨ c.flights.length ≤ entry.2
  kept : ∀ entry ∈ c.inflight, entry ∈ after.inflight ∨ .removed entry.2 ∈ emitted ∨ own = some entry.2

section
variable {env : CacheEnv} {c after : Shared} {trace emitted : List Emitted} {own : Option Nat}

theorem onwardRefl : Onward c c [] own :=
  ⟨Nat.le_refl _,fun _ state found done => ⟨state,found,done⟩,fun _ member => .inl member,fun _ member => .inl member⟩

theorem onwardReleased (onward : Onward c after emitted own) {flight : Nat} (bound : flight < c.flights.length)
    (released : Released c flight) : Released after flight := by
  obtain ⟨state,found,done⟩ := released.2
  refine ⟨fun entry member same => ?_,onward.completed flight state found done⟩
  rcases onward.entries entry member with old | new
  · exact released.1 entry old same
  · omega

theorem onwardFlying (onward : Onward c after emitted own) {call : Call} {key : Nat × String} {flight : Nat}
    (apart : own ≠ some flight) (flying : Flying c trace call key flight) : Flying after (emitted ++ trace) call key flight where
  bound := Nat.lt_of_lt_of_le flying.bound onward.length
  own := fun entry member same => by
    rcases onward.entries entry member with old | new
    · exact flying.own entry old same
    · exact absurd flying.bound (by omega)
  held := fun leading => by
    rcases flying.held leading with here | gone
    · rcases onward.kept _ here with still | told | own
      · exact .inl still
      · exact .inr (List.mem_append_left _ told)
      · exact absurd own apart
    · exact .inr (List.mem_append_right _ gone)
  released := fun left => onwardReleased onward flying.bound (flying.released left)

theorem tidyBegins {asking : Asking} (absent : c.inflight.lookup (asking.process,asking.key env) = none) (tidy : Tidy c) :
    Tidy (beginFlight env asking c) where
  keys := by
    refine List.nodup_cons.mpr ⟨fun member => ?_,tidy.keys⟩
    obtain ⟨entry,listed,same⟩ := List.mem_map.mp member
    have found := Table.lookupDistinct tidy.keys listed
    rw [same,absent] at found
    cases found
  bound := fun entry member => by
    show entry.2 < (c.flights ++ [newFlight env asking]).length
    rw [List.length_append,List.length_singleton]
    rcases List.mem_cons.mp member with rfl | old
    · exact Nat.lt_succ_self _
    · exact Nat.lt_succ_of_lt (tidy.bound entry old)
  purged := fun flight member purged => by
    rcases List.mem_append.mp member with old | new
    · exact tidy.purged flight old purged
    · cases List.mem_singleton.mp new
      cases purged

theorem onwardBegins {asking : Asking} : Onward c (beginFlight env asking c) [] own where
  length := by
    show c.flights.length ≤ (c.flights ++ [newFlight env asking]).length
    rw [List.length_append]
    exact Nat.le_add_right _ _
  completed := fun n state found done => by
    have bound : n < c.flights.length := (List.getElem?_eq_some_iff.mp found).1
    exact ⟨state,(List.getElem?_append_left bound).trans found,done⟩
  entries := fun entry member => (List.mem_cons.mp member).symm.imp id fun new => by rw [new]
  kept := fun _ member => .inl (List.mem_cons_of_mem _ member)

theorem tidyDrops {asking : Asking} {flight : Nat} (tidy : Tidy c) : Tidy (dropFlight env asking flight c) := by
  unfold dropFlight
  split
  · exact ⟨tidy.keys.sublist (List.Sublist.map _ List.filter_sublist),fun entry member => tidy.bound entry (List.mem_filter.mp member).1,
      tidy.purged⟩
  · exact tidy

theorem removedKept : ∀ entry ∈ c.inflight, entry ∈ after.inflight ∨ .removed entry.2 ∈ removed c after := by
  intro entry member
  by_cases still : entry ∈ after.inflight
  · exact .inl still
  · exact .inr (List.mem_map.mpr ⟨entry,List.mem_filter.mpr ⟨member,by simp [still]⟩,rfl⟩)

theorem onwardDrops {asking : Asking} {flight : Nat} :
    Onward c (dropFlight env asking flight c) (removed c (dropFlight env asking flight c)) own := by
  obtain ⟨inflight,dropped,fewer⟩ := droppedRest env asking flight c
  refine ⟨?_,fun n state found done => ⟨state,?_,done⟩,fun entry member => .inl (fewer entry ?_),
    fun entry member => (removedKept entry member).imp_right .inl⟩
  · rw [dropped]
  · rw [dropped]
    exact found
  · rw [dropped] at member
    exact member

theorem completeDone {payload : Option (List SearchResult)} {error : Option String} {flight : Flight}
    (purged : flight.purged = true → flight.completed = true) : (complete payload error flight).completed = true := by
  unfold complete
  split
  · rename_i gone
    exact purged gone
  · rfl

section
variable {asking : Asking} {flight : Nat} {payload : Option (List SearchResult)} {error : Option String}

theorem modifiedDone (tidy : Tidy c) {state : Flight} (found : c.flights[flight]? = some state) :
    ∃ later : Flight, (c.flights.modify flight (complete payload error))[flight]? = some later ∧ later.completed = true := by
  refine ⟨complete payload error state,?_,completeDone (tidy.purged state (List.mem_of_getElem? found))⟩
  rw [List.getElem?_modify_eq,found]
  rfl

theorem tidyFinishes (tidy : Tidy c) : Tidy (finishFlight env asking flight payload error c) := by
  refine tidyDrops ⟨tidy.keys,fun entry member => ?_,fun state member purged => ?_⟩
  · rw [List.length_modify]
    exact tidy.bound entry member
  · obtain ⟨n,there⟩ := List.mem_iff_getElem?.mp member
    rw [List.getElem?_modify] at there
    split at there
    · obtain ⟨old,found,rfl⟩ := Option.map_eq_some_iff.mp there
      exact completeDone (tidy.purged old (List.mem_of_getElem? found))
    · exact tidy.purged state (List.mem_of_getElem? (by simpa using there)) purged

theorem onwardFinishes (tidy : Tidy c) : Onward c (finishFlight env asking flight payload error c) [] (some flight) := by
  have own {entry : (Nat × String) × Nat} (member : entry ∈ c.inflight) :
      entry ∈ (finishFlight env asking flight payload error c).inflight ∨ .removed entry.2 ∈ ([] : List Emitted) ∨
        some flight = some entry.2 := by
    unfold finishFlight dropFlight
    split
    · rename_i current
      have found : c.inflight.lookup (asking.process,asking.key env) = some flight := beq_iff_eq.mp current
      by_cases same : entry.1 = (asking.process,asking.key env)
      · have here := Table.lookupDistinct tidy.keys member
        rw [same,found] at here
        exact .inr (.inr here)
      · exact .inl (List.mem_filter.mpr ⟨member,by simpa using same⟩)
    · exact .inl member
  obtain ⟨inflight,dropped,fewer⟩ := droppedRest env asking flight
    { c with flights := c.flights.modify flight (complete payload error) }
  refine ⟨?_,fun n state found done => ?_,fun entry member => .inl (fewer entry ?_),fun _ => own⟩
  · rw [finishFlight,dropped]
    show c.flights.length ≤ (c.flights.modify flight (complete payload error)).length
    rw [List.length_modify]
  · rw [finishFlight,dropped]
    by_cases same : flight = n
    · subst same
      exact modifiedDone tidy found
    · refine ⟨state,?_,done⟩
      show (c.flights.modify flight (complete payload error))[n]? = some state
      rw [List.getElem?_modify_ne _ _ same,found]
  · rw [finishFlight,dropped] at member
    exact member

/- The one who leads a flight releases it with its end. -/
theorem finishesReleased (tidy : Tidy c) (bound : flight < c.flights.length)
    (own : ∀ entry ∈ c.inflight, entry.2 = flight → entry.1 = (asking.process,asking.key env)) :
    Released (finishFlight env asking flight payload error c) flight := by
  obtain ⟨inflight,dropped,fewer⟩ := droppedRest env asking flight
    { c with flights := c.flights.modify flight (complete payload error) }
  constructor
  · intro entry member same
    have old : entry ∈ c.inflight := by
      rw [finishFlight,dropped] at member
      exact fewer entry member
    have key := own entry old same
    have found := Table.lookupDistinct tidy.keys old
    rw [key,same] at found
    have current : isCurrent env asking flight { c with flights := c.flights.modify flight (complete payload error) } = true :=
      beq_iff_eq.mpr found
    rw [finishFlight,dropFlight,if_pos current] at member
    have apart := (List.mem_filter.mp member).2
    simp [key] at apart
  · rw [finishFlight,dropped]
    exact modifiedDone tidy (List.getElem?_eq_getElem bound)

end

/- A purge marks flights as completed and takes entries away. -/
theorem purgedMarked {entries : List ((Nat × String) × Nat)} {flights : List Flight} :
    (entries.foldl (fun flights entry => flights.modify entry.2 purgeFlight) flights).length = flights.length ∧
      ∀ (n : Nat) (state : Flight), flights[n]? = some state → ∃ later,
        (entries.foldl (fun flights entry => flights.modify entry.2 purgeFlight) flights)[n]? = some later ∧
          (later = state ∨ later.completed = true) := by
  induction entries generalizing flights with
  | nil => exact ⟨rfl,fun _ state found => ⟨state,found,.inl rfl⟩⟩
  | cons entry rest ih =>
    obtain ⟨length,marked⟩ := @ih (flights.modify entry.2 purgeFlight)
    refine ⟨length.trans (List.length_modify _ _ _),fun n state found => ?_⟩
    by_cases same : entry.2 = n
    · obtain ⟨later,there,changed⟩ := marked n (purgeFlight state) (by rw [same,List.getElem?_modify_eq,found]; rfl)
      exact ⟨later,there,.inr (changed.elim (fun same => same ▸ rfl) id)⟩
    · exact marked n state (by rw [List.getElem?_modify_ne _ _ same,found])

section
variable {process : Nat} {policyVersion featureFingerprint : Option String}

theorem tidyPurges (tidy : Tidy c) : Tidy (purgeSearchResponses process policyVersion featureFingerprint c) := by
  unfold purgeSearchResponses
  split
  · exact tidy
  · refine ⟨tidy.keys.sublist (List.Sublist.map _ List.filter_sublist),fun entry member => ?_,fun state member purged => ?_⟩
    · show entry.2 < (List.foldl _ c.flights _).length
      rw [purgedMarked.1]
      exact tidy.bound entry (List.mem_filter.mp member).1
    · obtain ⟨n,there⟩ := List.mem_iff_getElem?.mp member
      have bound : n < c.flights.length := by
        rw [← purgedMarked.1]
        exact (List.getElem?_eq_some_iff.mp there).1
      obtain ⟨later,found,changed⟩ := purgedMarked.2 n _ (List.getElem?_eq_getElem bound)
      cases Option.some.inj (found.symm.trans there)
      rcases changed with same | done
      · exact tidy.purged state (same ▸ List.getElem_mem bound) purged
      · exact done

theorem onwardPurges : Onward c (purgeSearchResponses process policyVersion featureFingerprint c)
    (removed c (purgeSearchResponses process policyVersion featureFingerprint c)) own := by
  refine ⟨?_,?_,?_,fun entry member => (removedKept entry member).imp_right .inl⟩
  · unfold purgeSearchResponses
    split
    · exact Nat.le_refl _
    · exact Nat.le_of_eq purgedMarked.1.symm
  · intro n state found done
    unfold purgeSearchResponses
    split
    · exact ⟨state,found,done⟩
    · obtain ⟨later,there,changed⟩ := purgedMarked.2 n state found
      exact ⟨later,there,changed.elim (fun same => same ▸ done) id⟩
  · intro entry member
    unfold purgeSearchResponses at member
    split at member
    · exact .inl member
    · exact .inl (List.mem_filter.mp member).1

end

end

/- What the step of a call leaves: the call itself, and what the others rest on. -/
structure Stepped (env : CacheEnv) (c : Clocked) (trace : List Emitted) (call : Call) (next : Call × Clocked × List Emitted) : Prop where
  tidy : Tidy next.2.1.shared
  onward : ∃ own, Onward c.shared next.2.1.shared next.2.2 own ∧ ∀ flight, own = some flight → ∃ key, call.flown env = some (key,flight)
  flying : ∀ key flight, next.1.flown env = some (key,flight) → Flying next.2.1.shared (next.2.2 ++ trace) next.1 key flight
  flown : ∀ key flight, next.1.flown env = some (key,flight) → call.flown env = some (key,flight) ∨ c.shared.flights.length ≤ flight

section
variable {env : CacheEnv} {c : Clocked} {trace : List Emitted} {call : Call}

/- The call moves on and the table stays as it is. -/
theorem staysStepped (tidy : Tidy c.shared) {next : Call} {now : Int} (flying : ∀ key flight, call.flown env = some (key,flight) → Flying c.shared trace call key flight)
    (flown : ∀ key flight, next.flown env = some (key,flight) → call.flown env = some (key,flight))
    (leading : next.leading = true → call.leading = true) (left : next.left = true → call.left = true ∨ next.flown env = none) :
    Stepped env c trace call (next,{ c with now := now },[]) where
  tidy := tidy
  onward := ⟨none,onwardRefl,nofun⟩
  flying := fun key flight led => by
    have old := flying key flight (flown key flight led)
    refine ⟨old.bound,old.own,fun leads => old.held (leading leads),fun gone => ?_⟩
    rcases left gone with before | none
    · exact old.released before
    · rw [none] at led
      cases led
  flown := fun key flight led => .inl (flown key flight led)

/- A step that leaves the call with no flight. -/
theorem besideStepped {next : Call} {shared : Shared} {emitted : List Emitted} (after : Tidy shared)
    (onward : Onward c.shared shared emitted none) (flown : next.flown env = none) :
    Stepped env c trace call (next,{ c with shared := shared },emitted) where
  tidy := after
  onward := ⟨none,onward,nofun⟩
  flying := fun key flight led => by
    rw [flown] at led
    cases led
  flown := fun key flight led => by
    rw [flown] at led
    cases led

theorem finishStepped (tidy : Tidy c.shared) {s : Searching} {stage : Stage} {flight : Option Nat} {payload : Option (List SearchResult)} {error : Option String}
    {answer : Except String (List SearchResult)} (leads : stage.flight = flight)
    (flying : ∀ key flight, (Call.search s stage).flown env = some (key,flight) → Flying c.shared trace (.search s stage) key flight) :
    Stepped env c trace (.search s stage) (.search s (.ended flight false answer),finish env s flight payload error c,[]) := by
  cases flight with
  | none => exact besideStepped tidy onwardRefl rfl
  | some flight =>
    have own : (Call.search s stage).flown env = some (slot env s,flight) := by
      rw [Call.flown,leads]
      rfl
    have flies := flying _ _ own
    refine ⟨tidyFinishes tidy,⟨some flight,onwardFinishes tidy,fun _ same => ⟨_,Option.some.inj same ▸ own⟩⟩,fun key other led => ?_,
      fun key other led => ?_⟩
    · cases led
      have onward := @onwardFinishes env c.shared s.asking flight payload error tidy
      refine ⟨Nat.lt_of_lt_of_le flies.bound onward.length,fun entry member same => ?_,nofun,fun _ => ?_⟩
      · rcases onward.entries entry member with old | new
        · exact flies.own entry old same
        · exact absurd flies.bound (by omega)
      · exact finishesReleased tidy flies.bound flies.own
    · cases led
      exact .inl own

theorem beginsStepped (tidy : Tidy c.shared) {s : Searching} (absent : c.shared.inflight.lookup (slot env s) = none) :
    Stepped env c trace (.search s .starting) (.search s (.working (some c.shared.flights.length) .repairHealthBefore),
      { c with shared := beginFlight env s.asking c.shared },[]) := by
  refine ⟨tidyBegins absent tidy,⟨none,onwardBegins,nofun⟩,fun key flight led => ?_,fun key flight led => ?_⟩
  · cases led
    refine ⟨?_,fun entry member same => ?_,fun _ => .inl List.mem_cons_self,nofun⟩
    · show c.shared.flights.length < (c.shared.flights ++ [newFlight env s.asking]).length
      rw [List.length_append]
      exact Nat.lt_succ_self _
    · rcases List.mem_cons.mp member with rfl | old
      · rfl
      · exact absurd (tidy.bound entry old) (by omega)
  · cases led
    exact .inr (Nat.le_refl _)

theorem followed {s : Searching} {state : Flight} : (Call.search s (follow s state)).flown env = none := by
  unfold follow
  split <;> rfl

theorem searchStepped (tidy : Tidy c.shared) {s : Searching} {stage : Stage}
    (flying : ∀ key flight, (Call.search s stage).flown env = some (key,flight) → Flying c.shared trace (.search s stage) key flight) :
    Stepped env c trace (.search s stage) (.search s (searchStep env s stage c).1,(searchStep env s stage c).2) := by
  cases stage with
  | starting =>
    simp only [searchStep]
    cases s.fresh with
    | some results => exact besideStepped tidy onwardRefl rfl
    | none => cases s.coalesced with
      | false => exact besideStepped tidy onwardRefl rfl
      | true =>
        cases found : c.shared.inflight.lookup (slot env s) with
        | some flight => exact besideStepped tidy onwardRefl rfl
        | none => exact beginsStepped tidy found
  | joining flight => exact besideStepped tidy onwardRefl rfl
  | waiting flight since =>
    simp only [searchStep]
    cases c.shared.flights[flight]? with
    | none => exact besideStepped tidy onwardRefl rfl
    | some state =>
      simp only
      split
      · exact besideStepped tidy onwardRefl followed
      · split
        · exact besideStepped tidy onwardRefl rfl
        · exact besideStepped tidy onwardRefl rfl
  | timingOut flight =>
    simp only [searchStep]
    split
    · exact besideStepped (tidyDrops tidy) onwardDrops rfl
    · exact besideStepped tidy onwardRefl rfl
  | working flight step =>
    have later : Stepped env c trace (.search s (.working flight step)) (.search s (match step.next with
        | some next => .working flight next
        | none => .finishing flight),c,[]) := by
      cases step.next with
      | none => exact staysStepped tidy flying (fun _ _ led => led) (fun _ => rfl) nofun
      | some next => exact staysStepped tidy flying (fun _ _ led => led) (fun _ => rfl) nofun
    simp only [searchStep]
    cases s.raises step with
    | none => exact later
    | some error =>
      simp only
      split
      · exact staysStepped tidy flying (fun _ _ led => led) (fun _ => rfl) nofun
      · split
        · exact later
        · exact staysStepped tidy flying (fun _ _ led => led) nofun nofun
  | finishing flight => exact finishStepped tidy rfl flying
  | failing flight error => exact finishStepped tidy rfl flying
  | ended flight crashed answer => exact staysStepped tidy flying (fun _ _ led => led) nofun fun left => .inl left

theorem callStepped (tidy : Tidy c.shared)
    (flying : ∀ key flight, call.flown env = some (key,flight) → Flying c.shared trace call key flight) :
    Stepped env c trace call (step env call c) := by
  cases call with
  | search s stage => exact searchStepped tidy flying
  | purge process policyVersion featureFingerprint => exact besideStepped (tidyPurges tidy) onwardPurges rfl
  | tick seconds => exact staysStepped tidy flying nofun nofun nofun
  | finished => exact besideStepped tidy onwardRefl rfl

theorem soundStart {w : World Call Clocked Emitted} (op : Op) (sound : Sound env w) :
    Sound env { w with calls := w.calls ++ [enter op] } := by
  have fresh : (enter op).flown env = none := by
    cases op <;> rfl
  have old {i : Nat} {call : Call} {led : (Nat × String) × Nat} (found : (w.calls ++ [enter op])[i]? = some call)
      (flown : call.flown env = some led) : w.calls[i]? = some call := by
    rcases Nat.lt_or_ge i w.calls.length with before | beyond
    · rwa [List.getElem?_append_left before] at found
    · have last := List.mem_of_getElem? ((List.getElem?_append_right beyond).symm.trans found)
      rw [List.mem_singleton.mp last,fresh] at flown
      cases flown
  refine ⟨sound.tidy,fun call member key flight led => ?_,fun i j first second key other flight here there left right => ?_⟩
  · rcases List.mem_append.mp member with known | new
    · exact sound.flying call known key flight led
    · rw [List.mem_singleton.mp new,fresh] at led
      cases led
  · exact sound.apart i j first second key other flight (old here left) (old there right) left right

theorem soundAdvance {w : World Call Clocked Emitted} {index : Nat} {call : Call} (found : w.calls[index]? = some call)
    (sound : Sound env w) : Sound env ⟨(step env call w.store).2.1,w.calls.set index (step env call w.store).1,
      (step env call w.store).2.2 ++ w.trace⟩ := by
  have listed : call ∈ w.calls := List.mem_of_getElem? found
  have stepped := callStepped sound.tidy (sound.flying call listed)
  obtain ⟨own,onward,ours⟩ := stepped.onward
  have bound : index < w.calls.length := (List.getElem?_eq_some_iff.mp found).1
  -- A call of the new world is the one that stepped or stands where it stood.
  have which {i : Nat} {other : Call} (there : (w.calls.set index (step env call w.store).1)[i]? = some other) :
      i = index ∧ other = (step env call w.store).1 ∨ i ≠ index ∧ w.calls[i]? = some other := by
    by_cases same : i = index
    · subst same
      rw [List.getElem?_set_self bound] at there
      exact .inl ⟨rfl,(Option.some.inj there).symm⟩
    · rw [List.getElem?_set_ne (Ne.symm same)] at there
      exact .inr ⟨same,there⟩
  have elsewhere {i : Nat} {other : Call} {key : Nat × String} {flight : Nat} (there : w.calls[i]? = some other) (apart : i ≠ index)
      (led : other.flown env = some (key,flight)) (still : Nat × String) : call.flown env ≠ some (still,flight) :=
    fun same => apart (sound.apart i index other call key still flight there found led same)
  refine ⟨stepped.tidy,fun other member key flight led => ?_,fun i j first second key other flight here there left right => ?_⟩
  · obtain ⟨i,there⟩ := List.mem_iff_getElem?.mp member
    rcases which there with ⟨_,rfl⟩ | ⟨apart,before⟩
    · exact stepped.flying key flight led
    · refine onwardFlying onward (fun same => ?_) (sound.flying other (List.mem_of_getElem? before) key flight led)
      obtain ⟨still,flown⟩ := ours flight same
      exact elsewhere before apart led still flown
  · rcases which here with ⟨first_,rfl⟩ | ⟨apart,before⟩
    · rcases which there with ⟨second_,rfl⟩ | ⟨beyond,after⟩
      · rw [first_,second_]
      · rcases stepped.flown key flight left with flown | new
        · exact absurd flown (elsewhere after beyond right key)
        · exact absurd (sound.flying second (List.mem_of_getElem? after) other flight right).bound (by omega)
    · rcases which there with ⟨_,rfl⟩ | ⟨beyond,after⟩
      · rcases stepped.flown other flight right with flown | new
        · exact absurd flown (elsewhere before apart left other)
        · exact absurd (sound.flying first (List.mem_of_getElem? before) key flight left).bound (by omega)
      · exact sound.apart i j first second key other flight before after left right

theorem runSound (repository : Repository) (searches : List SearchRow) (reads : List ReadRow) (now : Int) (events : List (Event Op)) :
    Sound env ((coalescing env).run (idle (begin repository searches reads now)) events) := by
  have kept : Preserved (coalescing env) (Sound env) :=
    ⟨fun _ op sound => soundStart op sound,fun _ _ _ found sound => soundAdvance found sound⟩
  refine runPreserved kept events ⟨⟨List.nodup_nil,?_,?_⟩,fun _ member => absurd member List.not_mem_nil,?_⟩
  · exact fun _ member => absurd member List.not_mem_nil
  · exact fun _ member => absurd member List.not_mem_nil
  · intro i j first second key other flight here
    cases here

theorem placed {w : World Call Clocked Emitted} {which : Call → Bool} {index : Nat} {led : (Nat × String) × Nat}
    (found : (w.calls[index]?.filter which).bind (·.flown env) = some led) :
    ∃ call, w.calls[index]? = some call ∧ which call = true ∧ call.flown env = some led := by
  obtain ⟨call,filtered,flown⟩ := Option.bind_eq_some_iff.mp found
  obtain ⟨here,matched⟩ := Option.filter_eq_some_iff.mp filtered
  exact ⟨call,here,matched,flown⟩

end

/- In every run each key has one leader but for flights that a follower's timeout or a purge has removed, and a search
that leaves with its result, with the error of its search or with a fallback has released its flight. -/
theorem coalescingLiveSafe (repository : Repository) (searches : List SearchRow) (reads : List ReadRow) (now : Int)
    (events : List (Event Op)) : LiveSafe env ((coalescing env).run (idle (begin repository searches reads now)) events) := by
  have sound := @runSound env repository searches reads now events
  constructor
  · intro i j key f g left right apart
    obtain ⟨first,here,firstLeads,firstFlown⟩ := placed left
    obtain ⟨second,there,secondLeads,secondFlown⟩ := placed right
    rcases (sound.flying first (List.mem_of_getElem? here) key f firstFlown).held firstLeads with own | gone
    · rcases (sound.flying second (List.mem_of_getElem? there) key g secondFlown).held secondLeads with other | gone
      · have same : f = g := Option.some.inj
          ((Table.lookupDistinct sound.tidy.keys own).symm.trans (Table.lookupDistinct sound.tidy.keys other))
        subst same
        exact absurd (sound.apart i j first second key key f here there firstFlown secondFlown) apart
      · exact .inr gone
    · exact .inl gone
  · intro i key flight gone
    obtain ⟨call,here,left,flown⟩ := placed gone
    exact (sound.flying call (List.mem_of_getElem? here) key flight flown).released left

/- A leader that works for longer than another waits for it, and one whose telemetry raises. -/

def searching (raises : Step → Option String) : Searching :=
  ⟨⟨⟨"anything",none,10,true,none,none,[],false,.hybrid,none,none⟩,1,0,0⟩,true,none,raises,[],none⟩

def calmSearch : Op := .search (searching fun _ => none)

def lockedTelemetry : Op := .search (searching fun step => if step = .recordSearch then some "database is locked" else none)

def anyEnv : CacheEnv := ⟨id,fun _ => .done (.ok [])⟩

def fromNothing : World Call Clocked Emitted := idle (begin ⟨⟨fun _ => [],fun _ => 0⟩,[]⟩ [] [] 0)

def slowLeader : List (Event Op) :=
  [.start calmSearch,.advance 0,.start calmSearch,.advance 1,.advance 1,.start (.tick 1),.advance 2,.advance 1,.advance 1,
    .start calmSearch,.advance 3]

def crashedLeader : List (Event Op) := [.start lockedTelemetry] ++ List.replicate 7 (.advance 0)

theorem leadersLost : ¬ AlwaysSafe anyEnv ((coalescing anyEnv).run fromNothing slowLeader) ∧
    ¬ AlwaysSafe anyEnv ((coalescing anyEnv).run fromNothing crashedLeader) := by
  constructor
  · intro safe
    have first : leads anyEnv ((coalescing anyEnv).run fromNothing slowLeader) 0 = some (slot anyEnv (searching fun _ => none),0) := by
      decide +kernel
    have second : leads anyEnv ((coalescing anyEnv).run fromNothing slowLeader) 3 = some (slot anyEnv (searching fun _ => none),1) := by
      decide +kernel
    exact absurd (safe.oneLeader 0 3 _ 0 1 first second) (by decide)
  · intro safe
    have ended : hasEnded anyEnv ((coalescing anyEnv).run fromNothing crashedLeader) 0 = some (slot anyEnv (searching fun _ => none),0) := by
      decide +kernel
    have listed : ((coalescing anyEnv).run fromNothing crashedLeader).store.shared.inflight =
        [(slot anyEnv (searching fun _ => none),0)] := by decide +kernel
    exact (safe.released 0 _ 0 ended).1 _ (listed ▸ List.mem_cons_self) rfl

end McpMemory.Cache.Coalescing
