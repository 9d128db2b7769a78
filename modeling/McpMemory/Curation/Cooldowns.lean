import McpMemory.Curation.Candidates
import McpMemory.Lib.Transaction
import McpMemory.Memory.Identity

/-! The cooldowns of the curator's candidates, over runs in which nothing comes between the steps of a
call: `filter_curator_candidates` and `record_curator_no_op_dispositions` of `curator_support.py` and
`_escalate_quality_regression` of `curation_quality.py`. A pass reads its candidates from the store
just before; a no-op is recorded for records that were sampled some time ago. -/
namespace McpMemory.Curation.Cooldowns
open Memory Candidates

variable (env : Canonical.Env)

/- `UUID(text)` as text, with none for the errors. -/
variable (uuid : String → Option String)

def candidateEdges (memoryId : String) (t : Tables) : List MemoryLink :=
  t.links.filter (·.sourceId == memoryId) ++ t.links.filter (·.targetId == memoryId)

def candidateRevisionToken (recordRevisionToken graphRevisionToken : String) : Except String String :=
  Canonical.stableHash env (.obj [("record_revision_token",.str recordRevisionToken),
    ("graph_revision_token",.str graphRevisionToken)])

def curatorCandidateRevisionToken (t : Tables) (record : MemoryRecord) : Except String String := do
  candidateRevisionToken env (← recordToken env record) (← graphToken env record.id (candidateEdges record.id t))

/- A pass, with what `_has_recent_stabilizing_edit` says at its time. -/
structure Pass where
  memoryIds : List String
  now : Int
  suppressDestructiveActions : Bool
  preserveMemoryIds : List String
  allowQualityFeedback : Bool
  hasRecentStabilizingEdit : String → Bool

/- A state whose token is another than the memory's is replaced; who loses against another write
takes what that left. -/
def observed (identity memoryId : String) (states : States) : Except String (Option CandidateState × States) :=
  match states.rows memoryId with
  | none => .ok (none,states)
  | some state => if state.lastObservedRevisionToken = some identity then .ok (some state,states) else
    match compareAndSetCandidateState memoryId state.lastObservedRevisionToken (revised identity state) states with
    | .error error => .error error
    | .ok (some persisted,after) => .ok (some persisted,after)
    | .ok (none,after) => .ok (after.rows memoryId,after)

def isCooling (pass : Pass) (state : CandidateState) : Bool :=
  state.cooldownUntil.any (pass.now < ·) && !(pass.allowQualityFeedback && isQualityFeedback state)

def isEligible (pass : Pass) (record : MemoryRecord) (memoryId : String) (state : Option CandidateState) : Bool :=
  pass.preserveMemoryIds.contains record.id ||
    !state.any (isCooling pass) && !(pass.suppressDestructiveActions && pass.hasRecentStabilizingEdit memoryId)

def filterCandidate (t : Tables) (pass : Pass) (record : MemoryRecord) (states : States) : Except String (Bool × States) :=
  match uuid record.id with
  | none => .ok (true,states)
  | some memoryId => do
    let identity ← curatorCandidateRevisionToken env t record
    let (state,after) ← observed identity memoryId states
    .ok (isEligible pass record memoryId state,after)

/- The pool, or what was raised; either way with the states as they were written by then. -/
def filterCuratorCandidates (t : Tables) (pass : Pass) :
    List MemoryRecord → States → Except String (List MemoryRecord) × States
  | [],states => (.ok [],states)
  | record::rest,states => match filterCandidate env uuid t pass record states with
    | .error error => (.error error,states)
    | .ok (eligible,after) =>
      let filtered := filterCuratorCandidates t pass rest after
      (filtered.1.map fun pool => if eligible then record::pool else pool,filtered.2)

structure World where
  tables : Tables
  states : States

/- What happens, one candidate at a time where a call goes through several. -/
inductive Event where
  | change (tables : Tables)
  | noOp (record : MemoryRecord) (now : Int)
  | escalate (run : CurationRun) (evidence : QualityEvidence) (mutation : QualityMutation) (memoryId : String) (now : Int)
  | filter (pass : Pass)

/- What a disposition is to write, and under which key. -/
def disposition (w : World) : Event → Option (String × CandidateState)
  | .noOp record now => do
    let memoryId ← uuid record.id
    let identity ← (curatorCandidateRevisionToken env w.tables record).toOption
    let state ← noOpDisposition identity memoryId now (w.states.rows memoryId)
    some (memoryId,state)
  | .escalate run evidence mutation memoryId now => (escalationReason evidence mutation).map fun reason =>
    (memoryId,escalated run evidence reason memoryId now (w.states.rows memoryId))
  | _ => none

def dispose (w : World) (event : Event) : Except String (Option CandidateState × States) :=
  match disposition env uuid w event with
  | none => .ok (none,w.states)
  | some (memoryId,state) =>
    compareAndSetCandidateState memoryId (tokenOf (w.states.rows memoryId)) state w.states

def candidates (pass : Pass) (t : Tables) : List MemoryRecord := pass.memoryIds.filterMap (recordById · t)

def filtered (w : World) (pass : Pass) : Except String (List MemoryRecord) × States :=
  filterCuratorCandidates env uuid w.tables pass (candidates pass w.tables) w.states

def next (w : World) : Event → World
  | .change tables => { w with tables := tables }
  | .filter pass => { w with states := (filtered env uuid w pass).2 }
  | event => match dispose env uuid w event with
    | .ok (_,after) => { w with states := after }
    | .error _ => w

/- The world after the first `n` events. -/
def worldAt (w : World) (events : List Event) (n : Nat) : World := (events.take n).foldl (next env uuid) w

/- The token of a memory as it is. -/
def tokenAt (t : Tables) (memoryId : String) : Option String :=
  (recordById memoryId t).bind fun record => (curatorCandidateRevisionToken env t record).toOption

structure Unchanged (before after : Tables) (memoryId : String) : Prop where
  record : recordById memoryId after = recordById memoryId before
  edges : candidateEdges memoryId after = candidateEdges memoryId before

/- The event puts the candidate in a cooldown. -/
def Cools (w : World) (event : Event) (memoryId : String) (ends : Int) : Prop := ∃ state after,
  dispose env uuid w event = .ok (some state,after) ∧ state.memoryId = memoryId ∧ state.cooldownUntil = some ends

def Cooling (w : World) (memoryId : String) (ends : Int) : Prop := ∃ state later,
  w.states.rows memoryId = some state ∧ state.cooldownUntil = some later ∧ ends ≤ later

/- In which of its pools a candidate in cooldown may be. -/
def Excepted (w : World) (pass : Pass) (memoryId : String) : Prop := memoryId ∈ pass.preserveMemoryIds ∨
  pass.allowQualityFeedback = true ∧ ∃ state, w.states.rows memoryId = some state ∧ isQualityFeedback state = true

/- What a pass does with a candidate whose cooldown is not over. -/
structure Respects (w : World) (pass : Pass) (memoryId : String) (ends : Int) : Prop where
  kept : Cooling (next env uuid w (.filter pass)) memoryId ends
  leftOut : ∀ pool, (filtered env uuid w pass).1 = .ok pool → pass.now < ends →
    (∃ record ∈ pool, uuid record.id = some memoryId) → Excepted w pass memoryId

/- Every pass of the run, as long as the memory is as it was at its disposition. -/
def CooldownsLast (w : World) (events : List Event) : Prop := ∀ n event memoryId ends, events[n]? = some event →
  Cools env uuid (worldAt env uuid w events n) event memoryId ends → ∀ m pass, n < m → events[m]? = some (.filter pass) →
    (∀ k, n ≤ k → k ≤ m →
      Unchanged (worldAt env uuid w events n).tables (worldAt env uuid w events k).tables memoryId) →
    Respects env uuid (worldAt env uuid w events m) pass memoryId ends

/- When it does. -/

/- An id that is a UUID at all is one in the form that the states are kept under. -/
def Own (t : Tables) : Prop := ∀ row ∈ t.memories, uuid row.id = none ∨ uuid row.id = some row.id

def NotEarlier (previous : Option CandidateState) (ends : Int) : Prop :=
  ∀ state ∈ previous, ∀ other ∈ state.cooldownUntil, other ≤ ends

def isSkipped (identity : String) (previous : Option CandidateState) : Bool :=
  previous.any fun state => state.lastObservedRevisionToken != some identity || isQualityFeedback state

def noOpCooldown (previous : Option CandidateState) : Int := min noOpCooldownMax (noOpCooldownBase *
  Int.ofNat (Nat.pow 2 (min ((previous.map (·.consecutiveNoOpCount + 1)).getD 1 - 1) 10)))

/- A disposition is recorded over the memory as it is, and ends no cooldown that is there before its time. -/
def Lasting (w : World) : Event → Prop
  | .change tables => Own uuid tables
  | .noOp record now => ∀ memoryId identity, uuid record.id = some memoryId →
    curatorCandidateRevisionToken env w.tables record = .ok identity →
    isSkipped identity (w.states.rows memoryId) = false →
      NotEarlier (w.states.rows memoryId) (now + noOpCooldown (w.states.rows memoryId)) ∧
      ∀ token, tokenAt env w.tables memoryId = some token → token = identity
  | .escalate _ evidence mutation memoryId now => (escalationReason evidence mutation).isSome = true →
    NotEarlier (w.states.rows memoryId) (now + qualityRegressionCooldown) ∧
    ∀ token, tokenAt env w.tables memoryId = some token → tokenOf (w.states.rows memoryId) = some token
  | .filter _ => True

def AllLasting (w : World) (events : List Event) : Prop :=
  ∀ n event, events[n]? = some event → Lasting env uuid (worldAt env uuid w events n) event

variable {env uuid}
variable {w : World} {event : Event} {memoryId : String} {ends : Int}

theorem recordNamed {t : Tables} {record : MemoryRecord} (found : recordById memoryId t = some record) :
    record.id = memoryId ∧ ∃ row ∈ t.memories, row.id = memoryId := by
  obtain ⟨row,selected,rfl⟩ := Option.map_eq_some_iff.mp found
  unfold selectRow at selected
  have named := List.find?_some selected
  simp only [beq_iff_eq] at named
  exact ⟨named,row,List.mem_of_find?_eq_some selected,named⟩

theorem tokenUnchanged {before after : Tables} (unchanged : Unchanged before after memoryId) :
    tokenAt env after memoryId = tokenAt env before memoryId := by
  unfold tokenAt
  rw [unchanged.record]
  cases found : recordById memoryId before with
  | none => rfl
  | some record =>
    simp only [Option.bind_some,curatorCandidateRevisionToken,(recordNamed found).1,unchanged.edges]

/- In cooldown, over the memory as it is. -/
def Kept (w : World) (memoryId : String) (ends : Int) : Prop := ∃ state later,
  w.states.rows memoryId = some state ∧ state.cooldownUntil = some later ∧ ends ≤ later ∧
    ∀ token, tokenAt env w.tables memoryId = some token → state.lastObservedRevisionToken = some token

/- What a disposition writes where it may. -/
theorem dispositionFits {state : CandidateState} (lasting : Lasting env uuid w event)
    (disposed : disposition env uuid w event = some (memoryId,state)) :
    (∀ token, tokenAt env w.tables memoryId = some token → state.lastObservedRevisionToken = some token) ∧
      ∃ later, state.cooldownUntil = some later ∧ NotEarlier (w.states.rows memoryId) later := by
  cases event with
  | change tables => cases disposed
  | filter pass => cases disposed
  | noOp record now =>
    simp only [disposition,Option.bind_eq_bind,Option.bind_eq_some_iff,Option.some.injEq,Prod.mk.injEq] at disposed
    obtain ⟨own,parsed,identity,token,written,updated,rfl,rfl⟩ := disposed
    have known : curatorCandidateRevisionToken env w.tables record = .ok identity := by
      cases read : curatorCandidateRevisionToken env w.tables record with
      | error error => simp [read,Except.toOption] at token
      | ok identity' => simp_all [Except.toOption]
    unfold noOpDisposition at updated
    split at updated
    · cases updated
    · rename_i passed
      obtain ⟨notEarlier,same⟩ := lasting own identity parsed known (Bool.not_eq_true _ ▸ passed)
      cases updated
      exact ⟨fun token present => congrArg some (same token present).symm,_,rfl,notEarlier⟩
  | escalate run evidence mutation key now =>
    obtain ⟨reason,given,same⟩ := Option.map_eq_some_iff.mp disposed
    cases same
    obtain ⟨notEarlier,current⟩ := lasting (by rw [given]; rfl)
    exact ⟨current,_,rfl,notEarlier⟩

theorem setRows {expected : Option String} {state : CandidateState} {states after : States} {persisted : Option CandidateState}
    {key : String} (done : compareAndSetCandidateState key expected state states = .ok (persisted,after)) :
    (persisted = none ∧ after = states) ∨ (persisted = some state ∧ state.memoryId = key ∧ after = states.write state) := by
  by_cases own : state.memoryId = key
  · rw [setCases own] at done
    split at done
    · cases done
      exact .inr ⟨rfl,own,rfl⟩
    · cases done
      exact .inl ⟨rfl,rfl⟩
  · unfold compareAndSetCandidateState at done
    rw [if_pos own] at done
    cases done

theorem writeOther {state : CandidateState} {states : States} (apart : memoryId ≠ state.memoryId) :
    (states.write state).rows memoryId = states.rows memoryId := if_neg apart

/- A disposition of the memory leaves it in cooldown at least until then, one of another as it is. -/
theorem disposedKept (memoryId : String) (ends : Int) {after : States} {persisted : Option CandidateState} (lasting : Lasting env uuid w event)
    (disposed : dispose env uuid w event = .ok (persisted,after))
    (kept : (∃ state, persisted = some state ∧ state.memoryId = memoryId ∧ state.cooldownUntil = some ends) ∨
      @Kept env w memoryId ends) : @Kept env ⟨w.tables,after⟩ memoryId ends := by
  unfold dispose at disposed
  split at disposed
  · cases disposed
    exact kept.resolve_left fun ⟨_,same,_⟩ => by cases same
  · rename_i key state given
    obtain ⟨rfl,rfl⟩ | ⟨rfl,own,rfl⟩ := setRows disposed
    · exact kept.resolve_left fun ⟨_,same,_⟩ => by cases same
    · obtain ⟨current,later,cooled,notEarlier⟩ := dispositionFits lasting given
      by_cases here : memoryId = key
      · subst here
        refine ⟨state,later,if_pos own.symm,cooled,?_,current⟩
        rcases kept with ⟨_,same,_,until_⟩ | ⟨before,other,there,cooling,upto,_⟩
        · cases same
          exact (Option.some.inj (until_.symm.trans cooled)).le
        · exact upto.trans (notEarlier before there other cooling)
      · obtain ⟨before,other,there,rest⟩ := kept.resolve_left fun ⟨_,same,named,_⟩ => by
          cases same
          exact here (named.symm.trans own)
        exact ⟨before,other,(writeOther (by rwa [own])).trans there,rest⟩

theorem ownKey {t : Tables} {record : MemoryRecord} (own : Own uuid t) (present : recordById record.id t = some record)
    (parsed : uuid record.id = some memoryId) : memoryId = record.id := by
  obtain ⟨row,member,named⟩ := (recordNamed present).2
  rcases own row member with none | own
  · rw [named,parsed] at none
    cases none
  · rw [named,parsed] at own
    exact Option.some.inj own

/- A candidate as it is stays in cooldown, and a pass over another does not touch it. -/
theorem candidateKept {t : Tables} {pass : Pass} {record : MemoryRecord} {states after : States} {eligible : Bool}
    (own : Own uuid t) (present : recordById record.id t = some record) (kept : @Kept env ⟨t,states⟩ memoryId ends)
    (done : filterCandidate env uuid t pass record states = .ok (eligible,after)) :
    @Kept env ⟨t,after⟩ memoryId ends ∧ after.rows memoryId = states.rows memoryId := by
  unfold filterCandidate at done
  split at done
  · cases done
    exact ⟨kept,rfl⟩
  · rename_i key parsed
    obtain ⟨identity,known,done⟩ := Transaction.checkedOk.mp done
    obtain ⟨⟨state,later⟩,seen,done⟩ := Transaction.checkedOk.mp done
    cases done
    have same := ownKey own present parsed
    have rows : after.rows memoryId = states.rows memoryId := by
      unfold observed at seen
      split at seen
      · cases seen
        rfl
      · rename_i before there
        split at seen
        · cases seen
          rfl
        · rename_i differs
          have apart : memoryId ≠ key := by
            intro here
            subst here
            obtain ⟨current,_,held,_,_,token⟩ := kept
            have unique : tokenAt env t memoryId = some identity := by simp [tokenAt,same,present,known,Except.toOption]
            cases there.symm.trans held
            exact differs (token identity unique)
          split at seen
          · cases seen
          · rename_i persisted written
            cases seen
            obtain ⟨_,rfl⟩ | ⟨_,named,rfl⟩ := setRows written
            · rfl
            · exact writeOther (by rwa [named])
          · rename_i written
            cases seen
            obtain ⟨_,rfl⟩ | ⟨lost,_⟩ := setRows written
            · rfl
            · cases lost
    obtain ⟨current,_,held,rest⟩ := kept
    exact ⟨⟨current,_,rows.trans held,rest⟩,rows⟩

theorem candidateOut {t : Tables} {pass : Pass} {record : MemoryRecord} {states after : States}
    (own : Own uuid t) (present : recordById record.id t = some record) (kept : @Kept env ⟨t,states⟩ memoryId ends)
    (done : filterCandidate env uuid t pass record states = .ok (true,after)) (before : pass.now < ends)
    (parsed : uuid record.id = some memoryId) : Excepted ⟨t,states⟩ pass memoryId := by
  have same := ownKey own present parsed
  unfold filterCandidate at done
  rw [parsed] at done
  obtain ⟨identity,known,done⟩ := Transaction.checkedOk.mp done
  obtain ⟨⟨state,later⟩,seen,done⟩ := Transaction.checkedOk.mp done
  obtain ⟨current,until_,held,cooled,upto,token⟩ := kept
  dsimp only at held
  have unique : tokenAt env t memoryId = some identity := by simp [tokenAt,same,present,known,Except.toOption]
  have steady : observed identity memoryId states = .ok (some current,states) := by
    unfold observed
    rw [held]
    exact if_pos (token identity unique)
  cases seen.symm.trans steady
  have eligible : isEligible pass record memoryId (some current) = true := (Prod.mk.inj (Except.ok.inj done)).1
  have cooling : current.cooldownUntil.any (pass.now < ·) = true := by
    rw [cooled]
    exact decide_eq_true (before.trans_le upto)
  rw [isEligible,Option.any_some,isCooling,cooling] at eligible
  rcases Bool.or_eq_true _ _ ▸ eligible with preserved | allowed
  · rw [same]
    exact .inl (List.contains_iff_mem.mp preserved)
  · refine .inr ?_
    simp only [Bool.true_and,Bool.not_not,Bool.and_eq_true] at allowed
    exact ⟨allowed.1.1,current,held,allowed.1.2⟩

theorem passKept {t : Tables} (pass : Pass) (own : Own uuid t) {records : List MemoryRecord}
    (present : ∀ record ∈ records, recordById record.id t = some record) {states : States}
    (kept : @Kept env ⟨t,states⟩ memoryId ends) :
    @Kept env ⟨t,(filterCuratorCandidates env uuid t pass records states).2⟩ memoryId ends ∧
      ∀ pool, (filterCuratorCandidates env uuid t pass records states).1 = .ok pool → pass.now < ends →
        (∃ record ∈ pool, uuid record.id = some memoryId) → Excepted ⟨t,states⟩ pass memoryId := by
  induction records generalizing states with
  | nil => exact ⟨kept,fun pool empty _ ⟨_,member,_⟩ => by cases empty; cases member⟩
  | cons record rest ih =>
    obtain ⟨here,later⟩ := List.forall_mem_cons.mp present
    cases done : filterCandidate env uuid t pass record states with
    | error error =>
      rw [filterCuratorCandidates,done]
      exact ⟨kept,nofun⟩
    | ok filtered =>
      obtain ⟨eligible,after⟩ := filtered
      obtain ⟨still,rows⟩ := candidateKept own here kept done
      obtain ⟨kept',out⟩ := ih later still
      rw [filterCuratorCandidates,done]
      refine ⟨kept',fun pool last before among => ?_⟩
      obtain ⟨others,given,rfl⟩ := Transaction.mappedOk.mp last
      have earlier (excepted : Excepted ⟨t,after⟩ pass memoryId) : Excepted ⟨t,states⟩ pass memoryId := by
        simpa only [Excepted,rows] using excepted
      obtain ⟨candidate,member,parsed⟩ := among
      cases eligible with
      | false => exact earlier (out others given before ⟨candidate,member,parsed⟩)
      | true =>
        rcases List.mem_cons.mp member with rfl | member
        · exact candidateOut own here kept done before parsed
        · exact earlier (out others given before ⟨candidate,member,parsed⟩)

theorem candidatesPresent {pass : Pass} {t : Tables} : ∀ record ∈ candidates pass t, recordById record.id t = some record := by
  intro record member
  obtain ⟨memoryId,_,found⟩ := List.mem_filterMap.mp member
  rw [(recordNamed found).1]
  exact found

/- What one event leaves of a cooldown, where the memory stays as it is. -/
theorem nextKept (own : Own uuid w.tables) (lasting : Lasting env uuid w event)
    (unchanged : Unchanged w.tables (next env uuid w event).tables memoryId) (kept : @Kept env w memoryId ends) :
    @Kept env (next env uuid w event) memoryId ends := by
  have disposes (elsewhere : ∀ after, dispose env uuid w event = .ok after →
      next env uuid w event = { w with states := after.2 }) (fails : ∀ error, dispose env uuid w event = .error error →
      next env uuid w event = w) : @Kept env (next env uuid w event) memoryId ends := by
    cases disposed : dispose env uuid w event with
    | error error => rwa [fails error disposed]
    | ok written =>
      rw [elsewhere written disposed]
      exact disposedKept memoryId ends lasting disposed (.inr kept)
  cases event with
  | change tables =>
    obtain ⟨state,later,held,cooled,upto,token⟩ := kept
    exact ⟨state,later,held,cooled,upto,fun given present => token given ((tokenUnchanged unchanged).symm.trans present)⟩
  | filter pass => exact (passKept pass own candidatesPresent kept).1
  | noOp record now =>
    exact disposes (fun _ disposed => by simp only [next,disposed]) fun _ disposed => by simp only [next,disposed]
  | escalate run evidence mutation key now =>
    exact disposes (fun _ disposed => by simp only [next,disposed]) fun _ disposed => by simp only [next,disposed]

theorem coolsKept (lasting : Lasting env uuid w event) (cools : Cools env uuid w event memoryId ends) :
    @Kept env (next env uuid w event) memoryId ends := by
  obtain ⟨state,after,disposed,named,until_⟩ := cools
  have kept := disposedKept memoryId ends lasting disposed (.inl ⟨state,rfl,named,until_⟩)
  cases event with
  | change tables => cases disposed
  | filter pass => cases disposed
  | noOp record now => simpa only [next,disposed] using kept
  | escalate run evidence mutation key now => simpa only [next,disposed] using kept

theorem ownNext (lasting : Lasting env uuid w event) (own : Own uuid w.tables) : Own uuid (next env uuid w event).tables := by
  cases event with
  | change tables => exact lasting
  | filter pass => exact own
  | noOp record now =>
    simp only [next]
    split <;> exact own
  | escalate run evidence mutation key now =>
    simp only [next]
    split <;> exact own

theorem worldNext {events : List Event} {n : Nat} (found : events[n]? = some event) :
    worldAt env uuid w events (n + 1) = next env uuid (worldAt env uuid w events n) event := by
  rw [worldAt,List.take_add_one,found,List.foldl_append]
  rfl

theorem ownAt {events : List Event} (own : Own uuid w.tables) (lasting : AllLasting env uuid w events) (n : Nat) :
    Own uuid (worldAt env uuid w events n).tables := by
  induction n with
  | zero => simpa [worldAt] using own
  | succ n ih =>
    cases found : events[n]? with
    | none =>
      rw [worldAt,List.take_add_one,found,Option.toList_none,List.append_nil]
      exact ih
    | some event =>
      rw [worldNext found]
      exact ownNext (lasting n event found) ih

theorem cooldownsLast {events : List Event} (own : Own uuid w.tables) (lasting : AllLasting env uuid w events) :
    CooldownsLast env uuid w events := by
  intro n event memoryId ends disposed cools m pass later filtered unchanged
  have kept : ∀ k, n < k → k ≤ m → @Kept env (worldAt env uuid w events k) memoryId ends := by
    intro k after upto
    induction k with
    | zero => cases after
    | succ k ih =>
      by_cases first : n = k
      · subst first
        rw [worldNext disposed]
        exact coolsKept (lasting n event disposed) cools
      · have bound : k < events.length := by
          have last := (List.getElem?_eq_some_iff.mp filtered).1
          omega
        have found := List.getElem?_eq_getElem bound
        have before := unchanged k (by omega) (by omega)
        have here := unchanged (k + 1) (by omega) upto
        rw [worldNext found] at here ⊢
        exact nextKept (ownAt own lasting k) (lasting k _ found)
          ⟨here.record.trans before.record.symm,here.edges.trans before.edges.symm⟩ (ih (by omega) (by omega))
  have present := kept m later le_rfl
  obtain ⟨still,out⟩ := passKept pass (ownAt own lasting m) candidatesPresent present
  obtain ⟨state,until_,held,cooled,upto,_⟩ := still
  exact ⟨⟨state,until_,held,cooled,upto⟩,out⟩

/- A note that is looked at twice, an hour apart. -/

def noteRow : MemoryRow := ⟨noteId,some 1,"note","kept",none,"fact","active","t0","t0",none,[]⟩

def noteTables : Tables := { Memory.empty with memories := [noteRow] }

def note : MemoryRecord := hydrateRecord noteTables noteRow

def asciiEnv : Canonical.Env := ⟨Text.ascii,fun _ => "digest"⟩

def soon : Pass := ⟨[noteId],1,false,[],false,fun _ => false⟩

def quietRun : List Event := [.noOp note 0,.filter soon]

def asText (text : String) : Option String := some text

theorem cooldownsLastSample : CooldownsLast asciiEnv asText ⟨noteTables,.empty⟩ quietRun := by
  refine cooldownsLast (fun _ _ => .inr rfl) fun n event found => ?_
  have lasts : ∀ w : World, w.tables = noteTables → w.states.rows noteId = none →
      Lasting asciiEnv asText w (.noOp note 0) := by
    rintro ⟨_,states⟩ rfl fresh memoryId identity parsed known _
    cases parsed
    refine ⟨fun state there => ?_,fun token present => ?_⟩
    · rw [show states.rows note.id = none from fresh] at there
      cases there
    · have same : tokenAt asciiEnv noteTables note.id = (curatorCandidateRevisionToken asciiEnv noteTables note).toOption := rfl
      rw [same,known] at present
      exact (Option.some.inj present).symm
  match n,found with
  | 0,found =>
    cases found
    exact lasts _ rfl rfl
  | 1,found =>
    cases found
    trivial

/- An escalation of a memory without a state keeps no token, so the first pass forgets its cooldown. -/
def regression : List Event := [.escalate ⟨"00000000-0000-0000-0000-00000000000a","notes",some "coverage"⟩
  ⟨"evaluated",some 1,none,none,none⟩ ⟨none,true⟩ noteId 0,.filter soon]

theorem escalationForgotten : ¬ CooldownsLast asciiEnv asText ⟨noteTables,.empty⟩ regression := by
  intro lasts
  have unchanged : ∀ k, 0 ≤ k → k ≤ 1 → Unchanged (worldAt asciiEnv asText ⟨noteTables,.empty⟩ regression 0).tables
      (worldAt asciiEnv asText ⟨noteTables,.empty⟩ regression k).tables noteId := by
    intro k _ upto
    match k with
    | 0 => exact ⟨rfl,rfl⟩
    | 1 => exact ⟨rfl,rfl⟩
  obtain ⟨⟨state,later,held,cooled,_⟩,_⟩ := lasts 0 _ noteId qualityRegressionCooldown rfl ⟨_,_,rfl,rfl,rfl⟩ 1 soon
    Nat.one_pos rfl unchanged
  have cleared : ((next asciiEnv asText (worldAt asciiEnv asText ⟨noteTables,.empty⟩ regression 1) (.filter soon)).states.rows
      noteId).bind (·.cooldownUntil) = none := by decide +kernel
  rw [held,Option.bind_some,cooled] at cleared
  cases cleared

end McpMemory.Curation.Cooldowns
