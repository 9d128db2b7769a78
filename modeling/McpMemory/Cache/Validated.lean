import McpMemory.Cache.Provenance

/-! Reads that are served after a check of their token. The payload of an entry is made from a row,
and its token from another look at the tables: an entry is right where the row has stayed. -/
namespace McpMemory.Cache
open Curation (ActionError)
open Interleave Memory Reading

variable {sha256 : String → String} {memoryId : String}

/- A token tells of a row, whatever it tells of the links. -/
def TokenOf (sha256 : String → String) (row : MemoryRow) (token : String) : Prop :=
  ∃ outgoing incoming superseded, token = buildReadCacheValidationToken sha256 row outgoing incoming superseded

theorem rowsFind {r : Repository} {ids : List String} (listed : memoryId ∈ ids) :
    (rowsById r ids).find? (·.id == memoryId) = r.memories.find? (·.id == memoryId) := by
  unfold rowsById
  rw [List.find?_filter]
  refine congrArg (fun found => r.memories.find? found) (funext fun row => ?_)
  by_cases same : row.id = memoryId
  · simp [same,listed]
  · simp [same]

theorem rowTokensEnd {r : Repository} {ids : List String} {token} : Ends (rowTokens sha256 ids (rowsById r ids))
    fun tokens => tokens.lookup memoryId = some token →
      ∃ row, r.memories.find? (·.id == memoryId) = some row ∧ TokenOf sha256 row token := by
  unfold rowTokens
  split
  · exact endsDone nofun
  · refine endsBind fun outgoing => endsBind fun incoming => endsBind fun superseded => endsDone fun found => ?_
    obtain ⟨id,listed,made⟩ := List.mem_filterMap.mp (Table.lookupMember found)
    obtain ⟨row,there,same⟩ := Option.map_eq_some_iff.mp made
    cases same
    exact ⟨row,(rowsFind listed).symm.trans there,_,_,_,rfl⟩

/- The row of a token is the one that its first look finds. -/
theorem tokenRow {states : List Repository} {tokens token}
    (read : (validationTokens sha256 [memoryId]).after states = .done tokens) (found : tokens.lookup memoryId = some token) :
    ∃ state row, states.head? = some state ∧ state.memories.find? (·.id == memoryId) = some row ∧ TokenOf sha256 row token := by
  unfold validationTokens at read
  dsimp only at read
  split at read
  · have none : tokens = [] := @endsDone _ _ (fun tokens => tokens = []) [] rfl _ _ read
    cases none
    cases found
  · obtain ⟨state,later,rfl,rest⟩ := seeAfter read
    obtain ⟨row,there,told⟩ := rowTokensEnd later tokens rest found
    exact ⟨state,row,rfl,there,told⟩

/- An entry under its token: the row that the payload shows is the one that the token was made from. -/
structure Settled (sha256 : String → String) (trace : List Emitted) (memoryId : String) (payload : ReadPayload) (token : String)
    (row : MemoryRow) (tokenSeen : List Repository) (state : Repository) : Prop where
  event : .stored memoryId row payload (some token) tokenSeen ∈ trace
  first : tokenSeen.head? = some state
  found : state.memories.find? (·.id == memoryId) = some row
  made : agentMemoryRecordPayload row = .ok payload
  told : TokenOf sha256 row token

def Vouched (sha256 : String → String) (trace : List Emitted) (memoryId : String) (payload : ReadPayload) (token : String) : Prop :=
  ∃ row tokenSeen state, Settled sha256 trace memoryId payload token row tokenSeen state

def Tokened (sha256 : String → String) (memoryId : String) (token : Option String) (tokenSeen : List Repository) : Prop :=
  ∀ given ∈ token, ∃ tokens, (validationTokens sha256 [memoryId]).after tokenSeen = .done tokens ∧
    tokens.lookup memoryId = some given

def ReadHeld (sha256 : String → String) (trace : List Emitted) (memoryId : String) : Read → Prop
  | .checking entry expected reading tokenSeen => Vouched sha256 trace memoryId entry.payload expected ∧
    (validationTokens sha256 [memoryId]).after tokenSeen = reading
  | .reading token tokenSeen _ | .resolving token tokenSeen _ _ | .accessing token tokenSeen _ _
  | .rereading token tokenSeen _ _ => Tokened sha256 memoryId token tokenSeen
  | .tokening row payload reading tokenSeen => agentMemoryRecordPayload row = .ok payload ∧
    (validationTokens sha256 [memoryId]).after tokenSeen = reading
  | .storing row payload token tokenSeen => agentMemoryRecordPayload row = .ok payload ∧
    Tokened sha256 memoryId token tokenSeen
  | .loading | .fallback _ | .answered _ => True

def EntriesHeld (sha256 : String → String) (c : Shared) (trace : List Emitted) : Prop :=
  ∀ entry ∈ c.reads, ∀ token ∈ entry.validationToken, Vouched sha256 trace entry.memoryId entry.payload token

/- What is asked of the step that stores an entry: where its token was fetched, the memory still had
the row that the payload was made of. -/
def Settles (memoryId : String) : Read → Prop
  | .storing row _ (some _) tokenSeen => ∀ state ∈ tokenSeen.head?, state.memories.find? (·.id == memoryId) = some row
  | _ => True

variable {c : Shared} {trace : List Emitted} {payload : ReadPayload} {token : String}

theorem vouchedMore {emitted} (vouched : Vouched sha256 trace memoryId payload token) :
    Vouched sha256 (emitted ++ trace) memoryId payload token := by
  obtain ⟨row,tokenSeen,state,settled⟩ := vouched
  exact ⟨row,tokenSeen,state,{ settled with event := List.mem_append_right _ settled.event }⟩

theorem readMore {emitted read} (held : ReadHeld sha256 trace memoryId read) : ReadHeld sha256 (emitted ++ trace) memoryId read := by
  cases read with
  | checking => exact ⟨vouchedMore held.1,held.2⟩
  | reading | resolving | accessing | rereading | tokening | storing => exact held
  | loading | fallback | answered => trivial

/- What a step of a read gives. -/
structure ReadKept (sha256 : String → String) (trace : List Emitted) (memoryId : String) (next : Read × Shared × List Emitted) : Prop where
  entries : EntriesHeld sha256 next.2.1 (next.2.2 ++ trace)
  read : ReadHeld sha256 (next.2.2 ++ trace) memoryId next.1
  validated : ∀ memoryId payload token, .validated memoryId payload token ∈ next.2.2 → Vouched sha256 trace memoryId payload token

theorem readStays {c read} (entries : EntriesHeld sha256 c trace) (held : ReadHeld sha256 trace memoryId read) :
    ReadKept sha256 trace memoryId (read,c,[]) :=
  ⟨entries,held,fun _ _ _ member => absurd member List.not_mem_nil⟩

theorem payloadHeld {token tokenSeen row} (held : Tokened sha256 memoryId token tokenSeen) :
    ReadHeld sha256 trace memoryId (withPayload sha256 memoryId token tokenSeen row) := by
  unfold withPayload
  cases made : agentMemoryRecordPayload row with
  | error error => trivial
  | ok payload =>
    cases token with
    | none => exact ⟨made,afterNil⟩
    | some token => exact ⟨made,held⟩

theorem readKept {broken read} (entries : EntriesHeld sha256 c trace) (held : ReadHeld sha256 trace memoryId read)
    (settles : Settles memoryId read) : ReadKept sha256 trace memoryId (readStep sha256 memoryId broken read c) := by
  cases read with
  | loading =>
    have fresh : ReadHeld sha256 trace memoryId (.reading none [] (getMemory memoryId)) := nofun
    cases found : c.reads.find? (·.memoryId == memoryId) with
    | none =>
      simp only [readStep,found]
      exact readStays entries fresh
    | some entry =>
      have here : entry.memoryId = memoryId := by simpa using List.find?_some found
      cases given : entry.validationToken with
      | none =>
        simp only [readStep,found,given]
        exact readStays entries fresh
      | some expected =>
        simp only [readStep,found,given]
        exact readStays entries ⟨here ▸ entries entry (List.mem_of_find?_eq_some found) expected given,afterNil⟩
  | checking entry expected reading tokenSeen =>
    obtain ⟨vouched,read⟩ := held
    cases reading with
    | look next =>
      refine readStays entries ⟨vouched,?_⟩
      rw [afterAppend,read]
      exact afterNil
    | done tokens =>
      simp only [readStep]
      split
      · refine ⟨fun entry member token given => vouchedMore (entries entry member token given),trivial,fun _ _ _ member => ?_⟩
        cases List.mem_singleton.mp member
        exact vouched
      · exact readStays entries fun token given => ⟨tokens,read,given⟩
  | reading token tokenSeen reading =>
    cases reading with
    | look next =>
      simp only [readStep]
      split
      · exact readStays entries trivial
      · exact readStays entries held
    | done answer =>
      rcases answer with error | (_ | row)
      · exact readStays entries trivial
      · exact readStays entries trivial
      · exact readStays entries held
  | resolving token tokenSeen row reading =>
    cases reading with
    | look next => exact readStays entries held
    | done answer =>
      rcases answer with error | (_ | resolved)
      · exact readStays entries trivial
      · exact readStays entries (payloadHeld held)
      · exact readStays entries held
  | accessing token tokenSeen row resolved =>
    exact ⟨entries,held,fun _ _ _ member => absurd member List.not_mem_nil⟩
  | rereading token tokenSeen row reading =>
    cases reading with
    | look next => exact readStays entries held
    | done answer =>
      cases answer with
      | error error => exact readStays entries trivial
      | ok found => exact readStays entries (payloadHeld held)
  | tokening row payload reading tokenSeen =>
    obtain ⟨made,read⟩ := held
    cases reading with
    | look next =>
      refine readStays entries ⟨made,?_⟩
      rw [afterAppend,read]
      exact afterNil
    | done tokens => exact readStays entries ⟨made,fun token given => ⟨tokens,read,given⟩⟩
  | storing row payload token tokenSeen =>
    obtain ⟨made,tokened⟩ := held
    refine ⟨fun entry member given stamped => ?_,trivial,fun _ _ _ member => ?_⟩
    · rcases List.mem_append.mp member with old | new
      · exact vouchedMore (entries entry (List.mem_filter.mp old).1 given stamped)
      · cases List.mem_singleton.mp new
        obtain rfl : token = some given := stamped
        obtain ⟨tokens,read,found⟩ := tokened given rfl
        obtain ⟨state,other,first,there,told⟩ := tokenRow read found
        have still : state.memories.find? (·.id == memoryId) = some row := settles state first
        obtain rfl : other = row := Option.some.inj (there.symm.trans still)
        exact ⟨other,tokenSeen,state,⟨List.mem_cons_self,first,still,made,told⟩⟩
    · cases List.mem_singleton.mp member
  | fallback error =>
    simp only [readStep]
    split <;> exact readStays entries trivial
  | answered answer => exact readStays entries trivial

/- No search writes an entry. -/
theorem askReads {env : CacheEnv} {asking : Asking} {asked : Asked} : (askStep env asking asked c).2.1.reads = c.reads ∧
    ∀ memoryId payload token, .validated memoryId payload token ∉ (askStep env asking asked c).2.2 := by
  have quiet : ∀ memoryId payload token, Emitted.validated memoryId payload token ∉ ([] : List Emitted) :=
    fun _ _ _ => List.not_mem_nil
  have dropped : ∀ flight (c : Shared), (dropFlight env asking flight c).reads = c.reads := by
    intro flight c
    obtain ⟨inflight,drops,_⟩ := droppedRest env asking flight c
    rw [drops]
  cases asked with
  | fetching keys =>
    cases keys with
    | nil => exact ⟨rfl,quiet⟩
    | cons key keys =>
      simp only [askStep]
      split
      · exact ⟨rfl,quiet⟩
      · split <;> exact ⟨rfl,quiet⟩
  | comparing row =>
    simp only [askStep]
    split <;> exact ⟨rfl,quiet⟩
  | validating row checked reading =>
    cases reading with
    | look next => exact ⟨rfl,quiet⟩
    | done current =>
      simp only [askStep]
      split
      · refine ⟨rfl,fun _ _ _ member => ?_⟩
        cases List.mem_singleton.mp member
      · exact ⟨rfl,quiet⟩
  | entering =>
    simp only [askStep]
    split <;> exact ⟨rfl,quiet⟩
  | waiting flight =>
    simp only [askStep]
    split
    · exact ⟨rfl,quiet⟩
    · split
      · split
        · refine ⟨rfl,fun _ _ _ member => ?_⟩
          cases List.mem_singleton.mp member
        · exact ⟨rfl,quiet⟩
        · exact ⟨rfl,quiet⟩
      · exact ⟨dropped flight c,quiet⟩
  | searching flight reading seen =>
    cases reading with
    | look next => exact ⟨rfl,quiet⟩
    | done answer =>
      cases answer with
      | error error => exact ⟨rfl,quiet⟩
      | ok found =>
        refine ⟨rfl,fun _ _ _ member => ?_⟩
        cases List.mem_singleton.mp member
  | capturing flight found seen => exact ⟨rfl,quiet⟩
  | tokening flight found epochs reading => cases reading <;> exact ⟨rfl,quiet⟩
  | storing flight found epochs tokens =>
    simp only [askStep,storeSearch]
    split <;> exact ⟨rfl,quiet⟩
  | finishing flight found => exact ⟨dropped flight _,quiet⟩
  | failing flight error => exact ⟨dropped flight _,quiet⟩
  | falling keys error =>
    cases keys with
    | nil => exact ⟨rfl,quiet⟩
    | cons key keys =>
      simp only [askStep]
      split
      · exact ⟨rfl,quiet⟩
      · refine ⟨rfl,fun _ _ _ member => ?_⟩
        cases List.mem_singleton.mp member
  | answered answer => exact ⟨rfl,quiet⟩

def CallRead (sha256 : String → String) (trace : List Emitted) : Call → Prop
  | .read memoryId _ reader => ReadHeld sha256 trace memoryId reader
  | _ => True

def CallSettles : Call → Prop
  | .read memoryId _ reader => Settles memoryId reader
  | _ => True

structure Entries (sha256 : String → String) (w : World Call Shared Emitted) : Prop where
  held : EntriesHeld sha256 w.store w.trace
  calls : ∀ call ∈ w.calls, CallRead sha256 w.trace call
  validated : ∀ memoryId payload token, .validated memoryId payload token ∈ w.trace → Vouched sha256 w.trace memoryId payload token

def Settling (w : World Call Shared Emitted) : Event Op → Prop
  | .start _ => True
  | .advance index => ∀ call ∈ w.calls[index]?, CallSettles call

structure CallKept (sha256 : String → String) (trace : List Emitted) (next : Call × Shared × List Emitted) : Prop where
  entries : EntriesHeld sha256 next.2.1 (next.2.2 ++ trace)
  call : CallRead sha256 (next.2.2 ++ trace) next.1
  validated : ∀ memoryId payload token, .validated memoryId payload token ∈ next.2.2 → Vouched sha256 trace memoryId payload token

/- Where no entry is written. -/
theorem fewerEntries {after : Shared} {emitted} (entries : EntriesHeld sha256 c trace)
    (fewer : ∀ entry ∈ after.reads, entry ∈ c.reads) : EntriesHeld sha256 after (emitted ++ trace) :=
  fun entry member token given => vouchedMore (entries entry (fewer entry member) token given)

theorem callKept {env : CacheEnv} {call} (entries : EntriesHeld env.sha256 c trace) (held : CallRead env.sha256 trace call)
    (settles : CallSettles call) : CallKept env.sha256 trace (step env call c) := by
  cases call with
  | search asking asked =>
    obtain ⟨reads,quiet⟩ := @askReads c env asking asked
    exact ⟨fewerEntries entries fun entry member => reads ▸ member,trivial,
      fun memoryId payload token member => absurd member (quiet memoryId payload token)⟩
  | read memoryId broken read =>
    have kept := @readKept env.sha256 memoryId c trace broken read entries held settles
    exact ⟨kept.entries,kept.read,kept.validated⟩
  | mutate writes => exact ⟨entries,trivial,fun _ _ _ member => absurd member List.not_mem_nil⟩
  | invalidate memoryIds =>
    exact ⟨fewerEntries entries fun entry member => (List.mem_filter.mp member).1,trivial,
      fun _ _ _ member => absurd member List.not_mem_nil⟩
  | purge process policyVersion featureFingerprint =>
    refine ⟨fewerEntries entries fun entry member => ?_,trivial,fun _ _ _ member => absurd member List.not_mem_nil⟩
    simp only [step,purgeSearchResponses] at member
    split at member <;> exact member
  | finished => exact ⟨entries,trivial,fun _ _ _ member => absurd member List.not_mem_nil⟩

/- A step that stores no token can be told without comparing rows. -/
def stampless : Call → Bool
  | .read _ _ (.storing _ _ (some _) _) => false
  | _ => true

theorem stamplessSettles {call} (plain : stampless call) : CallSettles call := by
  cases call with
  | read memoryId broken reader =>
    cases reader with
    | storing row payload token tokenSeen =>
      cases token with
      | none => trivial
      | some token => cases plain
    | loading | checking | reading | resolving | accessing | rereading | tokening | fallback | answered => trivial
  | search | mutate | invalidate | purge | finished => trivial

def Stampless (w : World Call Shared Emitted) : Event Op → Prop
  | .start _ => True
  | .advance index => ∀ call ∈ w.calls[index]?, stampless call

instance (w : World Call Shared Emitted) (event : Event Op) : Decidable (Stampless w event) := match event with
  | .start _ => .isTrue trivial
  | .advance index => inferInstanceAs (Decidable (∀ call ∈ w.calls[index]?, stampless call))

theorem stamplessSettling (w : World Call Shared Emitted) (event : Event Op) (plain : Stampless w event) : Settling w event := by
  cases event with
  | start op => trivial
  | advance index => exact fun call found => stamplessSettles (plain call found)

theorem nextEntries {env : CacheEnv} {w event} (settling : Settling w event) (sound : Entries env.sha256 w) :
    Entries env.sha256 ((cached env).next w event) := by
  cases event with
  | start op =>
    refine ⟨sound.held,fun call member => ?_,sound.validated⟩
    rcases List.mem_append.mp member with old | new
    · exact sound.calls call old
    · cases List.mem_singleton.mp new
      cases op <;> trivial
  | advance index =>
    cases found : w.calls[index]? with
    | none =>
      rw [nextIdle found]
      exact sound
    | some call =>
      rw [nextAdvance found]
      have kept := @callKept w.store w.trace env call sound.held (sound.calls call (List.mem_of_getElem? found))
        (settling call found)
      refine ⟨kept.entries,fun other member => ?_,fun memoryId payload token member => ?_⟩
      · rcases List.mem_or_eq_of_mem_set member with old | new
        · have before := sound.calls other old
          cases other with
          | read => exact readMore before
          | search | mutate | invalidate | purge | finished => trivial
        · exact new ▸ kept.call
      · rcases List.mem_append.mp member with new | old
        · exact vouchedMore (kept.validated memoryId payload token new)
        · exact vouchedMore (sound.validated memoryId payload token old)

theorem validatedCurrent {env : CacheEnv} {repository : Repository} {events : List (Event Op)}
    (meets : Meets (cached env) Settling (idle (unused repository [])) events) {memoryId payload token}
    (validated : .validated memoryId payload token ∈ ((cached env).run (idle (unused repository [])) events).trace) :
    Vouched env.sha256 ((cached env).run (idle (unused repository [])) events).trace memoryId payload token := by
  have entries : Entries env.sha256 ((cached env).run (idle (unused repository [])) events) :=
    runMeets (fun _ _ => nextEntries) meets ⟨fun _ member => absurd member List.not_mem_nil,
      fun _ member => absurd member List.not_mem_nil,fun _ _ _ member => absurd member List.not_mem_nil⟩
  exact entries.validated memoryId payload token validated

/- Two reads of a memory, without and with an update where the first has its payload and no token yet. -/

def plainEnv : CacheEnv := ⟨fun _ => "digest",fun _ => .done (.ok [])⟩

def oldNote : MemoryRow := ⟨"m",some 1,"note","old",some "note","fact","active","t0","t0",none,[]⟩

def newNote (row : MemoryRow) : MemoryRow := { row with
  content := "new"
  updatedAt := "t1" }

def oneNote : Repository := ⟨⟨fun
  | .memories => ([oldNote] : List MemoryRow)
  | _ => [],fun _ => 0⟩,[]⟩

def updateNote : Write := .row (.update .memories (fun (row : MemoryRow) => row.id == "m") newNote)

def repeatedRead : List (Event Op) :=
  [.start (.read "m" false)] ++ List.replicate 12 (.advance 0) ++ [.start (.read "m" false)] ++ List.replicate 5 (.advance 1)

/- The twelfth event stores the entry. -/
theorem repeatedSettles : Meets (cached plainEnv) Settling (idle (unused oneNote [])) repeatedRead := by
  have split : repeatedRead = repeatedRead.take 12 ++ [.advance 0] ++ repeatedRead.drop 13 := rfl
  rw [split,meetsAppend,meetsAppend]
  refine ⟨⟨meetsWeaker stamplessSettling (by decide +kernel),?_,trivial⟩,meetsWeaker stamplessSettling (by decide +kernel)⟩
  intro call found
  obtain ⟨r,payload,token,there,row⟩ : ∃ r payload token,
      ((cached plainEnv).run (idle (unused oneNote [])) (repeatedRead.take 12)).calls[0]? =
        some (.read "m" false (.storing oldNote payload (some token) [r,r,r])) ∧
      r.memories.find? (·.id == "m") = some oldNote := ⟨_,_,_,rfl,rfl⟩
  cases Option.some.inj (there.symm.trans found)
  intro state first
  cases first
  exact row

theorem validatedCurrentRepeated : Vouched plainEnv.sha256
    ((cached plainEnv).run (idle (unused oneNote [])) repeatedRead).trace "m" ⟨"mem-1","note","old"⟩ ("v1:" ++ "digest") :=
  validatedCurrent repeatedSettles List.mem_cons_self

/- The update is after the row is read for the payload and before the token is fetched. -/
def lateUpdate : List (Event Op) :=
  [.start (.read "m" false)] ++ List.replicate 7 (.advance 0) ++ [.start (.mutate [updateNote]),.advance 1] ++
  List.replicate 5 (.advance 0) ++ [.start (.read "m" false)] ++ List.replicate 5 (.advance 2)

theorem lateUpdateTrace : ∃ r, r.memories = [newNote oldNote] ∧ ((cached plainEnv).run (idle (unused oneNote [])) lateUpdate).trace =
    [.validated "m" ⟨"mem-1","note","old"⟩ ("v1:" ++ "digest"),
      .stored "m" oldNote ⟨"mem-1","note","old"⟩ (some ("v1:" ++ "digest")) [r,r,r]] := ⟨_,rfl,rfl⟩

theorem lateToken : ¬ ∀ (env : CacheEnv) (repository : Repository) (events : List (Event Op)) (memoryId : String)
    (payload : ReadPayload) (token : String),
    .validated memoryId payload token ∈ ((cached env).run (idle (unused repository [])) events).trace →
    Vouched env.sha256 ((cached env).run (idle (unused repository [])) events).trace memoryId payload token := by
  intro claimed
  obtain ⟨r,rows,trace⟩ := lateUpdateTrace
  obtain ⟨row,tokenSeen,state,settled⟩ := claimed plainEnv oneNote lateUpdate "m" ⟨"mem-1","note","old"⟩ ("v1:" ++ "digest")
    (trace ▸ List.mem_cons_self)
  have event := settled.event
  rw [trace] at event
  rcases List.mem_cons.mp event with other | stored
  · cases other
  cases List.mem_singleton.mp stored
  cases settled.first
  have found := settled.found
  rw [rows] at found
  have content := congrArg (Option.map (·.content)) found
  exact absurd content (by decide)

end McpMemory.Cache
