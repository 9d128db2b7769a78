import McpMemory.Journal.Store

/-! The writeback mode of `record_thought`: `core/journal_operations.py` over the outbox of
`storage/shared_read_cache.py`, in one process. A thought goes to the journal through the one write
slot, or into the outbox when that fails; a flush delivers what waits there. The thread that writes to
the journal goes on when its caller stops waiting. What a flush schedules afterwards is left out. -/
namespace McpMemory.Writeback
open Interleave
open Journal (sameThought)

/- The content is as `_normalize_record_thought_content` leaves it. -/
structure Thought where
  content : String
  workspaceId : Option String
  timestamp : Int
  normalized : Text.strip content = content
  deriving DecidableEq

structure Row where
  outboxId : Int
  thought : Thought
  cachedAt : Int
  deriving DecidableEq

structure Outbox where
  rows : List Row
  sequence : Int

/- One run of `_run_bounded_authoritative_record`: its result is its caller's alone. -/
structure Ticket where
  number : Nat
  thought : Thought
  deriving DecidableEq

/- The write raised something that `_is_writeback_fallback_error` names, or something else. -/
inductive Outcome where
  | recorded
  | failed (fallback : Bool)
  deriving DecidableEq, Repr

/- The thread that holds `_RECORD_THOUGHT_WRITE_SLOT` and what it has left to do. -/
structure Worker where
  ticket : Ticket
  call : Journal.Call

structure State where
  journal : Journal.Store
  outbox : Outbox
  slot : Option Worker
  tickets : Nat
  finished : List (Ticket × Outcome)

def start : State := ⟨Journal.empty,⟨[],0⟩,none,0,[]⟩

/- What the statement of a worker meets. An error may come before or after the write took effect. -/
inductive Weather where
  | answers
  | fails (fallback committed : Bool)
  deriving DecidableEq, Repr

/- A `record_thought`: the time when the outbox takes it, and whether the outbox can. -/
structure Recording where
  thought : Thought
  cachedAt : Int
  stored : Bool

/- A flush: whether the rows can be read, and which of them can be deleted. -/
structure Flush where
  limit : Int
  listed : Bool
  deleted : Int → Bool

inductive Op where
  | record (content : String) (workspaceId : Option String) (recordedAt cachedAt : Int) (stored : Bool)
  | flush (flush : Flush)
  | work (weather : Weather)
  | crash

inductive Call where
  | recording (recording : Recording)
  | waiting (ticket : Ticket) (cachedAt : Int) (stored : Bool)
  | queueing (recording : Recording)
  | listing (flush : Flush)
  | delivering (flush : Flush) (flushed rows : List Row)
  | awaiting (flush : Flush) (flushed : List Row) (ticket : Ticket) (row : Row) (rows : List Row)
  | deleting (flush : Flush) (flushed : List Row) (row : Row) (rows : List Row)
  | working (weather : Weather)
  | crashing
  | acknowledged (thought : Thought)
  | flushed (rows : List Row)
  | ended
  | refused

def enter : Op → Call
  | .record content workspaceId recordedAt cachedAt stored =>
    if Text.strip content = "" then .refused
    else .recording ⟨⟨Text.strip content,workspaceId,recordedAt,Text.stripIdem content⟩,cachedAt,stored⟩
  | .flush flush => if flush.limit < 1 then .flushed [] else .listing flush
  | .work weather => .working weather
  | .crash => .crashing

/- History. -/
inductive Emitted where
  | acknowledged (thought : Thought)
  | evicted (row : Row)
  deriving DecidableEq

/- `ORDER BY cached_at ASC, id ASC` -/
def oldestFirst (rows : List Row) : List Row :=
  rows.insertionSort fun a b => a.cachedAt < b.cachedAt ∨ a.cachedAt = b.cachedAt ∧ a.outboxId ≤ b.outboxId

/- `enqueue_record_thought_outbox_entry`, with the rows that overflow. -/
def enqueue (maxEntries : Nat) (thought : Thought) (cachedAt : Int) (outbox : Outbox) : List Row × Outbox :=
  let rows := outbox.rows ++ [⟨outbox.sequence + 1,thought,cachedAt⟩]
  let overflow := (oldestFirst rows).take (rows.length - maxEntries)
  (overflow,⟨rows.filter fun row => !(overflow.map (·.outboxId)).contains row.outboxId,outbox.sequence + 1⟩)

def listEntries (limit : Int) (outbox : Outbox) : List Row := (oldestFirst outbox.rows).take limit.toNat

/- Ids that are not positive are passed over. -/
def deleteEntry (outboxId : Int) (outbox : Outbox) : Outbox :=
  { outbox with rows := outbox.rows.filter fun row => !(decide (0 < outboxId) && row.outboxId == outboxId) }

/- The slot is free: a worker takes it. -/
def acquire (thought : Thought) (s : State) : Ticket × State :=
  let ticket : Ticket := ⟨s.tickets,thought⟩
  (ticket,{ s with
    slot := some ⟨ticket,.record thought.content thought.workspaceId thought.timestamp⟩
    tickets := s.tickets + 1 })

def finish (ticket : Ticket) (outcome : Outcome) (s : State) : State :=
  { s with slot := none, finished := (ticket,outcome) :: s.finished }

def resultOf (s : State) (ticket : Ticket) : Option Outcome := s.finished.lookup ticket

/- One statement of the worker; `record_with_timestamp` is that of the journal. -/
def work (weather : Weather) (s : State) : State :=
  match s.slot with
  | none => s
  | some worker =>
    let after := Journal.step worker.call s.journal
    match weather with
    | .fails fallback committed =>
      finish worker.ticket (.failed fallback) (if committed then { s with journal := after.2.1 } else s)
    | .answers => match after.1 with
      | .answered (.ok _) => finish worker.ticket .recorded { s with journal := after.2.1 }
      | .answered (.error _) => finish worker.ticket (.failed false) s
      | call => { s with slot := some { worker with call }, journal := after.2.1 }

def step (maxEntries : Nat) (call : Call) (s : State) : Call × State × List Emitted :=
  match call with
  | .recording r => match s.slot with
    | some _ => (.queueing r,s,[])
    | none =>
      let taken := acquire r.thought s
      (.waiting taken.1 r.cachedAt r.stored,taken.2,[])
  | .waiting ticket cachedAt stored => match resultOf s ticket with
    | some .recorded => (.acknowledged ticket.thought,s,[.acknowledged ticket.thought])
    | some (.failed false) => (.refused,s,[])
    -- A connection is lost, or the time is up.
    | some (.failed true) | none => (.queueing ⟨ticket.thought,cachedAt,stored⟩,s,[])
  | .queueing r =>
    if r.stored then
      let queued := enqueue maxEntries r.thought r.cachedAt s.outbox
      (.acknowledged r.thought,{ s with outbox := queued.2 },.acknowledged r.thought :: queued.1.map .evicted)
    else (.refused,s,[])
  | .listing flush => (.delivering flush [] (if flush.listed then listEntries flush.limit s.outbox else []),s,[])
  | .delivering _ flushed [] => (.flushed flushed,s,[])
  | .delivering flush flushed (row::rows) => match s.slot with
    | some _ => (.flushed flushed,s,[])
    | none =>
      let taken := acquire row.thought s
      (.awaiting flush flushed taken.1 row rows,taken.2,[])
  | .awaiting flush flushed ticket row rows => match resultOf s ticket with
    | some .recorded => (.deleting flush flushed row rows,s,[])
    | _ => (.flushed flushed,s,[])
  | .deleting flush flushed row rows =>
    (.delivering flush (flushed ++ [row]) rows,
      if flush.deleted row.outboxId then { s with outbox := deleteEntry row.outboxId s.outbox } else s,[])
  | .working weather => (.ended,work weather s,[])
  -- The threads of the process are gone; a call that was under way is not advanced any more.
  | .crashing => (.ended,{ s with slot := none, finished := [] },[])
  | .acknowledged _ | .flushed _ | .ended | .refused => (call,s,[])

def outbox (maxEntries : Nat) : Machine Op Call State Emitted := ⟨enter,step maxEntries⟩

def reached (maxEntries : Nat) (events : List (Event Op)) : World Call State Emitted :=
  (outbox maxEntries).run (idle start) events

/- How often a thought is in the journal, with its content, its workspace and its time. -/
def delivered (s : State) (thought : Thought) : Nat :=
  s.journal.entries.countP (sameThought thought.content thought.workspaceId thought.timestamp)

def InJournal (s : State) (thought : Thought) : Prop := 0 < delivered s thought

/- A row that a flush has read: where its id is still used, it stands there unchanged. -/
def Held (s : State) (row : Row) : Prop :=
  row.outboxId ≤ s.outbox.sequence ∧ ∀ other ∈ s.outbox.rows, other.outboxId = row.outboxId → other = row

def Call.sound (s : State) : Call → Prop
  | .delivering _ sent rows => (∀ row ∈ sent, InJournal s row.thought) ∧ ∀ row ∈ rows, Held s row
  | .awaiting _ sent ticket row rows => (∀ row ∈ sent, InJournal s row.thought) ∧ ticket.thought = row.thought ∧
      ∀ other ∈ row::rows, Held s other
  | .deleting _ sent row rows => (∀ row ∈ sent, InJournal s row.thought) ∧ InJournal s row.thought ∧
      ∀ other ∈ row::rows, Held s other
  | .flushed rows => ∀ row ∈ rows, InJournal s row.thought
  | _ => True

/- Before its insert a worker knows that the thought is not there. -/
def Worker.sound (s : State) (worker : Worker) : Prop :=
  let thought := worker.ticket.thought
  worker.call = .record thought.content thought.workspaceId thought.timestamp ∨
    worker.call = .inserting thought.content thought.workspaceId thought.timestamp ∧ delivered s thought = 0

structure Sound (s : State) (trace : List Emitted) : Prop where
  once : ∀ thought, delivered s thought ≤ 1
  worker : ∀ worker, s.slot = some worker → worker.sound s
  finished : ∀ ticket, (ticket,.recorded) ∈ s.finished → InJournal s ticket.thought
  unique : Table.UniqueBy (·.outboxId) s.outbox.rows
  bounded : ∀ row ∈ s.outbox.rows, row.outboxId ≤ s.outbox.sequence
  kept : ∀ thought, .acknowledged thought ∈ trace → InJournal s thought ∨ (∃ row ∈ s.outbox.rows, row.thought = thought) ∨
    ∃ row, .evicted row ∈ trace ∧ row.thought = thought

/- The journal forgets nothing, and a new row of the outbox has a new id. -/
structure Grows (before after : State) : Prop where
  journal : ∀ thought, InJournal before thought → InJournal after thought
  sequence : before.outbox.sequence ≤ after.outbox.sequence
  rows : ∀ row ∈ after.outbox.rows, row ∈ before.outbox.rows ∨ before.outbox.sequence < row.outboxId

theorem heldGrows {before after : State} (grows : Grows before after) {row : Row} (held : Held before row) : Held after row := by
  refine ⟨held.1.trans grows.sequence,fun other member same => ?_⟩
  rcases grows.rows other member with old | new
  · exact held.2 other old same
  · have bound := held.1
    omega

theorem callGrows {before after : State} (grows : Grows before after) {call : Call} (sound : call.sound before) :
    call.sound after := by
  cases call with
  | delivering flush flushed rows =>
    exact ⟨fun row member => grows.journal _ (sound.1 row member),fun row member => heldGrows grows (sound.2 row member)⟩
  | awaiting flush flushed ticket row rows =>
    exact ⟨fun row member => grows.journal _ (sound.1 row member),sound.2.1,fun other member => heldGrows grows (sound.2.2 other member)⟩
  | deleting flush flushed row rows =>
    exact ⟨fun row member => grows.journal _ (sound.1 row member),grows.journal _ sound.2.1,
      fun other member => heldGrows grows (sound.2.2 other member)⟩
  | flushed rows => exact fun row member => grows.journal _ (sound row member)
  | recording | waiting | queueing | listing | working | crashing | acknowledged | ended | refused => trivial

theorem growsRefl (s : State) : Grows s s := ⟨fun _ => id,le_refl _,fun _ => .inl⟩

/- A step that leaves the journal and the outbox alone. -/
theorem growsBeside {before after : State} (journal : after.journal = before.journal) (outbox : after.outbox = before.outbox) :
    Grows before after := by
  refine ⟨fun thought => ?_,by rw [outbox],fun row member => .inl (outbox ▸ member)⟩
  rw [InJournal,InJournal,delivered,delivered,journal]
  exact id

section
variable {s : State} {trace : List Emitted}

theorem acquireSound (thought : Thought) (sound : Sound s trace) : Sound (acquire thought s).2 trace where
  once := sound.once
  worker worker taken := by
    cases taken
    exact .inl rfl
  finished := sound.finished
  unique := sound.unique
  bounded := sound.bounded
  kept := sound.kept

theorem finishSound {ticket : Ticket} {outcome : Outcome} (sound : Sound s trace)
    (told : outcome = .recorded → InJournal s ticket.thought) : Sound (finish ticket outcome s) trace where
  once := sound.once
  worker worker taken := by cases taken
  finished other member := by
    rcases List.mem_cons.mp member with same | old
    · cases same
      exact told rfl
    · exact sound.finished other old
  unique := sound.unique
  bounded := sound.bounded
  kept := sound.kept

/- A thought is the same as another when its row would be. -/
theorem deliveredInsert (thought other : Thought) (journal : Journal.Store) :
    (Journal.insertEntry thought.content thought.workspaceId thought.timestamp journal).entries.countP
        (sameThought other.content other.workspaceId other.timestamp) =
      journal.entries.countP (sameThought other.content other.workspaceId other.timestamp) + if thought = other then 1 else 0 := by
  rw [Journal.insertEntry,List.countP_append,List.countP_singleton]
  congr 1
  have same : sameThought other.content other.workspaceId other.timestamp
      (Journal.newEntry thought.content thought.workspaceId thought.timestamp journal) = true ↔ thought = other := by
    obtain ⟨content,workspaceId,timestamp,_⟩ := thought
    obtain ⟨content',workspaceId',timestamp',_⟩ := other
    simp [sameThought,Journal.newEntry,and_assoc]
  simp only [same]

/- What the insert of a worker leaves, with its slot as before or free. -/
theorem insertSound {thought : Thought} (sound : Sound s trace) (absent : delivered s thought = 0) {after : State}
    (journal : after.journal = Journal.insertEntry thought.content thought.workspaceId thought.timestamp s.journal)
    (outbox : after.outbox = s.outbox) (finished : after.finished = s.finished) (slot : after.slot = none) :
    Sound after trace ∧ Grows s after ∧ InJournal after thought := by
  have counts (other : Thought) : delivered after other = delivered s other + if thought = other then 1 else 0 := by
    rw [delivered,journal]
    exact deliveredInsert thought other s.journal
  have grows : Grows s after := by
    refine ⟨fun other there => ?_,by rw [outbox],fun row member => .inl (outbox ▸ member)⟩
    rw [InJournal,counts]
    exact Nat.lt_of_lt_of_le there (Nat.le_add_right _ _)
  refine ⟨⟨fun other => ?_,fun worker taken => ?_,fun ticket member => ?_,?_,?_,fun other acked => ?_⟩,grows,?_⟩
  · rw [counts]
    split
    · rename_i same
      rw [← same,absent]
    · exact sound.once other
  · rw [slot] at taken
    cases taken
  · exact grows.journal _ (sound.finished ticket (finished ▸ member))
  · rw [outbox]
    exact sound.unique
  · rw [outbox]
    exact sound.bounded
  · rw [outbox]
    exact (sound.kept other acked).imp (grows.journal other) id
  · rw [InJournal,counts,if_pos rfl]
    exact Nat.succ_pos _

theorem Grows.trans {before middle after : State} (first : Grows before middle) (rest : Grows middle after) : Grows before after := by
  refine ⟨fun thought there => rest.journal _ (first.journal _ there),first.sequence.trans rest.sequence,fun row member => ?_⟩
  rcases rest.rows row member with old | new
  · exact first.rows row old
  · exact .inr (Int.lt_of_le_of_lt first.sequence new)

theorem growsFinish (ticket : Ticket) (outcome : Outcome) (s : State) : Grows s (finish ticket outcome s) := growsBeside rfl rfl

/- The select of `record_with_timestamp`. -/
theorem selectStep (thought : Thought) (journal : Journal.Store) :
    (∃ error, Journal.step (.record thought.content thought.workspaceId thought.timestamp) journal =
      (.answered (.error error),journal,[])) ∨
    (∃ entry, Journal.step (.record thought.content thought.workspaceId thought.timestamp) journal =
      (.answered (.ok entry),journal,[]) ∧
      0 < journal.entries.countP (sameThought thought.content thought.workspaceId thought.timestamp)) ∨
    Journal.step (.record thought.content thought.workspaceId thought.timestamp) journal =
      (.inserting thought.content thought.workspaceId thought.timestamp,journal,[]) ∧
      journal.entries.countP (sameThought thought.content thought.workspaceId thought.timestamp) = 0 := by
  simp only [Journal.step,thought.normalized]
  split
  · exact .inl ⟨_,rfl⟩
  · cases found : journal.entries.find? (sameThought thought.content thought.workspaceId thought.timestamp) with
    | some existing =>
      refine .inr (.inl ⟨_,rfl,?_⟩)
      exact List.countP_pos_iff.mpr ⟨existing,List.mem_of_find?_eq_some found,List.find?_some found⟩
    | none =>
      refine .inr (.inr ⟨rfl,?_⟩)
      exact List.countP_eq_zero.mpr fun entry member => List.find?_eq_none.mp found entry member

theorem workSound (weather : Weather) (sound : Sound s trace) : Sound (work weather s) trace ∧ Grows s (work weather s) := by
  cases taken : s.slot with
  | none =>
    have idle : work weather s = s := by rw [work,taken]
    rw [idle]
    exact ⟨sound,growsRefl s⟩
  | some worker =>
    obtain ⟨ticket,call⟩ := worker
    rcases sound.worker _ taken with selecting | ⟨inserting,absent⟩
    · -- A select changes nothing but the worker.
      dsimp only at selecting
      subst selecting
      cases weather with
      | fails fallback committed =>
        have same : (Journal.step (.record ticket.thought.content ticket.thought.workspaceId ticket.thought.timestamp) s.journal).2.1 =
            s.journal := by
          rcases selectStep ticket.thought s.journal with ⟨_,stepped⟩ | ⟨_,stepped,_⟩ | ⟨stepped,_⟩ <;> rw [stepped]
        have after : work (.fails fallback committed) s = finish ticket (.failed fallback) s := by
          simp only [work,taken,same]
          cases committed <;> rfl
        rw [after]
        exact ⟨finishSound sound (fun never => by cases never),growsFinish _ _ s⟩
      | answers =>
        rcases selectStep ticket.thought s.journal with ⟨_,stepped⟩ | ⟨_,stepped,there⟩ | ⟨stepped,absent⟩
        · have after : work .answers s = finish ticket (.failed false) s := by
            simp only [work,taken,stepped]
          rw [after]
          exact ⟨finishSound sound (fun never => by cases never),growsFinish _ _ s⟩
        · have after : work .answers s = finish ticket .recorded s := by
            simp only [work,taken,stepped]
            rfl
          rw [after]
          exact ⟨finishSound sound fun _ => there,growsFinish _ _ s⟩
        · have after : work .answers s = { s with slot := some ⟨ticket,.inserting ticket.thought.content ticket.thought.workspaceId
              ticket.thought.timestamp⟩ } := by
            simp only [work,taken,stepped]
          rw [after]
          refine ⟨⟨sound.once,fun worker same => ?_,sound.finished,sound.unique,sound.bounded,sound.kept⟩,growsBeside rfl rfl⟩
          cases same
          exact .inr ⟨rfl,absent⟩
    · dsimp only at inserting absent
      subst inserting
      obtain ⟨kept,grows,there⟩ := @insertSound s trace ticket.thought sound absent
        { s with journal := Journal.insertEntry ticket.thought.content ticket.thought.workspaceId ticket.thought.timestamp s.journal, slot := none }
        rfl rfl rfl rfl
      cases weather with
      | fails fallback committed =>
        cases committed with
        | true =>
          have after := @finishSound _ _ ticket (.failed fallback) kept fun never => by cases never
          simp only [work,taken]
          exact ⟨after,grows.trans (growsFinish _ _ _)⟩
        | false =>
          simp only [work,taken]
          exact ⟨finishSound sound (fun never => by cases never),growsFinish _ _ s⟩
      | answers =>
        have after := @finishSound _ _ ticket .recorded kept fun _ => there
        simp only [work,taken]
        exact ⟨after,grows.trans (growsFinish _ _ _)⟩

/- An acknowledged thought waits in the outbox, unless the overflow took it at once. -/
theorem enqueueSound (maxEntries : Nat) (thought : Thought) (cachedAt : Int) (sound : Sound s trace) :
    let queued := enqueue maxEntries thought cachedAt s.outbox
    Sound { s with outbox := queued.2 } (.acknowledged thought :: queued.1.map .evicted ++ trace) ∧
      Grows s { s with outbox := queued.2 } := by
  intro queued
  have fresh : ∀ row ∈ s.outbox.rows, row.outboxId ≠ s.outbox.sequence + 1 := by
    intro row member same
    have bound := sound.bounded row member
    omega
  have unique : Table.UniqueBy (·.outboxId) (s.outbox.rows ++ [⟨s.outbox.sequence + 1,thought,cachedAt⟩]) :=
    Table.insertUnique fresh sound.unique
  have rows {row : Row} : row ∈ queued.2.rows → row ∈ s.outbox.rows ++ [⟨s.outbox.sequence + 1,thought,cachedAt⟩] :=
    fun member => (List.mem_filter.mp member).1
  have left {row : Row} (member : row ∈ s.outbox.rows ++ [⟨s.outbox.sequence + 1,thought,cachedAt⟩]) :
      row ∈ queued.2.rows ∨ row ∈ queued.1 := by
    by_cases evicted : row.outboxId ∈ queued.1.map (·.outboxId)
    · obtain ⟨other,listed,same⟩ := List.mem_map.mp evicted
      have there := (List.mem_insertionSort _).mp (List.mem_of_mem_take listed)
      exact .inr (Table.equalOfKey unique there member same ▸ listed)
    · refine .inl (List.mem_filter.mpr ⟨member,?_⟩)
      rw [Bool.not_eq_true',← Bool.not_eq_true,List.contains_iff_mem]
      exact evicted
  have older : ∀ event ∈ trace, event ∈ .acknowledged thought :: queued.1.map Emitted.evicted ++ trace :=
    fun event member => List.mem_append_right _ member
  have placed {row : Row} (member : row ∈ s.outbox.rows ++ [⟨s.outbox.sequence + 1,thought,cachedAt⟩]) :
      (∃ other ∈ queued.2.rows, other.thought = row.thought) ∨
        ∃ other, .evicted other ∈ .acknowledged thought :: queued.1.map Emitted.evicted ++ trace ∧ other.thought = row.thought := by
    rcases left member with kept | gone
    · exact .inl ⟨row,kept,rfl⟩
    · exact .inr ⟨row,List.mem_append_left _ (List.mem_cons_of_mem _ (List.mem_map_of_mem gone)),rfl⟩
  refine ⟨⟨sound.once,sound.worker,sound.finished,?_,fun row member => ?_,fun other acked => ?_⟩,⟨fun _ => id,?_,fun row member => ?_⟩⟩
  · exact unique.sublist (List.filter_sublist.map _)
  · rcases List.mem_append.mp (rows member) with old | new
    · exact (sound.bounded row old).trans (Int.le_of_lt (Int.lt_succ _))
    · rw [List.mem_singleton.mp new]
      exact le_refl _
  · rw [List.cons_append,List.mem_cons,List.mem_append] at acked
    rcases acked with same | evicted | acked
    · cases same
      exact .inr (placed (List.mem_append_right _ List.mem_cons_self))
    · obtain ⟨row,_,same⟩ := List.mem_map.mp evicted
      cases same
    · rcases sound.kept other acked with there | ⟨row,member,rfl⟩ | ⟨row,evicted,same⟩
      · exact .inl there
      · exact .inr (placed (List.mem_append_left _ member))
      · exact .inr (.inr ⟨row,older _ evicted,same⟩)
  · exact Int.le_of_lt (Int.lt_succ _)
  · rcases List.mem_append.mp (rows member) with old | new
    · exact .inl old
    · rw [List.mem_singleton.mp new]
      exact .inr (Int.lt_succ _)

/- A row is deleted once its thought is in the journal. -/
theorem deleteSound {row : Row} (sound : Sound s trace) (held : Held s row) (there : InJournal s row.thought) :
    Sound { s with outbox := deleteEntry row.outboxId s.outbox } trace ∧
      Grows s { s with outbox := deleteEntry row.outboxId s.outbox } := by
  have rows {other : Row} (member : other ∈ (deleteEntry row.outboxId s.outbox).rows) : other ∈ s.outbox.rows :=
    (List.mem_filter.mp member).1
  refine ⟨⟨sound.once,sound.worker,sound.finished,?_,fun other member => sound.bounded other (rows member),fun thought acked => ?_⟩,
    ⟨fun _ => id,le_refl _,fun other member => .inl (rows member)⟩⟩
  · exact sound.unique.sublist (List.filter_sublist.map _)
  · rcases sound.kept thought acked with delivered | ⟨other,member,rfl⟩ | evicted
    · exact .inl delivered
    · by_cases same : other.outboxId = row.outboxId
      · rw [held.2 other member same]
        exact .inl there
      · exact .inr (.inl ⟨other,List.mem_filter.mpr ⟨member,by simp [same]⟩,rfl⟩)
    · exact .inr (.inr evicted)

theorem resultMember {ticket : Ticket} {outcome : Outcome} (told : resultOf s ticket = some outcome) :
    (ticket,outcome) ∈ s.finished := by
  obtain ⟨newer,older,same,_⟩ := List.lookup_eq_some_iff.mp told
  rw [same]
  exact List.mem_append_right _ List.mem_cons_self

theorem acquireGrows (thought : Thought) (s : State) : Grows s (acquire thought s).2 := growsBeside rfl rfl

theorem stepSound (maxEntries : Nat) (call : Call) (sound : Sound s trace) (own : call.sound s) :
    Sound (step maxEntries call s).2.1 ((step maxEntries call s).2.2 ++ trace) ∧
      Grows s (step maxEntries call s).2.1 ∧ (step maxEntries call s).1.sound (step maxEntries call s).2.1 := by
  have still : Sound s ([] ++ trace) ∧ Grows s s := ⟨sound,growsRefl s⟩
  cases call with
  | recording r =>
    cases taken : s.slot with
    | some worker =>
      simp only [step,taken]
      exact ⟨sound,growsRefl s,trivial⟩
    | none =>
      simp only [step,taken]
      exact ⟨acquireSound r.thought sound,acquireGrows r.thought s,trivial⟩
  | waiting ticket cachedAt stored =>
    cases told : resultOf s ticket with
    | none =>
      simp only [step,told]
      exact ⟨sound,growsRefl s,trivial⟩
    | some outcome =>
      cases outcome with
      | recorded =>
        have there := sound.finished ticket (resultMember told)
        simp only [step,told]
        refine ⟨{ sound with kept := fun thought acked => ?_ },growsRefl s,trivial⟩
        rcases List.mem_cons.mp acked with same | acked
        · cases same
          exact .inl there
        · refine (sound.kept thought acked).imp id (Or.imp id ?_)
          rintro ⟨row,evicted,same⟩
          exact ⟨row,List.mem_cons_of_mem _ evicted,same⟩
      | failed fallback =>
        cases fallback <;> simp only [step,told] <;> exact ⟨sound,growsRefl s,trivial⟩
  | queueing r =>
    simp only [step]
    split
    · obtain ⟨kept,grows⟩ := enqueueSound maxEntries r.thought r.cachedAt sound
      exact ⟨kept,grows,trivial⟩
    · exact ⟨sound,growsRefl s,trivial⟩
  | listing flush =>
    simp only [step]
    refine ⟨sound,growsRefl s,fun row none => absurd none List.not_mem_nil,fun row member => ?_⟩
    split at member
    · have there := (List.mem_insertionSort _).mp (List.mem_of_mem_take member)
      exact ⟨sound.bounded row there,fun other present same => Table.equalOfKey sound.unique present there same⟩
    · exact absurd member List.not_mem_nil
  | delivering flush flushed rows =>
    cases rows with
    | nil => exact ⟨sound,growsRefl s,own.1⟩
    | cons row rows =>
      cases taken : s.slot with
      | some worker =>
        simp only [step,taken]
        exact ⟨sound,growsRefl s,own.1⟩
      | none =>
        simp only [step,taken]
        have grows := acquireGrows row.thought s
        exact ⟨acquireSound row.thought sound,grows,fun other member => grows.journal _ (own.1 other member),rfl,
          fun other member => heldGrows grows (own.2 other member)⟩
  | awaiting flush flushed ticket row rows =>
    cases told : resultOf s ticket with
    | none =>
      simp only [step,told]
      exact ⟨sound,growsRefl s,own.1⟩
    | some outcome =>
      cases outcome with
      | recorded =>
        have there := sound.finished ticket (resultMember told)
        simp only [step,told]
        exact ⟨sound,growsRefl s,own.1,own.2.1 ▸ there,own.2.2⟩
      | failed fallback =>
        simp only [step,told]
        exact ⟨sound,growsRefl s,own.1⟩
  | deleting flush flushed row rows =>
    obtain ⟨sent,there,held⟩ := own
    have flushedAll : ∀ other ∈ flushed ++ [row], InJournal s other.thought := by
      rw [List.forall_mem_append,List.forall_mem_singleton]
      exact ⟨sent,there⟩
    rw [List.forall_mem_cons] at held
    simp only [step]
    split
    · obtain ⟨kept,grows⟩ := deleteSound sound held.1 there
      exact ⟨kept,grows,flushedAll,fun other member => heldGrows grows (held.2 other member)⟩
    · exact ⟨sound,growsRefl s,flushedAll,held.2⟩
  | working weather =>
    obtain ⟨kept,grows⟩ := workSound weather sound
    exact ⟨kept,grows,trivial⟩
  | crashing =>
    refine ⟨{ sound with worker := fun worker taken => ?_, finished := fun ticket member => ?_ },growsBeside rfl rfl,trivial⟩
    · cases taken
    · cases member
  | acknowledged | flushed | ended | refused => exact ⟨sound,growsRefl s,own⟩

end

/- In every state that a run reaches. -/
theorem reachedSound (maxEntries : Nat) (events : List (Event Op)) :
    Sound (reached maxEntries events).store (reached maxEntries events).trace ∧
      ∀ call ∈ (reached maxEntries events).calls, call.sound (reached maxEntries events).store := by
  refine @runPreserved _ _ _ _ (outbox maxEntries) (fun w => Sound w.store w.trace ∧ ∀ call ∈ w.calls, call.sound w.store)
    ⟨fun w op held => ?_,fun w index call found held => ?_⟩ (idle start) events ⟨?_,fun _ none => absurd none List.not_mem_nil⟩
  · refine ⟨held.1,fun call member => ?_⟩
    rcases List.mem_append.mp member with old | new
    · exact held.2 call old
    · obtain rfl := List.mem_singleton.mp new
      cases op with
      | record content => show Call.sound w.store (if _ then _ else _); split <;> trivial
      | flush flush =>
        show Call.sound w.store (if _ then _ else _)
        split
        · exact fun _ none => absurd none List.not_mem_nil
        · trivial
      | work | crash => trivial
  · obtain ⟨sound,grows,own⟩ := stepSound maxEntries call held.1 (held.2 call (List.mem_of_getElem? found))
    refine ⟨sound,fun other member => ?_⟩
    rcases List.mem_or_eq_of_mem_set member with old | rfl
    · exact callGrows grows (held.2 other old)
    · exact own
  · exact ⟨fun _ => Nat.zero_le 1,fun _ none => (by cases none),fun _ none => (by cases none),List.nodup_nil,
      fun _ none => (by cases none),fun _ none => (by cases none)⟩

/- However calls, failures and crashes follow each other, an acknowledged thought that no overflow
evicted waits in the outbox or is in the journal exactly once, no thought is there twice, and what a
flush says it has flushed is there. -/
theorem outboxDelivers (maxEntries : Nat) (events : List (Event Op)) :
    (∀ thought, .acknowledged thought ∈ (reached maxEntries events).trace →
      (∀ row, .evicted row ∈ (reached maxEntries events).trace → row.thought ≠ thought) →
      delivered (reached maxEntries events).store thought = 1 ∨
        ∃ row ∈ (reached maxEntries events).store.outbox.rows, row.thought = thought) ∧
    (∀ thought, delivered (reached maxEntries events).store thought ≤ 1) ∧
    ∀ rows, .flushed rows ∈ (reached maxEntries events).calls →
      ∀ row ∈ rows, delivered (reached maxEntries events).store row.thought = 1 := by
  obtain ⟨sound,calls⟩ := reachedSound maxEntries events
  have once {thought : Thought} (there : InJournal (reached maxEntries events).store thought) :
      delivered (reached maxEntries events).store thought = 1 := Nat.le_antisymm (sound.once thought) there
  refine ⟨fun thought acknowledged kept => ?_,sound.once,fun rows flushed row member => once (calls _ flushed row member)⟩
  rcases sound.kept thought acknowledged with there | waits | ⟨row,evicted,same⟩
  · exact .inl (once there)
  · exact .inr waits
  · exact absurd same (kept row evicted)

/- Two thoughts while the server is gone, with room for one; then the server is back. -/
def queued (index : Nat) (content : String) (recordedAt : Int) : List (Event Op) :=
  [.start (.record content none recordedAt recordedAt true),.start (.work (.fails true false)),.advance index,.advance (index + 1),
    .advance index,.advance index]

def flushed (index : Nat) : List (Event Op) :=
  [.start (.flush ⟨8,true,fun _ => true⟩),.advance index,.advance index,.start (.work .answers),.advance (index + 1),
    .start (.work .answers),.advance (index + 2),.advance index,.advance index,.advance index]

def overflowing : List (Event Op) := queued 0 "a" 1 ++ queued 2 "b" 2 ++ flushed 4

theorem overflowLost : (reached 1 overflowing).store.outbox.rows = [] ∧
    ¬ ∀ thought : Thought, .acknowledged thought ∈ (reached 1 overflowing).trace → delivered (reached 1 overflowing).store thought = 1 := by
  refine ⟨by decide +kernel,fun every => ?_⟩
  have lost := every ⟨"a",none,1,by decide⟩ (by decide +kernel)
  revert lost
  decide +kernel

end McpMemory.Writeback
