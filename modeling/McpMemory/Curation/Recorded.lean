import McpMemory.Curation.Runs
import McpMemory.Memory.History
import McpMemory.Memory.Shape

/-! What a committed action leaves in the history: one event, and the revisions of the memories and
the links that changed. -/
namespace McpMemory.Curation
open Memory Text Transaction

variable (env : Env) (config : Config)

/- The revision of a link that came or went, or whose context changed. -/
structure Relinked (eventId : String) (before after : List MemoryLink) (revision : LinkRevision) : Prop where
  event : revision.eventId = eventId
  key : (revision.sourceId,revision.targetId,revision.linkType) ∈ (before ++ after).map keyOf
  beforeExists : revision.beforeExists =
    (before.find? (keyOf · == (revision.sourceId,revision.targetId,revision.linkType))).isSome
  afterExists : revision.afterExists =
    (after.find? (keyOf · == (revision.sourceId,revision.targetId,revision.linkType))).isSome
  context : revision.context =
    (after.find? (keyOf · == (revision.sourceId,revision.targetId,revision.linkType))).map (·.context)
  changed : ¬ (revision.beforeExists = true ∧ revision.afterExists = true ∧
    (before.find? (keyOf · == (revision.sourceId,revision.targetId,revision.linkType))).map (·.context) =
      revision.context)

/- The event of an action; `run` is the run that it belongs to. -/
structure Witnesses (request : Request) (p : Prepared) (run : Option Run) (event : MutationEvent) : Prop where
  operation : event.operation = p.operation
  actorKind : event.actorKind = request.actorKind
  taskId : optionally uuid (run.bind (·.taskId)) = .ok event.taskId
  curationRunId : event.curationRunId = some request.runId
  planId : optionally uuid (run.bind (·.planId)) = .ok event.planId
  actionId : event.actionId = some request.actionId
  status : event.status = "applied"
  restoresEventId : event.restoresEventId = request.restoresEventId
  idempotencyKey : event.idempotencyKey = some (eventKey request)

/- `middle` is the work when the callback has returned. -/
structure Recorded (request : Request) (p : Prepared) (before : Tables) (middle : Work) (after : Tables)
    (receipt : ActionReceipt) where
  beside : Beside middle.database.memory after
  afterIds : List String
  touched : canonicalTargetIds env (p.targets ++ middle.touched) = .ok afterIds
  run : Option Run
  event : MutationEvent
  witnesses : Witnesses request p run event
  receiptEvent : receipt.mutationEventId = some event.id
  records : List RecordRevision
  revised : ∀ revision ∈ records, Revised port env.toEnv Canonical.spaced event.id (selectRecords p.targets before)
    (selectRecords afterIds middle.database.memory) revision
  links : List LinkRevision
  relinked : ∀ revision ∈ links, Relinked event.id (linksOf p.targets before)
    (linksOf afterIds middle.database.memory) revision
  chronicle : chronicle after = (before.events ++ [event],before.recordRevisions ++ records,
    before.linkRevisions ++ links)

/- The transaction up to the end of its callback. -/
def upToCallback (request : Request) (p : Prepared) (callback : Callback) : Action (Option MutationResult) := do
  let run ← runFor request
  lift (checkRun request run)
  each lockTarget p.targets
  let before ← onTables port (read (selectRecords p.targets))
  checkTokens env before p
  checkPreconditions env p request.preconditions
  let _ ← onTables port (read (linksOf p.targets))
  callback.play (perform env config)

/- The work as a transaction begins; only a restore has made its run by then. -/
def Started (start work : Work) : Prop := ∃ ledger : Ledger, ledger.receipts = start.database.curation.receipts ∧
  work = { start with database := { start.database with curation := ledger } }

/- An action that returned, taken apart: what it read before its callback and after it, the history
that it then wrote, and that nothing else came in between. -/
structure Applies (request : Request) (p : Prepared) (callback : Callback) (oracle : Oracle ActionError)
    (start : Work) (session : Session Work) (receipt : ActionReceipt) (ended : Session Work) where
  opened : Session Work
  begun : Started start opened.data
  result : Option MutationResult
  returned : Session Work
  plays : callback.play (perform env config) oracle opened = (.ok result,returned)
  upTo : upToCallback env config request p callback oracle session = (.ok result,returned)
  unrecorded : chronicle returned.data.database.memory = chronicle start.database.memory
  afterIds : List String
  touched : canonicalTargetIds env (p.targets ++ returned.data.touched) = .ok afterIds
  run : Option Run
  eventId : String
  receiptEvent : receipt.mutationEventId = some eventId
  noted : Session Work
  beside : Beside returned.data.database.memory noted.data.database.memory
  unwritten : chronicle noted.data.database.memory = chronicle start.database.memory
  written : Session Work
  writes : writeHistory env eventId request run p.operation (selectRecords p.targets start.database.memory)
    (selectRecords afterIds returned.data.database.memory) (linksOf p.targets start.database.memory)
    (linksOf afterIds returned.data.database.memory) oracle noted = (.ok (),written)
  last : ended.data = written.data

variable {env config} {start : Work}

theorem startedStill : Still (Started start) where
  same work after begun same := by
    obtain ⟨ledger,receipts,rfl⟩ := begun
    exact ⟨ledger,receipts,by subst same; rfl⟩
  ledger work ledger same begun := by
    obtain ⟨old,receipts,rfl⟩ := begun
    exact ⟨ledger,same.trans receipts,rfl⟩

theorem startedSelf : Started start start := ⟨_,rfl,rfl⟩

theorem startedTables {work : Work} (begun : Started start work) :
    work.database.memory = start.database.memory ∧ work.touched = start.touched := by
  obtain ⟨ledger,_,rfl⟩ := begun
  exact ⟨rfl,rfl⟩

theorem selectTables {α : Type} {query : Tables → α} {oracle session a after}
    (run : onTables port (read query) oracle session = (.ok a,after)) :
    a = query session.data.database.memory ∧ after.data = session.data := by
  obtain ⟨changed,taken,same⟩ := onTablesOk run
  cases taken
  exact ⟨rfl,same⟩

/- A callback does not write to the history. -/
theorem unrecordedGuarded (value : Chronicle) :
    Guarded (fun _ => True) (fun _ => True) fun work => chronicle work.database.memory = value where
  same _ _ begun same := same ▸ begun
  guards _ _ begun differs := (unrecordedDiffers differs).trans begun
  touched _ _ begun := begun
  newIds _ _ _ begun := begun
  access _ _ _ _ := trivial
  within _ _ := trivial
  external _ _ := trivial

theorem ensuresLinkRevision {inv : Work → Prop} {eventId : String} {before after : List MemoryLink} {key : LinkKey}
    (listed : key ∈ (before ++ after).map keyOf) (kept : ∀ work changed revision, inv work →
      Relinked eventId before after revision → insertLinkRevision revision work.database.memory = .ok ((),changed) →
      inv (port.put changed work)) :
    Ensures inv (writeLinkRevision eventId before after key) fun _ => True := by
  unfold writeLinkRevision
  dsimp only
  split
  · exact ensuresPure trivial
  · rename_i changed
    refine ensuresStatement fun work a after start taken => ?_
    split at taken <;> cases taken
    refine ⟨kept work _ _ start ⟨rfl,listed,rfl,rfl,rfl,fun same => changed ?_⟩ ‹_›,trivial⟩
    have here : (before.find? (keyOf · == key)).isSome = true := same.1
    have there : (after.find? (keyOf · == key)).isSome = true := same.2.1
    rw [here,there,beq_iff_eq.mpr same.2.2]
    rfl

/- The history grows by one event, the revisions and nothing else; the memories and the links stay. -/
theorem writeHistoryOk {eventId : String} {request : Request} {run : Option Run} {p : Prepared}
    {before after : Records} {beforeLinks afterLinks : List MemoryLink} {oracle session ended}
    (ran : writeHistory env eventId request run p.operation before after beforeLinks afterLinks oracle session =
      (.ok (),ended)) :
    ∃ event records links, event.id = eventId ∧ Witnesses request p run event ∧
      Beside session.data.database.memory ended.data.database.memory ∧
      (∀ revision ∈ records, Revised port env.toEnv Canonical.spaced eventId before after revision) ∧
      (∀ revision ∈ links, Relinked eventId beforeLinks afterLinks revision) ∧
      chronicle ended.data.database.memory = (session.data.database.memory.events ++ [event],
        session.data.database.memory.recordRevisions ++ records,
        session.data.database.memory.linkRevisions ++ links) := by
  unfold writeHistory at ran
  obtain ⟨taskId,_,first,ran⟩ := bindOk.mp ran
  obtain ⟨task,rfl⟩ := liftOk.mp first
  obtain ⟨planId,_,second,ran⟩ := bindOk.mp ran
  obtain ⟨plan,rfl⟩ := liftOk.mp second
  obtain ⟨now,timed,observed,ran⟩ := bindOk.mp ran
  obtain ⟨_,eventful,inserted,ran⟩ := bindOk.mp ran
  obtain ⟨changed,taken,here⟩ := onTablesOk inserted
  have added := insertEventOk taken
  have same : timed.data = session.data := by rw [← (observeOk.mp observed).2]
  obtain ⟨_,noted,wrote,ran⟩ := bindOk.mp ran
  let event : MutationEvent := ⟨eventId,p.operation,request.actorKind,some "curation",taskId,some request.runId,planId,
    some request.actionId,run.bind (·.policyVersion),"applied",request.restoresEventId,some (eventKey request),now.text⟩
  let grown (t : Tables) (records : List RecordRevision) (links : List LinkRevision) : Prop :=
    chronicle t = (session.data.database.memory.events ++ [event],session.data.database.memory.recordRevisions ++ records,
      session.data.database.memory.linkRevisions ++ links)
  have begun : Beside session.data.database.memory eventful.data.database.memory ∧
      grown eventful.data.database.memory [] [] := by
    rw [here,added,same]
    exact ⟨⟨rfl,rfl⟩,by simp [grown,chronicle,port,event]⟩
  have noneListed {α : Type} {holds : α → Prop} : ∀ a ∈ ([] : List α), holds a := fun _ member => by cases member
  -- The revisions of the memories come first.
  have first := (@ensuresEach _ _ _ (fun work : Work => ∃ records, Beside session.data.database.memory work.database.memory ∧
      (∀ revision ∈ records, Revised port env.toEnv Canonical.spaced eventId before after revision) ∧
      grown work.database.memory records []) _ _ fun memoryId _ => ensuresRecordRevision fun work changed revision start
        revised _ taken => by
      obtain ⟨records,beside,every,shape⟩ := start
      have next := insertRecordRevisionOk taken
      subst next
      simp only [grown,chronicle,Prod.mk.injEq] at shape
      refine ⟨records ++ [revision],⟨beside.memories,beside.links⟩,fun other member => ?_,?_⟩
      · rcases List.mem_append.mp member with old | new
        · exact every other old
        · cases List.mem_singleton.mp new
          exact revised
      · simp only [grown,chronicle,port,shape,List.append_assoc]).kept wrote
    ⟨[],begun.1,noneListed,begun.2⟩
  obtain ⟨records,beside,every,shape⟩ := first.1
  have second := (@ensuresEach _ _ _ (fun work : Work => ∃ links, Beside session.data.database.memory work.database.memory ∧
      (∀ revision ∈ links, Relinked eventId beforeLinks afterLinks revision) ∧
      grown work.database.memory records links) _ _ fun key member => ensuresLinkRevision
        (List.mem_dedup.mp ((List.mem_insertionSort _).mp member)) fun work changed revision start relinked taken => by
      obtain ⟨links,beside,every,shape⟩ := start
      have next := insertLinkRevisionOk taken
      subst next
      simp only [grown,chronicle,Prod.mk.injEq] at shape
      refine ⟨links ++ [revision],⟨beside.memories,beside.links⟩,fun other member => ?_,?_⟩
      · rcases List.mem_append.mp member with old | new
        · exact every other old
        · cases List.mem_singleton.mp new
          exact relinked
      · simp only [grown,chronicle,port,shape,List.append_assoc]).kept ran ⟨[],beside,noneListed,shape⟩
  obtain ⟨links,beside,others,shape⟩ := second.1
  exact ⟨event,records,links,rfl,⟨rfl,rfl,task,rfl,plan,rfl,rfl,rfl,rfl⟩,beside,every,others,shape⟩

theorem applyActionRuns {request p callback oracle session receipt ended}
    (run : applyAction env config request p callback oracle session = (.ok receipt,ended))
    (begun : Started start session.data) :
    Nonempty (Applies env config request p callback oracle start session receipt ended) := by
  unfold applyAction at run
  obtain ⟨owner,_,owned,run⟩ := bindOk.mp run
  have begun := ((framedRunFor startedStill request).kept owned begun).1
  obtain ⟨_,_,checked,run⟩ := bindOk.mp run
  have begun := ((ensuresLift _).kept checked begun).1
  obtain ⟨_,_,lockedAll,run⟩ := bindOk.mp run
  have begun := ((ensuresEach fun memoryId _ => framedLockTarget startedStill memoryId).kept lockedAll begun).1
  obtain ⟨before,_,looked,run⟩ := bindOk.mp run
  have selected : before = selectRecords p.targets start.database.memory := by
    rw [← (startedTables begun).1]
    exact (selectTables looked).1
  have begun := ((framedRead startedStill _).kept looked begun).1
  obtain ⟨_,_,fresh,run⟩ := bindOk.mp run
  have begun := ((framedCheckTokens env startedStill before p).kept fresh begun).1
  obtain ⟨_,_,allowed,run⟩ := bindOk.mp run
  have begun := ((framedCheckPreconditions env startedStill p request.preconditions).kept allowed begun).1
  obtain ⟨beforeLinks,opened,linked,run⟩ := bindOk.mp run
  have related : beforeLinks = linksOf p.targets start.database.memory := by
    rw [← (startedTables begun).1]
    exact (selectTables linked).1
  have begun := ((framedRead startedStill _).kept linked begun).1
  obtain ⟨result,returned,plays,run⟩ := bindOk.mp run
  have upTo : upToCallback env config request p callback oracle session = (.ok result,returned) :=
    bindOk.mpr ⟨_,_,owned,bindOk.mpr ⟨_,_,checked,bindOk.mpr ⟨_,_,lockedAll,bindOk.mpr ⟨_,_,looked,
      bindOk.mpr ⟨_,_,fresh,bindOk.mpr ⟨_,_,allowed,bindOk.mpr ⟨_,_,linked,plays⟩⟩⟩⟩⟩⟩⟩
  have unrecorded : chronicle returned.data.database.memory = chronicle start.database.memory :=
    ((ensuresPlay (fun command => framedPerform env config (unrecordedGuarded _) command (.inr fun _ => trivial))
      callback).kept plays (congrArg chronicle (startedTables begun).1)).1
  cases result with
  | none => exact absurd run raiseOk
  | some result =>
    dsimp only at run
    split at run
    · exact absurd run raiseOk
    split at run
    · exact absurd run raiseOk
    obtain ⟨_,staged,ran,run⟩ := bindOk.mp run
    have stay : staged.data = returned.data := ((@framedFailStage config (· = returned.data) _).kept ran rfl).1
    obtain ⟨touched,_,ran,run⟩ := bindOk.mp run
    obtain ⟨same,rfl⟩ := inspectOk.mp ran
    subst same
    obtain ⟨afterIds,_,ran,run⟩ := bindOk.mp run
    obtain ⟨canonical,rfl⟩ := liftOk.mp ran
    obtain ⟨after,_,ran,run⟩ := bindOk.mp run
    obtain ⟨selectedAfter,again⟩ := selectTables ran
    rw [stay] at selectedAfter again canonical
    obtain ⟨afterLinks,_,ran,run⟩ := bindOk.mp run
    obtain ⟨relatedAfter,once⟩ := selectTables ran
    rw [again] at relatedAfter once
    obtain ⟨now,_,ran,run⟩ := bindOk.mp run
    have observed := (observeOk.mp ran).2
    obtain ⟨_,_,ran,run⟩ := bindOk.mp run
    obtain ⟨_,rfl⟩ := liftOk.mp ran
    obtain ⟨_,_,ran,run⟩ := bindOk.mp run
    obtain ⟨_,rfl⟩ := liftOk.mp ran
    obtain ⟨_,repaired,ran,run⟩ := bindOk.mp run
    have closed : Closed port (fun before after => Beside before after ∧ Unrecorded before after) fun work : Work =>
        Beside returned.data.database.memory work.database.memory ∧
          chronicle work.database.memory = chronicle start.database.memory :=
      fun work after here step => ⟨here.1.trans step.1,step.2.trans here.2⟩
    have noted := ((closedWriteRepairIntents closed (fun intent t a after ran =>
      ⟨notesBeside (notesInsertRepairIntent intent t a after ran),unrecordedRepairIntent intent t a after ran⟩)
      config.embeddingModel before after).kept ran (by rw [← observed,once]; exact ⟨⟨rfl,rfl⟩,unrecorded⟩)).1
    obtain ⟨_,mended,ran,run⟩ := bindOk.mp run
    have mend : mended.data = repaired.data := ((@framedFailStage config (· = repaired.data) _).kept ran rfl).1
    rw [← mend] at noted
    obtain ⟨_,recorded,writes,run⟩ := bindOk.mp run
    obtain ⟨_,written,ran,run⟩ := bindOk.mp run
    have last : written.data = recorded.data := ((@framedFailStage config (· = recorded.data) "history").kept ran rfl).1
    obtain ⟨_,_,ran,run⟩ := bindOk.mp run
    obtain ⟨_,rfl⟩ := liftOk.mp ran
    obtain ⟨_,_,ran,run⟩ := bindOk.mp run
    obtain ⟨_,rfl⟩ := liftOk.mp ran
    obtain ⟨_,_,ran,run⟩ := bindOk.mp run
    obtain ⟨_,rfl⟩ := liftOk.mp ran
    obtain ⟨_,_,ran,run⟩ := bindOk.mp run
    obtain ⟨_,rfl⟩ := observeOk.mp ran
    obtain ⟨rfl,rfl⟩ := pureOk.mp run
    rw [selected,related,selectedAfter,relatedAfter] at writes
    exact ⟨⟨opened,begun,some result,returned,plays,upTo,unrecorded,afterIds,canonical,owner,now.uuid,rfl,mended,
      noted.1,noted.2,recorded,writes,last⟩⟩

/- All that an action reads and writes around its callback. -/
theorem recordedApplyAction {inv : Work → Prop} {request p callback oracle}
    (played : ∀ session result after, callback.play (perform env config) oracle session = (.ok result,after) →
      Started start session.data → inv after.data) {session receipt ended}
    (run : applyAction env config request p callback oracle session = (.ok receipt,ended))
    (begun : Started start session.data) :
    ∃ middle, inv middle ∧ Nonempty (Recorded env request p start.database.memory middle ended.data.database.memory
      receipt) := by
  obtain ⟨applies⟩ := applyActionRuns run begun
  obtain ⟨event,records,links,named,witnesses,beside,revised,relinked,shape⟩ := writeHistoryOk applies.writes
  have earlier := applies.unwritten
  simp only [chronicle,Prod.mk.injEq] at earlier
  rw [earlier.1,earlier.2.1,earlier.2.2,← applies.last] at shape
  rw [← applies.last] at beside
  refine ⟨applies.returned.data,played _ _ _ applies.plays applies.begun,⟨⟨applies.beside.trans beside,applies.afterIds,
    applies.touched,applies.run,event,witnesses,by rw [named]; exact applies.receiptEvent,records,?_,links,?_,shape⟩⟩⟩
  · rw [named]
    exact revised
  · rw [named]
    exact relinked

theorem recordedBody {inv : Work → Prop} {request p callback oracle}
    (played : ∀ session result after, callback.play (perform env config) oracle session = (.ok result,after) →
      Started start session.data → inv after.data) {session receipt ended}
    (run : body env config request p callback oracle session = (.ok (.commit receipt),ended))
    (begun : Started start session.data) :
    ∃ middle, inv middle ∧ Nonempty (Recorded env request p start.database.memory middle ended.data.database.memory
      receipt) := by
  unfold body at run
  obtain ⟨existing,looked,first,run⟩ := bindOk.mp run
  rw [(selectOk first).2] at begun
  cases existing with
  | some existing =>
    obtain ⟨_,_,_,run⟩ := bindOk.mp run
    cases (pureOk.mp run).1
  | none =>
    obtain ⟨made,mutated,changed,run⟩ := bindOk.mp run
    obtain ⟨_,inserted,insertion,run⟩ := bindOk.mp run
    obtain ⟨_,staged,stage,run⟩ := bindOk.mp run
    obtain ⟨same,finished⟩ := pureOk.mp run
    cases same
    have last : staged.data = inserted.data := ((@framedFailStage config (· = inserted.data) _).kept stage rfl).1
    rw [← finished,last,(insertReceiptOk insertion).2]
    exact recordedApplyAction played changed begun

/- A transaction that answers has committed, or had committed before. -/
theorem recordedTransaction {inv : Work → Prop} {attempt : Attempt} {p database receipt after}
    (played : ∀ session result after, attempt.callback.play (perform env attempt.config) attempt.oracle session =
      (.ok result,after) → Started ⟨database,p.targets,[],[]⟩ session.data → inv after.data)
    (run : runTransaction env attempt p database = (.ok receipt,after)) :
    (Committed env attempt.request p database after receipt ∧ ∃ middle, inv middle ∧
      Nonempty (Recorded env attempt.request p database.memory middle after.memory receipt)) ∨
    getReceipt attempt.request.runId attempt.request.actionId database.curation = some receipt ∧
      Matches env receipt attempt.request p ∧ after = database := by
  unfold runTransaction at run
  simp only [Prod.mk.injEq] at run
  rcases ended : transaction (body env attempt.config attempt.request p attempt.callback) attempt.oracle
    ⟨database,p.targets,[],[]⟩ with ⟨answer,work⟩
  rw [ended] at run
  cases answer with
  | error raised => cases run.1
  | ok stored =>
    cases run.1
    rw [← run.2]
    rcases transactionOk ended with ⟨begun,session,began,ran,rfl⟩ | ⟨⟨begun,session,began,ran⟩,rfl⟩
    · have committed := bodyCommitted env attempt.config ran
      rw [began] at committed
      exact .inl ⟨committed,recordedBody played ran (by rw [began]; exact startedSelf)⟩
    · have replayed := bodyReplayed env attempt.config ran
      rw [began] at replayed
      exact .inr ⟨replayed.1,replayed.2,rfl⟩

end McpMemory.Curation
