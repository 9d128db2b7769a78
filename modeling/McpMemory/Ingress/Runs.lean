import McpMemory.Ingress.Execute
import McpMemory.Lib.Interleave

/-! What a call of `execute` can do to the database, and the runs in which such calls
and the calls of the journal take their steps in any order. -/
namespace McpMemory.Ingress
open Memory Text Transaction Interleave

variable (env : Env) (config : Config)

theorem keepsFailStage {γ : Type} {view : Work → γ} (stage : String) : Keeps view (failStage config stage) := by
  refine keepsBind keepsHook fun _ => ?_
  cases config.faultStage.map (replaceChar '-' '_') with
  | none => exact keepsPure ()
  | some fault =>
    dsimp only
    split
    · exact keepsRaise _
    · exact keepsPure ()

/- Up to the receipt only the memory tables change. -/

theorem keepsWriteHistory (eventId actionId operation : String) (before after : Records) :
    Keeps outside (writeHistory env eventId actionId operation before after) :=
  keepsBind keepsObserve fun _ => keepsBind (keepsOnTables blind _) fun _ => keepsBind (keepsLift _) fun _ =>
    keepsEach fun _ _ => keepsWriteRecordRevision blind _ _ _ _ _

theorem keepsApplyMutation (p : Prepared) (callback : Callback) (createdAt : String) :
    Keeps outside (applyMutation env config p callback createdAt) := by
  refine keepsBind (keepsFailStage config _) fun _ => keepsBind (keepsOnTables blind _) fun before =>
    keepsBind (keepsCallback env callback) fun result => ?_
  cases result with
  | none => exact keepsRaise _
  | some result =>
    dsimp only
    split
    · exact keepsRaise _
    · exact keepsBind (keepsFailStage config _) fun _ => keepsBind (keepsInspect _) fun _ =>
        keepsBind (keepsLift _) fun _ => keepsBind (keepsOnTables blind _) fun after =>
        keepsBind keepsObserve fun _ => keepsBind (keepsWriteRepairIntents blind _ _ _) fun _ =>
        keepsBind (keepsFailStage config _) fun _ => keepsBind (keepsWriteHistory env _ _ _ _ _) fun _ =>
        keepsBind (keepsFailStage config _) fun _ => keepsBind keepsObserve fun _ =>
        keepsBind (keepsLift _) fun _ => keepsBind (keepsLift _) fun _ =>
        keepsBind (keepsFailStage config _) fun _ => keepsPure _

theorem applyMutationReceipt {p callback createdAt oracle session receipt after}
    (run : applyMutation env config p callback createdAt oracle session = (.ok receipt,after)) :
    ∃ terminalizedAt evidenceId beforeTokens afterTokens,
      receipt = applied p createdAt terminalizedAt evidenceId beforeTokens afterTokens := by
  unfold applyMutation at run
  obtain ⟨_,_,_,run⟩ := bindOk.mp run
  obtain ⟨before,_,_,run⟩ := bindOk.mp run
  obtain ⟨result,_,_,run⟩ := bindOk.mp run
  cases result with
  | none => exact absurd run raiseOk
  | some result =>
    dsimp only at run
    split at run
    · exact absurd run raiseOk
    · obtain ⟨_,_,_,run⟩ := bindOk.mp run
      obtain ⟨_,_,_,run⟩ := bindOk.mp run
      obtain ⟨_,_,_,run⟩ := bindOk.mp run
      obtain ⟨_,_,_,run⟩ := bindOk.mp run
      obtain ⟨event,_,_,run⟩ := bindOk.mp run
      obtain ⟨_,_,_,run⟩ := bindOk.mp run
      obtain ⟨_,_,_,run⟩ := bindOk.mp run
      obtain ⟨_,_,_,run⟩ := bindOk.mp run
      obtain ⟨_,_,_,run⟩ := bindOk.mp run
      obtain ⟨now,_,_,run⟩ := bindOk.mp run
      obtain ⟨beforeTokens,_,_,run⟩ := bindOk.mp run
      obtain ⟨afterTokens,_,_,run⟩ := bindOk.mp run
      obtain ⟨_,_,_,run⟩ := bindOk.mp run
      exact ⟨now.text,_,beforeTokens,afterTokens,(pureOk.mp run).1.symm⟩

/- The coverage table after the items were assigned. -/
structure Assigned (items before after : List SourceCoverage) : Prop where
  kept : ∀ row ∈ before, row ∈ after
  origin : ∀ row ∈ after, row ∈ before ∨ row ∈ items
  settled : ∀ item ∈ items, ∃ row ∈ after,
    row.entryId = item.entryId ∧ row.actionId = item.actionId ∧ row.outcome = item.outcome
  unique : Table.UniqueBy (·.entryId) before → Table.UniqueBy (·.entryId) after

def beside (work : Work) := (work.database.memory,work.database.journal,work.database.ingress.receipts,
  work.database.curation,work.database.protections)

theorem keepsAssignCoverage (item : SourceCoverage) : Keeps beside (assignCoverage item) := by
  refine keepsBind (keepsWrite fun work => ?_) fun _ => keepsBind (keepsSelect _) fun stored => ?_
  · unfold insertCoverage
    split <;> rfl
  · cases stored with
    | none => exact keepsRaise _
    | some stored =>
      dsimp only
      split
      · exact keepsRaise _
      · exact keepsPure ()

theorem insertCoverageUnique {item : SourceCoverage} {evidence : Evidence}
    (unique : Table.UniqueBy (·.entryId) evidence.coverage) :
    Table.UniqueBy (·.entryId) (insertCoverage item evidence).coverage := by
  unfold insertCoverage
  split
  · exact unique
  · rename_i absent
    refine Table.insertUnique (fun row member same => absent ?_) unique
    exact List.any_eq_true.mpr ⟨row,member,by simpa using same⟩

theorem assignCoverageOk {item oracle session after}
    (run : assignCoverage item oracle session = (.ok (),after)) :
    Assigned [item] session.data.database.ingress.coverage after.data.database.ingress.coverage := by
  unfold assignCoverage at run
  obtain ⟨_,inserted,first,run⟩ := bindOk.mp run
  obtain ⟨stored,found,second,run⟩ := bindOk.mp run
  have insertion := writeOk first
  obtain ⟨look,same⟩ := selectOk second
  cases stored with
  | none => exact absurd run raiseOk
  | some stored =>
    dsimp only at run
    split at run
    · exact absurd run raiseOk
    · rename_i agree
      rw [← (pureOk.mp run).2,← same]
      have rows : inserted.data.database.ingress = insertCoverage item session.data.database.ingress := by
        rw [← insertion]
      have present := Table.findSome look
      rw [rows] at present ⊢
      refine ⟨fun row member => ?_,fun row member => ?_,?_,insertCoverageUnique⟩
      · unfold insertCoverage
        split
        · exact member
        · exact List.mem_append_left _ member
      · unfold insertCoverage at member
        split at member
        · exact .inl member
        · exact List.mem_append.mp member
      · simp only [not_not,Prod.mk.injEq] at agree
        simpa using ⟨stored,present.1,by simpa using present.2,agree⟩

theorem assignAllOk {items oracle session after}
    (run : each assignCoverage items oracle session = (.ok (),after)) :
    Assigned items session.data.database.ingress.coverage after.data.database.ingress.coverage := by
  induction items generalizing session with
  | nil =>
    rw [← (pureOk.mp run).2]
    exact ⟨fun _ member => member,fun _ member => .inl member,by simp,id⟩
  | cons item rest ih =>
    obtain ⟨_,middle,first,run⟩ := bindOk.mp run
    have here := assignCoverageOk first
    have later := ih run
    refine ⟨fun row member => later.kept row (here.kept row member),fun row member => ?_,
      fun other member => ?_,fun unique => later.unique (here.unique unique)⟩
    · rcases later.origin row member with old | new
      · rcases here.origin row old with old | new
        · exact .inl old
        · exact .inr (List.mem_cons.mpr (.inl (List.mem_singleton.mp new)))
      · exact .inr (List.mem_cons_of_mem _ new)
    · rcases List.mem_cons.mp member with rfl | inside
      · obtain ⟨row,present,agree⟩ := here.settled other List.mem_cons_self
        exact ⟨row,later.kept row present,agree⟩
      · exact later.settled other inside

def besideJournal (work : Work) := (work.database.memory,work.database.ingress,work.database.curation,
  work.database.protections)

theorem moveOwnedNone {task recoverableUntil} {journal : Journal.Store} :
    moveOwned task [] recoverableUntil journal = journal := by
  dsimp only [moveOwned]
  rw [Table.updateNone fun entry _ => by simp [isOwned]]

/- The journal after the transaction moved the entries that its task claims. -/
def Reconciled (p : Prepared) (before after : Journal.Store) : Prop :=
  match p.journalTask with
  | none => after = before
  | some task => ∃ recoverableUntil, after = moveOwned task p.journalIds recoverableUntil before

theorem keepsReconcileJournal (p : Prepared) : Keeps besideJournal (reconcileJournal config p) := by
  unfold reconcileJournal
  cases p.journalTask with
  | none => exact keepsPure ()
  | some task =>
    refine keepsBind ?_ fun _ => keepsFailStage config _
    unfold moveClaimedJournalEntries
    split
    · exact keepsPure ()
    · refine keepsBind keepsObserve fun now => ?_
      split
      · exact keepsRaise _
      · exact keepsWrite fun _ => rfl

theorem moveClaimedOk {task ids oracle session after}
    (run : moveClaimedJournalEntries task ids oracle session = (.ok (),after)) :
    ∃ recoverableUntil, after.data.database.journal =
      moveOwned task ids recoverableUntil session.data.database.journal := by
  unfold moveClaimedJournalEntries at run
  split at run
  · rename_i none
    rw [← (pureOk.mp run).2,List.isEmpty_iff.mp none]
    exact ⟨0,moveOwnedNone.symm⟩
  · obtain ⟨now,middle,observed,run⟩ := bindOk.mp run
    split at run
    · exact absurd run raiseOk
    · rw [← (observeOk.mp observed).2] at run
      exact ⟨_,by rw [← writeOk run]⟩

theorem reconcileOk {p oracle session after}
    (run : reconcileJournal config p oracle session = (.ok (),after)) :
    Reconciled p session.data.database.journal after.data.database.journal := by
  unfold reconcileJournal at run
  unfold Reconciled
  cases named : p.journalTask with
  | none =>
    rw [named] at run
    rw [← (pureOk.mp run).2]
  | some task =>
    rw [named] at run
    obtain ⟨_,middle,moved,run⟩ := bindOk.mp run
    obtain ⟨recoverableUntil,same⟩ := moveClaimedOk moved
    have stage : Keeps (·.database.journal) (failStage config "journal_reconcile") := keepsFailStage config _
    have kept := stage.ok run
    exact ⟨recoverableUntil,kept.trans same⟩

/- What a call that committed did. -/
structure Committed (p : Prepared) (before after : Database) (receipt : ActionReceipt) : Prop where
  fresh : ∀ row ∈ before.ingress.receipts, row.actionId ≠ p.identity.actionId
  shape : ∃ createdAt terminalizedAt evidenceId beforeTokens afterTokens,
    receipt = applied p createdAt terminalizedAt evidenceId beforeTokens afterTokens
  receipts : after.ingress.receipts = before.ingress.receipts ++ [receipt]
  coverage : Assigned p.coverage before.ingress.coverage after.ingress.coverage
  journal : Reconciled p before.journal after.journal
  elsewhere : after.curation = before.curation ∧ after.protections = before.protections

theorem insertReceiptOk {receipt oracle session after}
    (run : insertReceipt receipt oracle session = (.ok (),after)) :
    (∀ row ∈ session.data.database.ingress.receipts, row.actionId ≠ receipt.actionId) ∧
    after.data.database = { session.data.database with ingress := { session.data.database.ingress with
      receipts := session.data.database.ingress.receipts ++ [receipt] } } := by
  have taken := statementOk run
  dsimp only at taken
  split at taken
  · cases taken
  · rename_i absent
    simp only [Except.ok.injEq,Prod.mk.injEq,true_and] at taken
    refine ⟨fun row member same => absent ?_,by rw [← taken]⟩
    exact List.any_eq_true.mpr ⟨row,member,by simpa using same⟩

/- Completing the receipt touches the reserved row alone. -/
theorem completeReserved {rows : List ActionReceipt} {receipt reserved}
    (fresh : ∀ row ∈ rows, row.actionId ≠ receipt.actionId) (same : reserved.actionId = receipt.actionId)
    (completed : complete receipt reserved = receipt) :
    Table.update (·.actionId == receipt.actionId) (complete receipt) (rows ++ [reserved]) =
      rows ++ [receipt] := by
  have old : Table.update (·.actionId == receipt.actionId) (complete receipt) rows = rows :=
    Table.updateNone fun row member => by simpa using fresh row member
  unfold Table.update at old ⊢
  rw [List.map_append,old]
  simp [same,completed]

theorem bodyCommitted {p callback oracle session receipt after}
    (run : body env config p callback oracle session = (.ok (.commit receipt),after)) :
    Committed p session.data.database after.data.database receipt := by
  unfold body at run
  obtain ⟨existing,looked,first,run⟩ := bindOk.mp run
  have start := (selectOk first).2
  cases existing with
  | some existing =>
    dsimp only at run
    split at run
    · exact absurd run raiseOk
    · cases (pureOk.mp run).1
  | none =>
    obtain ⟨now,timed,observed,run⟩ := bindOk.mp run
    obtain ⟨_,reserved,inserted,run⟩ := bindOk.mp run
    obtain ⟨made,mutated,changed,run⟩ := bindOk.mp run
    obtain ⟨_,updated,completed,run⟩ := bindOk.mp run
    obtain ⟨_,covered,assigned,run⟩ := bindOk.mp run
    obtain ⟨_,settled,reconciled,run⟩ := bindOk.mp run
    obtain ⟨same,ended⟩ := pureOk.mp run
    cases same
    have begun : timed.data = session.data := by rw [start,← (observeOk.mp observed).2]
    obtain ⟨fresh,insertion⟩ := insertReceiptOk inserted
    rw [begun] at fresh insertion
    rw [← ended]
    obtain ⟨terminalizedAt,evidenceId,beforeTokens,afterTokens,rfl⟩ := applyMutationReceipt env config changed
    have framed := (keepsApplyMutation env config p callback now.text).ok changed
    simp only [outside,Prod.mk.injEq,insertion] at framed
    have completion := congrArg Work.database (writeOk completed)
    have besides := (keepsEach fun item _ => keepsAssignCoverage item).ok assigned
    simp only [beside,Prod.mk.injEq,← completion] at besides
    have untouched := (keepsReconcileJournal config p).ok reconciled
    simp only [besideJournal,Prod.mk.injEq] at untouched
    have rows := assignAllOk assigned
    have moved := reconcileOk config reconciled
    rw [← completion] at rows
    rw [besides.2.1] at moved
    refine ⟨fresh,⟨_,_,_,_,_,rfl⟩,?_,?_,?_,?_⟩
    · rw [untouched.2.1,besides.2.2.1,framed.2.1]
      exact completeReserved fresh rfl rfl
    · rw [untouched.2.1]
      simpa only [framed.2.1] using rows
    · rwa [framed.1] at moved
    · exact ⟨untouched.2.2.1.trans (besides.2.2.2.1.trans framed.2.2.1),
        untouched.2.2.2.trans (besides.2.2.2.2.trans framed.2.2.2)⟩

theorem bodyReplayed {p callback oracle session receipt after}
    (run : body env config p callback oracle session = (.ok (.rollback receipt),after)) :
    receiptForAction p.identity.actionId session.data = some receipt ∧
    receipt.canonicalPayloadDigest = p.digest := by
  unfold body at run
  obtain ⟨existing,looked,first,run⟩ := bindOk.mp run
  have found := (selectOk first).1
  cases existing with
  | some existing =>
    dsimp only at run
    split at run
    · exact absurd run raiseOk
    · rename_i same
      cases (pureOk.mp run).1
      exact ⟨found,not_not.mp same⟩
  | none =>
    obtain ⟨_,_,_,run⟩ := bindOk.mp run
    obtain ⟨_,_,_,run⟩ := bindOk.mp run
    obtain ⟨_,_,_,run⟩ := bindOk.mp run
    obtain ⟨_,_,_,run⟩ := bindOk.mp run
    obtain ⟨_,_,_,run⟩ := bindOk.mp run
    obtain ⟨_,_,_,run⟩ := bindOk.mp run
    cases (pureOk.mp run).1

/- What a call answers and what it leaves. -/

theorem executeSource {attempt database answer after}
    (run : execute env attempt database = (answer,after)) :
    (∃ error, prepare env attempt.request = .error error ∧ answer = .error error ∧ after = database) ∨
    ∃ p work, prepare env attempt.request = .ok p ∧ after = work.database ∧
      transaction (body env attempt.config p attempt.callback) attempt.oracle ⟨database,[]⟩ = (answer,work) := by
  unfold execute at run
  cases prepared : prepare env attempt.request with
  | error error =>
    rw [prepared] at run
    cases run
    exact .inl ⟨error,rfl,rfl,rfl⟩
  | ok p =>
    rw [prepared] at run
    cases run
    exact .inr ⟨p,_,rfl,rfl,rfl⟩

theorem executeError {attempt database error after}
    (run : execute env attempt database = (.error error,after)) : after = database := by
  rcases executeSource env run with ⟨_,_,_,same⟩ | ⟨p,work,_,rfl,body⟩
  · exact same
  · rw [transactionError body]

/- An answer is a new receipt, committed now, or the stored one of a replay. -/
theorem executeOk {attempt database receipt after}
    (run : execute env attempt database = (.ok receipt,after)) :
    ∃ p, prepare env attempt.request = .ok p ∧ (Committed p database after receipt ∨
      receiptForAction p.identity.actionId ⟨database,[]⟩ = some receipt ∧
        receipt.canonicalPayloadDigest = p.digest ∧ after = database) := by
  rcases executeSource env run with ⟨_,_,wrong,_⟩ | ⟨p,work,prepared,rfl,ended⟩
  · cases wrong
  · refine ⟨p,prepared,?_⟩
    rcases transactionOk ended with ⟨begun,session,start,ran,rfl⟩ | ⟨⟨begun,session,start,ran⟩,rfl⟩
    · have committed := bodyCommitted env attempt.config ran
      rw [start] at committed
      exact .inl committed
    · have replayed := bodyReplayed env attempt.config ran
      rw [start] at replayed
      exact .inr ⟨replayed.1,replayed.2,rfl⟩

/- The statements that a replay runs: BEGIN and the look-up of the receipt. -/
def Undisturbed (attempt : Attempt) : Prop :=
  (attempt.oracle 0).fault = none ∧ (attempt.oracle 1).fault = none

instance (attempt : Attempt) : Decidable (Undisturbed attempt) := by unfold Undisturbed; infer_instance

theorem executeReplay {attempt database p existing} (prepared : prepare env attempt.request = .ok p)
    (found : receiptForAction p.identity.actionId ⟨database,[]⟩ = some existing)
    (same : existing.canonicalPayloadDigest = p.digest) (undisturbed : Undisturbed attempt) :
    execute env attempt database = (.ok existing,database) := by
  unfold execute
  simp [prepared,transaction,hook,select,statement,undisturbed.1,undisturbed.2,bind,body,found,same,pure]

theorem executeConflict {attempt database p existing} (prepared : prepare env attempt.request = .ok p)
    (found : receiptForAction p.identity.actionId ⟨database,[]⟩ = some existing)
    (different : existing.canonicalPayloadDigest ≠ p.digest) :
    ∃ error, execute env attempt database = (.error error,database) ∧ (Undisturbed attempt →
      error = .identityConflict existing.actionId existing.canonicalPayloadDigest p.digest) := by
  cases run : execute env attempt database with
  | mk answer after =>
    cases answer with
    | error error =>
      cases executeError env run
      refine ⟨error,rfl,fun undisturbed => ?_⟩
      unfold execute at run
      simp [prepared,transaction,hook,select,statement,undisturbed.1,undisturbed.2,bind,body,found,different,
        raise] at run
      exact run.symm
    | ok receipt =>
      obtain ⟨q,again,ending⟩ := executeOk env run
      rw [prepared] at again
      cases again
      rcases ending with committed | ⟨stored,digest,_⟩
      · obtain ⟨present,named⟩ := Table.findSome found
        exact absurd (by simpa using named) (committed.fresh existing present)
      · rw [found] at stored
        cases stored
        exact absurd digest different

/- Runs. Each call of `execute` is one step, as its immediate transaction makes it; the
calls of the journal take theirs in between. -/

inductive Op where
  | journal (op : Journal.Op)
  | execute (attempt : Attempt)

inductive Call where
  | journal (call : Journal.Call)
  | execute (attempt : Attempt)
  | answered (answer : Except IngressError ActionReceipt)

def enter : Op → Call
  | .journal op => .journal (Journal.enter op)
  | .execute attempt => .execute attempt

/- History, never read by a call: the receipts in the order they were committed. -/
inductive Emitted where
  | journal (emitted : Journal.Emitted)
  | committed (receipt : ActionReceipt)
  deriving DecidableEq, Repr

def commits (database : Database) (answer : Except IngressError ActionReceipt) : List Emitted :=
  match answer with
  | .error _ => []
  | .ok receipt => if receipt ∈ database.ingress.receipts then [] else [.committed receipt]

def step (call : Call) (database : Database) : Call × Database × List Emitted :=
  match call with
  | .journal call =>
    let after := Journal.step call database.journal
    (.journal after.1,{ database with journal := after.2.1 },after.2.2.map .journal)
  | .execute attempt =>
    let after := execute env attempt database
    (.answered after.1,after.2,commits database after.1)
  | .answered _ => (call,database,[])

def ingress : Machine Op Call Database Emitted := ⟨enter,step env⟩

abbrev Schedule := List (Event Op)

/- Every reachable state: any memories and any journal, no ingress evidence, then any
calls advanced in any order. -/
def reached (database : Database) (events : Schedule) : World Call Database Emitted :=
  (ingress env).run (idle { database with ingress := .empty }) events

def receiptOf : Emitted → Option ActionReceipt
  | .journal _ => none
  | .committed receipt => some receipt

/- The receipts of a history, newest first. -/
def committedReceipts (trace : List Emitted) : List ActionReceipt := trace.filterMap receiptOf

/- One row for each action and for each entry id, and the receipts are the history. -/
structure Sound (database : Database) (trace : List Emitted) : Prop where
  actions : Table.UniqueBy (·.actionId) database.ingress.receipts
  entries : Table.UniqueBy (·.entryId) database.ingress.coverage
  history : committedReceipts trace = database.ingress.receipts.reverse

theorem journalCommits {emitted : List Journal.Emitted} :
    committedReceipts (emitted.map .journal) = [] := by
  simp [committedReceipts,receiptOf]

theorem committedFresh {p before after receipt} (committed : Committed p before after receipt) :
    receipt.actionId = p.identity.actionId ∧ receipt ∉ before.ingress.receipts := by
  obtain ⟨_,_,_,_,_,rfl⟩ := committed.shape
  exact ⟨rfl,fun member => committed.fresh _ member rfl⟩

theorem stepSound (call : Call) {database trace} (sound : Sound database trace) :
    Sound (step env call database).2.1 ((step env call database).2.2 ++ trace) := by
  cases call with
  | journal call =>
    refine ⟨sound.actions,sound.entries,?_⟩
    show committedReceipts ((Journal.step call database.journal).2.2.map .journal ++ trace) = _
    rw [committedReceipts,List.filterMap_append,← committedReceipts,journalCommits]
    exact sound.history
  | answered answer => exact sound
  | execute attempt =>
    rcases run : execute env attempt database with ⟨answer,after⟩
    simp only [step,run]
    cases answer with
    | error error =>
      cases executeError env run
      exact sound
    | ok receipt =>
      obtain ⟨p,_,committed | ⟨found,_,rfl⟩⟩ := executeOk env run
      · obtain ⟨named,absent⟩ := committedFresh committed
        refine ⟨?_,committed.coverage.unique sound.entries,?_⟩
        · rw [committed.receipts]
          refine Table.insertUnique (fun row member same => ?_) sound.actions
          exact committed.fresh row member (same.trans named)
        · rw [committed.receipts,List.reverse_append,← sound.history]
          simp [commits,absent,committedReceipts,receiptOf]
      · have present := (Table.findSome found).1
        simpa [commits,present] using sound

theorem reachedSound (database : Database) (events : Schedule) :
    Sound (reached env database events).store (reached env database events).trace :=
  @runKeeps _ _ _ _ (ingress env) Sound (fun call _ _ sound => stepSound env call sound) _ events
    ⟨List.nodup_nil,List.nodup_nil,rfl⟩

end McpMemory.Ingress
