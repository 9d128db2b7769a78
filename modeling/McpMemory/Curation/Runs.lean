import McpMemory.Curation.Frames
import McpMemory.Lib.Interleave

/-! What a call of `execute_action` can do to the database, and the runs in which such
calls take their two steps in any order. -/
namespace McpMemory.Curation
open Memory Transaction Interleave

variable (env : Env) (config : Config)

theorem applyActionReceipt {request p callback oracle session receipt after}
    (run : applyAction env config request p callback oracle session = (.ok receipt,after)) :
    ∃ intentHash affectedIds beforeToken afterToken eventId appliedAt descriptor,
      actionIntentHash env (intentOf request p) = .ok intentHash ∧
      receipt = executed request p intentHash affectedIds beforeToken afterToken eventId appliedAt descriptor := by
  unfold applyAction at run
  obtain ⟨_,_,_,run⟩ := bindOk.mp run
  obtain ⟨_,_,_,run⟩ := bindOk.mp run
  obtain ⟨_,_,_,run⟩ := bindOk.mp run
  obtain ⟨_,_,_,run⟩ := bindOk.mp run
  obtain ⟨_,_,_,run⟩ := bindOk.mp run
  obtain ⟨_,_,_,run⟩ := bindOk.mp run
  obtain ⟨_,_,_,run⟩ := bindOk.mp run
  obtain ⟨result,_,_,run⟩ := bindOk.mp run
  cases result with
  | none => exact absurd run raiseOk
  | some result =>
    dsimp only at run
    split at run
    · exact absurd run raiseOk
    split at run
    · exact absurd run raiseOk
    obtain ⟨_,_,_,run⟩ := bindOk.mp run
    obtain ⟨_,_,_,run⟩ := bindOk.mp run
    obtain ⟨_,_,_,run⟩ := bindOk.mp run
    obtain ⟨_,_,_,run⟩ := bindOk.mp run
    obtain ⟨_,_,_,run⟩ := bindOk.mp run
    obtain ⟨_,_,_,run⟩ := bindOk.mp run
    obtain ⟨_,_,_,run⟩ := bindOk.mp run
    obtain ⟨_,_,_,run⟩ := bindOk.mp run
    obtain ⟨_,_,_,run⟩ := bindOk.mp run
    obtain ⟨_,_,_,run⟩ := bindOk.mp run
    obtain ⟨_,_,_,run⟩ := bindOk.mp run
    obtain ⟨_,_,_,run⟩ := bindOk.mp run
    obtain ⟨_,_,_,run⟩ := bindOk.mp run
    obtain ⟨_,_,_,run⟩ := bindOk.mp run
    obtain ⟨intentHash,_,hashed,run⟩ := bindOk.mp run
    obtain ⟨_,_,_,run⟩ := bindOk.mp run
    exact ⟨intentHash,_,_,_,_,_,_,(liftOk.mp hashed).1,(pureOk.mp run).1.symm⟩

/- What a transaction that committed did, outside the memory tables and the runs. -/
structure Committed (request : Request) (p : Prepared) (before after : Database) (receipt : ActionReceipt) :
    Prop where
  fresh : ∀ row ∈ before.curation.receipts, ¬ isReceipt request.runId request.actionId row
  key : receipt.runId = request.runId ∧ receipt.actionId = request.actionId
  intent : ∃ intentHash, receipt.intentHash = some intentHash ∧
    actionIntentHash env (intentOf request p) = .ok intentHash
  receipts : after.curation.receipts = before.curation.receipts ++ [receipt]
  elsewhere : after.journal = before.journal ∧ after.ingress = before.ingress ∧
    after.protections = before.protections

def steady (work : Work) := (work.database.curation.receipts,work.database.journal,work.database.ingress,
  work.database.protections)

theorem steadyFrame (value) : Frame (fun _ => True) (fun _ => True) (steady · = value) where
  guards := closedBlind (fun _ _ => rfl) _ value
  notes := closedBlind (fun _ _ => rfl) _ value
  ledger _ _ same start := by simpa only [steady,same] using start
  touched _ _ start := start
  newIds _ _ _ start := start
  access _ _ _ _ := trivial
  within _ _ := trivial
  external _ _ := trivial

theorem insertReceiptOk {receipt oracle session after}
    (run : insertReceipt receipt oracle session = (.ok (),after)) :
    (∀ row ∈ session.data.database.curation.receipts, ¬ isReceipt receipt.runId receipt.actionId row) ∧
    after.data.database = { session.data.database with curation := { session.data.database.curation with
      receipts := session.data.database.curation.receipts ++ [receipt] } } := by
  have taken := statementOk run
  dsimp only at taken
  split at taken
  · cases taken
  · rename_i absent
    split at taken
    · cases taken
    · simp only [Except.ok.injEq,Prod.mk.injEq,true_and] at taken
      refine ⟨fun row member same => absent (List.any_eq_true.mpr ⟨row,member,same⟩),by rw [← taken]⟩

/- A transaction that commits keeps, up to its receipt, what its callback establishes. -/
theorem framedBody {before inv : Work → Prop} (still : Still before) (aside : Aside inv) {request p callback}
    {oracle} (played : ∀ session result after, callback.play (perform env config) oracle session =
      (.ok result,after) → before session.data → inv after.data) {session receipt after}
    (run : body env config request p callback oracle session = (.ok (.commit receipt),after))
    (start : before session.data) : ∃ work, inv work ∧ after.data.database = { work.database with
      curation := { work.database.curation with receipts := work.database.curation.receipts ++ [receipt] } } := by
  unfold body at run
  obtain ⟨existing,looked,first,run⟩ := bindOk.mp run
  rw [(selectOk first).2] at start
  cases existing with
  | some existing =>
    obtain ⟨_,_,_,run⟩ := bindOk.mp run
    cases (pureOk.mp run).1
  | none =>
    obtain ⟨made,mutated,changed,run⟩ := bindOk.mp run
    obtain ⟨_,inserted,insertion,run⟩ := bindOk.mp run
    obtain ⟨_,staged,stage,run⟩ := bindOk.mp run
    have kept : staged.data = inserted.data := ((@framedFailStage config (· = inserted.data) _).kept stage rfl).1
    obtain ⟨same,ended⟩ := pureOk.mp run
    cases same
    exact ⟨mutated.data,framedApplyAction env config still aside played changed start,by
      rw [← ended,kept,(insertReceiptOk insertion).2]⟩

theorem framedTransaction {before inv : Work → Prop} (still : Still before) (aside : Aside inv) {attempt : Attempt}
    {p database} (played : ∀ session result after, attempt.callback.play (perform env attempt.config) attempt.oracle
      session = (.ok result,after) → before session.data → inv after.data) (start : before ⟨database,p.targets,[],[]⟩) :
    (runTransaction env attempt p database).2.memory = database.memory ∨
      ∃ work, inv work ∧ (runTransaction env attempt p database).2.memory = work.database.memory := by
  unfold runTransaction
  rcases ended : transaction (body env attempt.config attempt.request p attempt.callback) attempt.oracle
    ⟨database,p.targets,[],[]⟩ with ⟨answer,work⟩
  cases answer with
  | error raised => exact .inl (by rw [transactionError ended])
  | ok stored =>
    rcases transactionOk ended with ⟨begun,session,began,ran,rfl⟩ | ⟨_,rfl⟩
    · obtain ⟨last,kept,same⟩ := framedBody env attempt.config still aside played ran (by rwa [began])
      exact .inr ⟨last,kept,by simp only [same]⟩
    · exact .inl rfl

theorem bodyCommitted {request p callback oracle session receipt after}
    (run : body env config request p callback oracle session = (.ok (.commit receipt),after)) :
    Committed env request p session.data.database after.data.database receipt := by
  unfold body at run
  obtain ⟨existing,looked,first,run⟩ := bindOk.mp run
  have start := (selectOk first).2
  cases existing with
  | some existing =>
    obtain ⟨_,_,_,run⟩ := bindOk.mp run
    cases (pureOk.mp run).1
  | none =>
    obtain ⟨made,mutated,changed,run⟩ := bindOk.mp run
    obtain ⟨_,inserted,insertion,run⟩ := bindOk.mp run
    obtain ⟨_,staged,stage,run⟩ := bindOk.mp run
    obtain ⟨same,ended⟩ := pureOk.mp run
    cases same
    have framed := framedApplyAction env config (steadyFrame (steady looked.data)).still (steadyFrame _).toAside (fun _ _ _ ran start =>
      ((ensuresPlay (fun command => framedPerform env config (steadyFrame _).guarded command (.inr fun _ => trivial))
        callback).kept ran start).1) changed rfl
    simp only [steady,Prod.mk.injEq] at framed
    obtain ⟨fresh,rows⟩ := insertReceiptOk insertion
    obtain ⟨intentHash,_,_,_,_,_,_,hashed,rfl⟩ := applyActionReceipt env config changed
    have last : staged.data = inserted.data :=
      ((@framedFailStage config (· = inserted.data) _).kept stage rfl).1
    rw [← ended,last,rows,start]
    rw [framed.1] at fresh
    exact ⟨fresh,⟨rfl,rfl⟩,⟨intentHash,rfl,hashed⟩,by rw [framed.1],framed.2⟩

theorem bodyReplayed {request p callback oracle session receipt after}
    (run : body env config request p callback oracle session = (.ok (.rollback receipt),after)) :
    getReceipt request.runId request.actionId session.data.database.curation = some receipt ∧
    Matches env receipt request p := by
  unfold body at run
  obtain ⟨existing,looked,first,run⟩ := bindOk.mp run
  have found := (selectOk first).1
  cases existing with
  | some existing =>
    obtain ⟨_,_,checked,run⟩ := bindOk.mp run
    cases (pureOk.mp run).1
    exact ⟨found,(replayMatches env).mp (liftOk.mp checked).1⟩
  | none =>
    obtain ⟨_,_,_,run⟩ := bindOk.mp run
    obtain ⟨_,_,_,run⟩ := bindOk.mp run
    obtain ⟨_,_,_,run⟩ := bindOk.mp run
    cases (pureOk.mp run).1

end McpMemory.Curation
