import McpMemory.Curation.Runs

/-! Exactly-once curation actions. A call looks for a receipt, and where it finds none
runs its transaction as a later step; other calls may commit in between, which the
second look inside the transaction takes care of. -/
namespace McpMemory.Curation
open Memory Transaction Interleave

variable (env : Env)

inductive Call where
  | execute (attempt : Attempt)
  | transacting (attempt : Attempt) (p : Prepared)
  | answered (answer : Except ActionError ActionReceipt)

/- The receipts that this step commits. -/
def commits (database : Database) : Except ActionError ActionReceipt → List ActionReceipt
  | .error _ => []
  | .ok receipt => if receipt ∈ database.curation.receipts then [] else [receipt]

def step (call : Call) (database : Database) : Call × Database × List ActionReceipt :=
  match call with
  | .execute attempt => match prepare env attempt.request with
    | .error error => (.answered (.error error),database,[])
    | .ok p => match fastPath env attempt p database with
      | some answer => (.answered answer,database,[])
      | none => (.transacting attempt p,database,[])
  | .transacting attempt p =>
    let after := runTransaction env attempt p database
    (.answered after.1,after.2,commits database after.1)
  | .answered _ => (call,database,[])

def curation : Machine Attempt Call Database ActionReceipt := ⟨.execute,step env⟩

abbrev Schedule := List (Event Attempt)

/- Every reachable state: any memories and runs, no receipt, then any calls advanced in
any order. The trace holds the committed receipts, newest first. -/
def reached (database : Database) (events : Schedule) : World Call Database ActionReceipt :=
  (curation env).run (idle { database with curation := { database.curation with receipts := [] } }) events

def keyOfReceipt (receipt : ActionReceipt) : String × String := (receipt.runId,receipt.actionId)

structure Sound (database : Database) (trace : List ActionReceipt) : Prop where
  keys : Table.UniqueBy keyOfReceipt database.curation.receipts
  history : trace = database.curation.receipts.reverse

theorem isReceiptIff {runId actionId receipt} :
    isReceipt runId actionId receipt ↔ keyOfReceipt receipt = (runId,actionId) := by
  simp [isReceipt,keyOfReceipt]

theorem runTransactionError {attempt p database error after}
    (run : runTransaction env attempt p database = (.error error,after)) : after = database := by
  unfold runTransaction at run
  simp only [Prod.mk.injEq] at run
  rcases ended : transaction (body env attempt.config attempt.request p attempt.callback) attempt.oracle
    ⟨database,p.targets,[],[]⟩ with ⟨answer,work⟩
  rw [ended] at run
  cases answer with
  | error raised => rw [← run.2,transactionError ended]
  | ok receipt => cases run.1

/- An answer is a new receipt, committed now, or the stored one of a matching replay. -/
theorem runTransactionOk {attempt p database receipt after}
    (run : runTransaction env attempt p database = (.ok receipt,after)) :
    Committed env attempt.request p database after receipt ∨
    getReceipt attempt.request.runId attempt.request.actionId database.curation = some receipt ∧
      Matches env receipt attempt.request p ∧ after = database := by
  unfold runTransaction at run
  simp only [Prod.mk.injEq] at run
  rcases ended : transaction (body env attempt.config attempt.request p attempt.callback) attempt.oracle
    ⟨database,p.targets,[],[]⟩ with ⟨answer,work⟩
  rw [ended] at run
  cases answer with
  | error raised => cases run.1
  | ok stored =>
    cases run.1
    rw [← run.2]
    rcases transactionOk ended with ⟨begun,session,start,ran,rfl⟩ | ⟨⟨begun,session,start,ran⟩,rfl⟩
    · have committed := bodyCommitted env attempt.config ran
      rw [start] at committed
      exact .inl committed
    · have replayed := bodyReplayed env attempt.config ran
      rw [start] at replayed
      exact .inr ⟨replayed.1,replayed.2,rfl⟩

theorem stepSound (call : Call) {database trace} (sound : Sound database trace) :
    Sound (step env call database).2.1 ((step env call database).2.2 ++ trace) := by
  cases call with
  | answered answer => exact sound
  | execute attempt =>
    simp only [step]
    split
    · exact sound
    · split <;> exact sound
  | transacting attempt p =>
    rcases run : runTransaction env attempt p database with ⟨answer,after⟩
    simp only [step,run]
    cases answer with
    | error error =>
      cases runTransactionError env run
      exact sound
    | ok receipt =>
      rcases runTransactionOk env run with committed | ⟨found,_,rfl⟩
      · have named : keyOfReceipt receipt = (attempt.request.runId,attempt.request.actionId) :=
          Prod.ext committed.key.1 committed.key.2
        have absent : receipt ∉ database.curation.receipts := fun member =>
          committed.fresh receipt member (isReceiptIff.mpr named)
        refine ⟨?_,?_⟩
        · rw [committed.receipts]
          refine Table.insertUnique (fun row member same => ?_) sound.keys
          exact committed.fresh row member (isReceiptIff.mpr (same.trans named))
        · rw [committed.receipts,List.reverse_append,← sound.history]
          simp [commits,absent]
      · have present := (Table.findSome found).1
        simpa [commits,present] using sound

theorem reachedSound (database : Database) (events : Schedule) :
    Sound (reached env database events).store (reached env database events).trace :=
  @runKeeps _ _ _ _ (curation env) Sound (fun call _ _ sound => stepSound env call sound) _ events
    ⟨List.nodup_nil,rfl⟩

/- The statements that a replay runs: BEGIN and the look-up of the receipt. -/
def Undisturbed (attempt : Attempt) : Prop :=
  (attempt.oracle 0).fault = none ∧ (attempt.oracle 1).fault = none

theorem replayStored {attempt p database existing}
    (found : getReceipt attempt.request.runId attempt.request.actionId database.curation = some existing)
    (same : Matches env existing attempt.request p) (undisturbed : Undisturbed attempt) :
    runTransaction env attempt p database = (.ok existing,database) := by
  have checked := (replayMatches env).mpr same
  simp [runTransaction,transaction,hook,select,statement,undisturbed.1,undisturbed.2,bind,body,found,lift,
    checked,pure,Except.mapError]

theorem replayRefused {attempt p database existing}
    (found : getReceipt attempt.request.runId attempt.request.actionId database.curation = some existing)
    (different : ¬ Matches env existing attempt.request p) :
    ∃ error, runTransaction env attempt p database = (.error error,database) := by
  rcases run : runTransaction env attempt p database with ⟨answer,after⟩
  cases answer with
  | error error => cases runTransactionError env run; exact ⟨error,rfl⟩
  | ok receipt =>
    rcases runTransactionOk env run with committed | ⟨stored,same,_⟩
    · obtain ⟨present,named⟩ := Table.findSome found
      exact absurd named (committed.fresh existing present)
    · rw [found] at stored
      cases stored
      exact absurd same different

theorem fastPathStored {attempt p database existing}
    (found : getReceipt attempt.request.runId attempt.request.actionId database.curation = some existing)
    (same : Matches env existing attempt.request p) :
    fastPath env attempt p database = some (.ok existing) := by
  simp [fastPath,found,(replayMatches env).mpr same,Except.map]

theorem fastPathRefused {attempt p database existing}
    (found : getReceipt attempt.request.runId attempt.request.actionId database.curation = some existing)
    (different : ¬ Matches env existing attempt.request p) :
    ∃ error, fastPath env attempt p database = some (.error error) := by
  unfold fastPath
  rw [found,Option.map_some]
  cases checked : checkReplayIdentity env existing attempt.request p with
  | error error => exact ⟨error,rfl⟩
  | ok _ => exact absurd ((replayMatches env).mp checked) different

theorem receiptFound {database trace receipt} (sound : Sound database trace) (committed : receipt ∈ trace) :
    getReceipt receipt.runId receipt.actionId database.curation = some receipt := by
  rw [sound.history,List.mem_reverse] at committed
  cases look : getReceipt receipt.runId receipt.actionId database.curation with
  | none => simpa [isReceipt] using Table.findNone look receipt committed
  | some row =>
    obtain ⟨present,named⟩ := Table.findSome look
    rw [Table.equalOfKey sound.keys present committed (isReceiptIff.mp named)]

/- A step that raises changes nothing, and neither does one that commits no receipt. -/
theorem stepRaises {call : Call} {database error}
    (raised : (step env call database).1 = .answered (.error error)) :
    (step env call database).2.1 = database := by
  cases call with
  | answered answer => rfl
  | execute attempt =>
    simp only [step]
    split
    · rfl
    · split <;> rfl
  | transacting attempt p =>
    simp only [step,Call.answered.injEq] at raised ⊢
    exact runTransactionError env (Prod.ext raised rfl)

/- In every state of every run: the ledger holds the committed receipts, one for each run
and action id; a call for one of them answers with it when the stored request matches and
raises otherwise, in its first look as well as, had it looked before the commit, in its
transaction, and changes nothing; and a step that raises changes nothing at all. -/
theorem curationExactlyOnce (database : Database) (events : Schedule) :
    (reached env database events).store.curation.receipts = (reached env database events).trace.reverse ∧
    Table.UniqueBy keyOfReceipt (reached env database events).trace ∧
    (∀ receipt ∈ (reached env database events).trace, ∀ attempt p,
      prepare env attempt.request = .ok p → attempt.request.runId = receipt.runId →
      attempt.request.actionId = receipt.actionId →
      (Matches env receipt attempt.request p →
        step env (.execute attempt) (reached env database events).store =
          (.answered (.ok receipt),(reached env database events).store,[]) ∧
        (Undisturbed attempt → step env (.transacting attempt p) (reached env database events).store =
          (.answered (.ok receipt),(reached env database events).store,[]))) ∧
      (¬ Matches env receipt attempt.request p →
        (∃ error, step env (.execute attempt) (reached env database events).store =
          (.answered (.error error),(reached env database events).store,[])) ∧
        ∃ error, step env (.transacting attempt p) (reached env database events).store =
          (.answered (.error error),(reached env database events).store,[]))) ∧
    ∀ call error, (step env call (reached env database events).store).1 = .answered (.error error) →
      (step env call (reached env database events).store).2.1 = (reached env database events).store := by
  have sound := reachedSound env database events
  refine ⟨by rw [sound.history,List.reverse_reverse],?_,?_,fun _ _ => stepRaises env⟩
  · rw [sound.history]
    unfold Table.UniqueBy
    rw [List.map_reverse]
    exact List.nodup_reverse.mpr sound.keys
  · intro receipt committed attempt p prepared run action
    have found := receiptFound sound committed
    have present := (Table.findSome found).1
    rw [← run,← action] at found
    refine ⟨fun same => ⟨?_,fun undisturbed => ?_⟩,fun different => ⟨?_,?_⟩⟩
    · simp only [step,prepared,fastPathStored env found same]
    · simp only [step,replayStored env found same undisturbed,commits,if_pos present]
    · obtain ⟨error,refused⟩ := fastPathRefused env found different
      exact ⟨error,by simp only [step,prepared,refused]⟩
    · obtain ⟨error,refused⟩ := replayRefused env found different
      exact ⟨error,by simp only [step,refused,commits]⟩

end McpMemory.Curation
