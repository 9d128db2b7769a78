import McpMemory.Curation.ExactlyOnce
import McpMemory.Curation.Liveness

/-! Whether a pass of the reconciliation sets a run to APPLIED only where each of its receipts
was verified. A pass sees the first hundred receipts of a run, as they were when it listed them. -/
namespace McpMemory.Curation.Reconciliation
open Interleave Store Table Transaction

/- All receipts of a run are verified. -/
def AllVerified (c : Curating) (runId : String) : Prop :=
  ∀ receipt ∈ c.receipts, receipt.runId = runId → receipt.status = .verified

/- A pass has decided that the run was applied, and has not written it yet. -/
def Applying (runId : String) : Call → Prop
  | .pass _ (.ending turn finish (.started _)) => finish.outcome = .applied ∧ turn.run.runId = runId
  | _ => False

/- What a step must not do: list a run that has more receipts than are listed, or add a receipt
to a run that a pass is about to write. -/
def Whole (w : World Call Curating Emitted) : Call → Prop
  | .pass _ (.receipts turn) | .pass _ (.finalReceipts turn) =>
    (w.store.receipts.filter (·.runId == turn.run.runId)).length ≤ 100
  | .execute attempt => ∀ call ∈ w.calls, ¬ Applying attempt.request.runId call
  | _ => True

def WholeStep (w : World Call Curating Emitted) : Event Op → Prop
  | .start _ => True
  | .advance index => ∀ call ∈ w.calls[index]?, Whole w call

instance {runId call} : Decidable (Applying runId call) := match call with
  | .pass _ (.ending turn finish (.started _)) =>
    inferInstanceAs (Decidable (finish.outcome = .applied ∧ turn.run.runId = runId))
  | .pass _ (.ending _ _ (.updatingRun ..)) | .pass _ (.ending _ _ (.rereadingRun ..))
  | .pass _ (.ending _ _ (.conflicting _)) | .pass _ (.ending _ _ (.updatingReceipt ..))
  | .pass _ (.ending _ _ (.rereadingReceipt ..)) | .pass _ (.ending _ _ (.answered ..))
  | .pass _ .listing | .pass _ (.receipts _) | .pass _ (.checking ..) | .pass _ (.reading ..) | .pass _ (.settling ..)
  | .pass _ (.latest ..) | .pass _ (.finalReceipts _) | .pass _ (.asking _) | .pass _ (.missing ..) | .pass _ .finished
  | .handler .. | .queue _ | .execute _ | .createRun .. | .settle _ | .write _ | .done => .isFalse id

instance {w call} : Decidable (Whole w call) := match call with
  | .pass _ (.receipts turn) | .pass _ (.finalReceipts turn) =>
    inferInstanceAs (Decidable ((w.store.receipts.filter (·.runId == turn.run.runId)).length ≤ 100))
  | .execute attempt => inferInstanceAs (Decidable (∀ call ∈ w.calls, ¬ Applying attempt.request.runId call))
  | .pass _ .listing | .pass _ (.checking ..) | .pass _ (.reading ..) | .pass _ (.settling ..) | .pass _ (.latest ..)
  | .pass _ (.asking _) | .pass _ (.ending ..) | .pass _ (.missing ..) | .pass _ .finished
  | .handler .. | .queue _ | .createRun .. | .settle _ | .write _ | .done => .isTrue trivial

instance {w event} : Decidable (WholeStep w event) := match event with
  | .start _ => .isTrue trivial
  | .advance index => inferInstanceAs (Decidable (∀ call ∈ w.calls[index]?, Whole w call))

/- The verifier has accepted the receipt, or a restore has, or it was verified from the first. -/
def Accepted (first : Curating) (trace : List Emitted) (key : String × String) : Prop :=
  (∃ receipt, .judged receipt none ∈ trace ∧ receiptKey receipt = key) ∨ .restored key.1 key.2 ∈ trace ∨
    ∃ receipt ∈ first.receipts, receiptKey receipt = key ∧ receipt.status = .verified

variable {env : RecoveryEnv} {first c : Curating} {trace : List Emitted}

/- The calls of the store that occur: receipts are changed where they are unverified, and a
receipt that a call verifies was accepted. -/
def Backed (first : Curating) (trace : List Emitted) : StoreCall → Prop
  | .started (.putReceipt ..) => False
  | .started (.transitionReceipt runId actionId expectedState receipt)
  | .updatingReceipt runId actionId expectedState receipt => expectedState = .appliedUnverified ∧
    (receipt.status = .verified → Accepted first trace (runId,actionId))
  | _ => True

theorem acceptedMore {emitted key} (accepted : Accepted first trace key) : Accepted first (emitted ++ trace) key := by
  rcases accepted with ⟨receipt,member,same⟩ | member | known
  · exact .inl ⟨receipt,List.mem_append_right _ member,same⟩
  · exact .inr (.inl (List.mem_append_right _ member))
  · exact .inr (.inr known)

theorem backedMore {emitted} {call : StoreCall} (backed : Backed first trace call) : Backed first (emitted ++ trace) call := by
  unfold Backed at *
  split at backed
  · exact backed
  · exact ⟨backed.1,fun verified => acceptedMore (backed.2 verified)⟩
  · exact ⟨backed.1,fun verified => acceptedMore (backed.2 verified)⟩
  · trivial

theorem backedStep {call : StoreCall} {store : CurationStore} (backed : Backed first trace call) :
    Backed first trace (storeStep call store).1 := by
  unfold storeStep
  split
  · split
    · trivial
    · split <;> trivial
  · trivial
  · trivial
  · split <;> trivial
  · exact backed.elim
  · split
    · trivial
    · split <;> trivial
  · split
    · trivial
    · split
      · trivial
      · split
        · trivial
        · exact backed
  · dsimp only
    split <;> trivial
  · split <;> trivial
  · trivial

/- What a backed call of the store does to the receipts. -/
theorem backedReceipts {call : StoreCall} {store : CurationStore} (backed : Backed first trace call) :
    (storeStep call store).2.receipts = store.receipts ∨ ∃ runId actionId receipt,
      (storeStep call store).2.receipts =
        update (inStatus runId actionId .appliedUnverified) (receiptSet receipt) store.receipts ∧
      (receipt.status = .verified → Accepted first trace (runId,actionId)) := by
  unfold storeStep
  split
  · split
    · exact .inl rfl
    · split <;> exact .inl rfl
  · exact .inl rfl
  · exact .inl rfl
  · split <;> exact .inl rfl
  · exact backed.elim
  · split
    · exact .inl rfl
    · split <;> exact .inl rfl
  · split
    · exact .inl rfl
    · split
      · exact .inl rfl
      · split <;> exact .inl rfl
  · obtain ⟨rfl,accepted⟩ := backed
    dsimp only
    split
    · exact .inl rfl
    · exact .inr ⟨_,_,_,rfl,accepted⟩
  · split <;> exact .inl rfl
  · exact .inl rfl

theorem storeNext {call : StoreCall} {store : CurationStore} {op} : (storeStep call store).1 ≠ .started op := by
  unfold storeStep
  split
  · split
    · exact nofun
    · split <;> exact nofun
  · exact nofun
  · exact nofun
  · split <;> exact nofun
  · split
    · exact nofun
    · dsimp only
      split <;> exact nofun
  · split
    · exact nofun
    · split <;> exact nofun
  · split
    · exact nofun
    · split
      · exact nofun
      · split <;> exact nofun
  · dsimp only
    split <;> exact nofun
  · split <;> exact nofun
  · exact nofun

/- The calls that a call makes of the store. -/
def CallBacked (first : Curating) (trace : List Emitted) : Call → Prop
  | .pass _ (.settling _ _ _ call) | .pass _ (.ending _ _ call) | .handler _ (.moving _ call) | .handler _ (.ending call) =>
    Backed first trace call
  | .settle (.started (.transitionReceipt _ _ expectedState _)) => expectedState = .appliedUnverified
  | .settle call => Backed first trace call
  | _ => True

theorem callMore {emitted} {call : Call} (backed : CallBacked first trace call) : CallBacked first (emitted ++ trace) call := by
  unfold CallBacked at *
  split at backed
  · exact backedMore backed
  · exact backedMore backed
  · exact backedMore backed
  · exact backedMore backed
  · exact backed
  · exact backedMore backed
  · trivial

/- The states of a pass that write nothing and have decided nothing. -/
def Idle : Pass → Prop
  | .settling .. => False
  | .ending _ finish call => (∃ runId state outcome stamp, call = .started (.terminalizeRun runId state outcome stamp)) ∧
    finish.outcome ≠ .applied
  | _ => True

theorem idleBacked {clock pass} (idle : Idle pass) : CallBacked first trace (.pass clock pass) := by
  cases pass with
  | settling => exact idle.elim
  | ending turn finish call =>
    obtain ⟨⟨_,_,_,_,rfl⟩,_⟩ := idle
    trivial
  | listing | receipts | checking | reading | latest | finalReceipts | asking | missing | finished => trivial

theorem idleApplying {clock pass runId} (idle : Idle pass) : ¬ Applying runId (.pass clock pass) := by
  cases pass with
  | settling => exact idle.elim
  | ending turn finish call =>
    obtain ⟨⟨_,_,_,_,rfl⟩,apart⟩ := idle
    exact fun applying => apart applying.1
  | listing | receipts | checking | reading | latest | finalReceipts | asking | missing | finished => exact id

theorem nextRunIdle {todo : List CurationRun} : Idle (nextRun todo) := by
  induction todo with
  | nil => trivial
  | cons run rest ih =>
    unfold nextRun
    split
    · exact ih
    · trivial

section
variable {clock : Clock} {turn : Turn}

theorem terminalizeIdle {finish : Finish} (apart : finish.outcome ≠ .applied) : Idle (terminalize clock turn finish) :=
  ⟨⟨_,_,_,_,rfl⟩,apart⟩

theorem nextReceiptIdle {rest : List ActionReceipt} : Idle (nextReceipt clock turn rest) := by
  unfold nextReceipt
  split
  · trivial
  · split
    · trivial
    · exact terminalizeIdle nofun

theorem checkIdle {receipt rest} : Idle (check env clock turn receipt rest c) := by
  unfold check
  dsimp only
  split
  · exact terminalizeIdle nofun
  · split
    · exact terminalizeIdle nofun
    · split
      · exact nextReceiptIdle
      · split
        · split <;> trivial
        · split
          · exact terminalizeIdle nofun
          · trivial

theorem emptyIdle {tasks} : Idle (reconcileEmptyRun env clock turn tasks) := by
  unfold reconcileEmptyRun
  split
  · split
    · exact nextRunIdle
    · exact nextRunIdle
    all_goals exact terminalizeIdle nofun
  · split
    · exact terminalizeIdle nofun
    · exact nextRunIdle

/- Where all receipts are listed, a run is found applied only if all of them are verified. -/
theorem finalizeApplies (whole : (c.receipts.filter (·.runId == turn.run.runId)).length ≤ 100) :
    Idle (finalizeIfPossible clock turn (listReceipts turn.run.runId 100 c.ledger)).1 ∨
    (finalizeIfPossible clock turn (listReceipts turn.run.runId 100 c.ledger)).1 =
      terminalize clock turn (.finalized false) ∧ AllVerified c turn.run.runId := by
  have listed : listReceipts turn.run.runId 100 c.ledger = c.receipts.filter (·.runId == turn.run.runId) :=
    List.take_of_length_le (by simpa [Curating.ledger] using whole)
  unfold finalizeIfPossible
  split
  · exact .inl trivial
  · split
    · exact .inl nextRunIdle
    · cases failed : (listReceipts turn.run.runId 100 c.ledger).any (·.status != .verified) with
      | true => exact .inl (terminalizeIdle nofun)
      | false =>
        refine .inr ⟨rfl,fun receipt member same => ?_⟩
        rw [listed] at failed
        simpa using List.any_eq_false.mp failed receipt (List.mem_filter.mpr ⟨member,beq_iff_eq.mpr same⟩)

end

theorem finalizeBacked {clock : Clock} {turn : Turn} {receipts} :
    CallBacked first trace (.pass clock (finalizeIfPossible clock turn receipts).1) := by
  unfold finalizeIfPossible
  split
  · trivial
  · split
    · exact idleBacked nextRunIdle
    · trivial

theorem settleBacked {call : StoreCall} (backed : Backed first trace call) (next : ∀ op, call ≠ .started op) :
    CallBacked first trace (.settle call) := by
  cases call with
  | started op => exact absurd rfl (next op)
  | updatingRun | rereadingRun | conflicting | updatingReceipt | rereadingReceipt | answered => exact backed

theorem passBacked {clock : Clock} {pass : Pass} (backed : CallBacked first trace (.pass clock pass)) :
    CallBacked first ((passStep env clock pass c).2.2 ++ trace) (.pass clock (passStep env clock pass c).1) := by
  cases pass with
  | listing => exact idleBacked nextRunIdle
  | receipts turn =>
    unfold passStep
    dsimp only
    split
    · exact idleBacked (terminalizeIdle nofun)
    · split
      · exact finalizeBacked
      · exact idleBacked nextReceiptIdle
  | checking turn receipt rest => exact idleBacked checkIdle
  | reading turn current rest script =>
    cases script with
    | call memoryId next => trivial
    | fail error => exact idleBacked (terminalizeIdle nofun)
    | done verdict =>
      refine ⟨rfl,fun verified => .inl ⟨current,?_,rfl⟩⟩
      cases verdict with
      | none => exact List.mem_cons_self
      | some errorCode => cases verified
  | settling turn current rest call =>
    have next : Backed first trace (storeStep call c.ledger).1 := backedStep backed
    dsimp only [passStep]
    split
    · exact idleBacked nextReceiptIdle
    · trivial
    · exact idleBacked (terminalizeIdle nofun)
    · exact next
  | latest turn current rest =>
    unfold passStep
    dsimp only
    split
    · exact idleBacked (terminalizeIdle nofun)
    · exact idleBacked nextReceiptIdle
  | finalReceipts turn =>
    unfold passStep
    dsimp only
    split
    · exact idleBacked (terminalizeIdle nofun)
    · exact finalizeBacked
  | asking turn => exact idleBacked emptyIdle
  | ending turn finish call =>
    have next : Backed first trace (storeStep call c.ledger).1 := backedStep backed
    unfold passStep
    dsimp only
    split
    · exact idleBacked nextRunIdle
    · exact idleBacked nextRunIdle
    · trivial
    · exact backedMore next
  | missing turn finish =>
    unfold passStep
    dsimp only
    split
    · exact idleBacked nextRunIdle
    · exact idleBacked nextRunIdle
  | finished => trivial

theorem preparedBacked {stamp : String} {run : CurationRun} : CallBacked first trace (.handler stamp (prepareRun run)) := by
  unfold prepareRun
  split <;> trivial

theorem handlerBacked {stamp : String} {handler : Handler} (backed : CallBacked first trace (.handler stamp handler)) :
    CallBacked first ((handlerStep env stamp handler c).2.2 ++ trace) (.handler stamp (handlerStep env stamp handler c).1) := by
  cases handler with
  | claiming now workspace packet =>
    dsimp only [handlerStep]
    split
    · split <;> trivial
    · trivial
  | looking run | again run =>
    unfold handlerStep
    dsimp only
    split
    · exact preparedBacked
    · trivial
  | creating run =>
    unfold handlerStep
    dsimp only
    split
    · exact preparedBacked
    · trivial
  | moving run call =>
    have next : Backed first trace (storeStep call c.ledger).1 := backedStep backed
    dsimp only [handlerStep]
    split
    · split
      · exact preparedBacked
      · trivial
    · trivial
    · exact next
  | working run =>
    dsimp only [handlerStep]
    split <;> trivial
  | ending call =>
    have next : Backed first trace (storeStep call c.ledger).1 := backedStep backed
    dsimp only [handlerStep]
    split
    · trivial
    · exact next
  | finished => trivial

/- A restore has read the memories back before it settles its receipt. -/
theorem restoreBacked {call : StoreCall} (backed : CallBacked first trace (.settle call)) :
    Backed first ((step env (.settle call) c).2.2 ++ trace) call := by
  dsimp only [step]
  split
  · exact ⟨backed,fun _ => .inr (.inl List.mem_cons_self)⟩
  · rename_i other
    cases call with
    | started op =>
      cases op with
      | transitionReceipt => exact absurd rfl (other _ _ _ _)
      | transitionRun | terminalizeRun | putReceipt => exact backed
    | updatingRun | rereadingRun | conflicting | updatingReceipt | rereadingReceipt | answered => exact backed

theorem stepBacked {call : Call} (backed : CallBacked first trace call) :
    CallBacked first ((step env call c).2.2 ++ trace) (step env call c).1 := by
  cases call with
  | pass => exact passBacked backed
  | handler => exact handlerBacked backed
  | settle call => exact settleBacked (backedStep (restoreBacked backed)) fun op => storeNext
  | queue | execute | createRun | write | done => trivial

/- A pass changes the tables by the calls it makes of the store alone. -/
theorem listedStill {clock : Clock} {turn : Turn} : (passStep env clock (.receipts turn) c).2.1 = c ∧
    (passStep env clock (.finalReceipts turn) c).2.1 = c := by
  unfold passStep
  dsimp only
  constructor
  · split
    · rfl
    · split <;> rfl
  · split <;> rfl

theorem finalizeApplying {clock : Clock} {turn : Turn} {runId}
    (whole : (c.receipts.filter (·.runId == turn.run.runId)).length ≤ 100)
    (applying : Applying runId (.pass clock (finalizeIfPossible clock turn (listReceipts turn.run.runId 100 c.ledger)).1)) :
    AllVerified c runId := by
  have finalized : Idle (finalizeIfPossible clock turn (listReceipts turn.run.runId 100 c.ledger)).1 ∨
      (finalizeIfPossible clock turn (listReceipts turn.run.runId 100 c.ledger)).1 =
        terminalize clock turn (.finalized false) ∧ AllVerified c turn.run.runId := finalizeApplies whole
  rcases finalized with idle | ⟨same,all⟩
  · exact absurd applying (idleApplying idle)
  · rw [same] at applying
    exact applying.2 ▸ all

/- Only a pass that has listed all receipts of a run and found them verified goes on to apply it. -/
theorem passApplies {clock : Clock} {pass : Pass} {w : World Call Curating Emitted} (whole : Whole w (.pass clock pass))
    {runId} (applying : Applying runId (.pass clock (passStep env clock pass w.store).1)) :
    AllVerified (passStep env clock pass w.store).2.1 runId := by
  cases pass with
  | listing => exact absurd applying (idleApplying nextRunIdle)
  | receipts turn =>
    rw [listedStill.1]
    unfold passStep at applying
    dsimp only at applying
    split at applying
    · exact absurd applying (idleApplying (terminalizeIdle nofun))
    · split at applying
      · exact finalizeApplying whole applying
      · exact absurd applying (idleApplying nextReceiptIdle)
  | checking turn receipt rest => exact absurd applying (idleApplying checkIdle)
  | reading turn current rest script =>
    cases script with
    | call memoryId next => exact applying.elim
    | fail error => exact absurd applying (idleApplying (terminalizeIdle nofun))
    | done verdict => exact applying.elim
  | settling turn current rest call =>
    dsimp only [passStep] at applying
    split at applying
    · exact absurd applying (idleApplying nextReceiptIdle)
    · exact applying.elim
    · exact absurd applying (idleApplying (terminalizeIdle nofun))
    · exact applying.elim
  | latest turn current rest =>
    unfold passStep at applying
    dsimp only at applying
    split at applying
    · exact absurd applying (idleApplying (terminalizeIdle nofun))
    · exact absurd applying (idleApplying nextReceiptIdle)
  | finalReceipts turn =>
    rw [listedStill.2]
    unfold passStep at applying
    dsimp only at applying
    split at applying
    · exact absurd applying (idleApplying (terminalizeIdle nofun))
    · exact finalizeApplying whole applying
  | asking turn => exact absurd applying (idleApplying emptyIdle)
  | ending turn finish call =>
    unfold passStep at applying
    dsimp only at applying
    split at applying
    · exact absurd applying (idleApplying nextRunIdle)
    · exact absurd applying (idleApplying nextRunIdle)
    · exact applying.elim
    · unfold Applying at applying
      split at applying
      · rename_i same
        injection same with _ same
        injection same with _ _ started
        exact absurd started storeNext
      · exact applying.elim
  | missing turn finish =>
    unfold passStep at applying
    dsimp only at applying
    split at applying
    · exact absurd applying (idleApplying nextRunIdle)
    · exact absurd applying (idleApplying nextRunIdle)
  | finished => exact applying.elim

theorem stepApplies {call : Call} {w : World Call Curating Emitted} (whole : Whole w call)
    {runId} (applying : Applying runId (step env call w.store).1) : AllVerified (step env call w.store).2.1 runId := by
  cases call with
  | pass => exact passApplies whole applying
  | queue | handler | execute | createRun | settle | write | done => exact applying.elim

theorem runUnverified {attempt p database receipt after}
    (run : runTransaction env.actions attempt p database = (.ok receipt,after))
    (fresh : ∀ row ∈ database.curation.receipts, ¬ isReceipt attempt.request.runId attempt.request.actionId row) :
    receipt.status = .appliedUnverified := by
  unfold runTransaction at run
  simp only [Prod.mk.injEq] at run
  rcases ended : transaction (body env.actions attempt.config attempt.request p attempt.callback) attempt.oracle
    ⟨database,p.targets,[],[]⟩ with ⟨answer,work⟩
  rw [ended] at run
  cases answer with
  | error raised => cases run.1
  | ok stored =>
    cases run.1
    rcases transactionOk ended with ⟨begun,session,start,ran,rfl⟩ | ⟨⟨begun,session,start,ran⟩,rfl⟩
    · unfold body at ran
      obtain ⟨existing,looked,first,ran⟩ := bindOk.mp ran
      cases existing with
      | some existing =>
        obtain ⟨_,_,_,ran⟩ := bindOk.mp ran
        cases (pureOk.mp ran).1
      | none =>
        obtain ⟨made,mutated,changed,ran⟩ := bindOk.mp ran
        obtain ⟨_,_,_,ran⟩ := bindOk.mp ran
        obtain ⟨_,_,_,ran⟩ := bindOk.mp ran
        cases (pureOk.mp ran).1
        obtain ⟨_,_,_,_,_,_,_,_,rfl⟩ := applyActionReceipt env.actions attempt.config changed
        rfl
    · have replayed := bodyReplayed env.actions attempt.config ran
      rw [start] at replayed
      exact absurd (findSome replayed.1).2 (fresh _ (findSome replayed.1).1)

/- An action adds no receipt or one that is unverified. -/
theorem executeReceipts {attempt : Attempt} : (execute env attempt c).receipts = c.receipts ∨ ∃ receipt,
    (execute env attempt c).receipts = c.receipts ++ [receipt] ∧ receipt.runId = attempt.request.runId ∧
      receipt.status = .appliedUnverified := by
  unfold execute
  split
  · exact .inl rfl
  · rename_i p _
    dsimp only
    rcases run : runTransaction env.actions attempt p
      { c.database with curation := ⟨c.runs.map actionRun,c.receipts⟩ } with ⟨answer,after⟩
    cases answer with
    | error raised =>
      cases runTransactionError env.actions run
      exact .inl rfl
    | ok receipt =>
      rcases runTransactionOk env.actions run with committed | ⟨_,_,rfl⟩
      · exact .inr ⟨receipt,committed.receipts,committed.key.1,runUnverified run committed.fresh⟩
      · exact .inl rfl

/- What one step does to the receipts. -/
inductive ReceiptChange (first c after : Curating) (trace : List Emitted) (call : Call) : Prop
  | none (same : after.receipts = c.receipts)
  | settled (runId actionId : String) (receipt : ActionReceipt)
    (rows : after.receipts = update (inStatus runId actionId .appliedUnverified) (receiptSet receipt) c.receipts)
    (accepted : receipt.status = .verified → Accepted first trace (runId,actionId))
  | added (attempt : Attempt) (receipt : ActionReceipt) (caller : call = .execute attempt)
    (rows : after.receipts = c.receipts ++ [receipt]) (run : receipt.runId = attempt.request.runId)
    (unverified : receipt.status = .appliedUnverified)

theorem keepChange {call : StoreCall} {by_ : Call} (backed : Backed first trace call) :
    ReceiptChange first c (c.keep (storeStep call c.ledger).2) trace by_ := by
  rcases @backedReceipts _ _ call c.ledger backed with same | ⟨runId,actionId,receipt,rows,accepted⟩
  · exact .none same
  · exact .settled runId actionId receipt rows accepted

theorem passChange {clock : Clock} {pass : Pass} (backed : CallBacked first trace (.pass clock pass)) :
    ReceiptChange first c (passStep env clock pass c).2.1 ((passStep env clock pass c).2.2 ++ trace) (.pass clock pass) := by
  cases pass with
  | settling turn current rest call => exact keepChange (backedMore backed)
  | ending turn finish call =>
    unfold passStep
    dsimp only
    split
    · exact keepChange (backedMore backed)
    · exact keepChange (backedMore backed)
    · exact keepChange (backedMore backed)
    · exact keepChange (backedMore backed)
  | receipts turn => exact .none (by rw [listedStill.1])
  | finalReceipts turn => exact .none (by rw [listedStill.2])
  | reading turn current rest script => cases script <;> exact .none rfl
  | latest | missing =>
    dsimp only [passStep]
    split <;> exact .none rfl
  | listing | checking | asking | finished => exact .none rfl

theorem createdReceipts {run stamp ledger} (made : createRun run stamp c.ledger = some ledger) :
    ledger.receipts = c.receipts := by
  unfold createRun at made
  split at made
  · cases made
  · cases made
    rfl

theorem handlerChange {stamp : String} {handler : Handler} (backed : CallBacked first trace (.handler stamp handler)) :
    ReceiptChange first c (handlerStep env stamp handler c).2.1 ((handlerStep env stamp handler c).2.2 ++ trace)
      (.handler stamp handler) := by
  cases handler with
  | moving run call => exact keepChange (backedMore backed)
  | ending call => exact keepChange (backedMore backed)
  | creating run =>
    dsimp only [handlerStep]
    split
    · rename_i made
      exact .none (createdReceipts made)
    · exact .none rfl
  | looking | again =>
    dsimp only [handlerStep]
    split <;> exact .none rfl
  | claiming | working | finished => exact .none rfl

theorem stepChange {call : Call} (backed : CallBacked first trace call) :
    ReceiptChange first c (step env call c).2.1 ((step env call c).2.2 ++ trace) call := by
  cases call with
  | pass => exact passChange backed
  | handler => exact handlerChange backed
  | execute attempt =>
    rcases @executeReceipts env c attempt with same | ⟨receipt,rows,run,unverified⟩
    · exact .none same
    · exact .added attempt receipt rfl rows run unverified
  | createRun run stamp =>
    dsimp only [step]
    cases made : createRun run stamp c.ledger with
    | none => exact .none rfl
    | some ledger => exact .none (createdReceipts made)
  | settle call => exact keepChange (restoreBacked backed)
  | queue | write | done => exact .none rfl

structure Verifying (first : Curating) (w : World Call Curating Emitted) : Prop where
  evident : ∀ receipt ∈ w.store.receipts, receipt.status = .verified → Accepted first w.trace (receiptKey receipt)
  backed : ∀ call ∈ w.calls, CallBacked first w.trace call
  applying : ∀ call ∈ w.calls, ∀ runId, Applying runId call → AllVerified w.store runId
  ended : ∀ run before, .ended run .applied before ∈ w.trace → ∀ receipt ∈ before.receipts,
    receipt.runId = run.runId → receipt.status = .verified ∧ Accepted first w.trace (receiptKey receipt)

theorem evidentStep {call : Call} {after : Curating} {emitted}
    (evident : ∀ receipt ∈ c.receipts, receipt.status = .verified → Accepted first trace (receiptKey receipt))
    (change : ReceiptChange first c after (emitted ++ trace) call) :
    ∀ receipt ∈ after.receipts, receipt.status = .verified → Accepted first (emitted ++ trace) (receiptKey receipt) := by
  intro receipt member verified
  cases change with
  | none same => exact acceptedMore (evident receipt (same ▸ member) verified)
  | settled runId actionId settled rows accepted =>
    rw [rows] at member
    obtain ⟨old,there,rfl⟩ := memUpdate.mp member
    split at verified
    · rename_i selected
      have key : receiptKey old = (runId,actionId) := by
        unfold inStatus at selected
        simp only [Bool.and_eq_true,beq_iff_eq] at selected
        exact selected.1
      rw [if_pos selected]
      exact key ▸ accepted verified
    · rename_i missed
      rw [if_neg missed]
      exact acceptedMore (evident old there verified)
  | added attempt added caller rows run unverified =>
    rw [rows] at member
    rcases List.mem_append.mp member with old | new
    · exact acceptedMore (evident receipt old verified)
    · rw [List.mem_singleton.mp new,unverified] at verified
      cases verified

/- What is verified stays so, and no receipt is added to a run that a pass is about to write. -/
theorem verifiedStep {call : Call} {w : World Call Curating Emitted} {after : Curating} {emitted runId other}
    (whole : Whole w call) (member : other ∈ w.calls) (applying : Applying runId other)
    (all : AllVerified w.store runId) (change : ReceiptChange first w.store after emitted call) :
    AllVerified after runId := by
  intro receipt listed same
  cases change with
  | none still => exact all receipt (still ▸ listed) same
  | settled ownRun actionId settled rows accepted =>
    rw [rows] at listed
    obtain ⟨old,there,rfl⟩ := memUpdate.mp listed
    split at same
    · rename_i selected
      have verified := all old there same
      unfold inStatus at selected
      simp [verified] at selected
    · rename_i missed
      rw [if_neg missed]
      exact all old there same
  | added attempt added caller rows run unverified =>
    rw [rows] at listed
    rcases List.mem_append.mp listed with old | new
    · exact all receipt old same
    · subst caller
      rw [List.mem_singleton.mp new,run] at same
      exact absurd (same ▸ applying) (whole other member)

theorem nextVerifying {w : World Call Curating Emitted} {event : Event Op} (whole : WholeStep w event)
    (kept : Verifying first w) : Verifying first ((recovery env).next w event) := by
  cases event with
  | start op =>
    refine ⟨kept.evident,fun call member => ?_,fun call member runId applying => ?_,kept.ended⟩
    · rcases List.mem_append.mp member with old | new
      · exact kept.backed call old
      · rw [List.mem_singleton.mp new]
        cases op <;> trivial
    · rcases List.mem_append.mp member with old | new
      · exact kept.applying call old runId applying
      · rw [List.mem_singleton.mp new] at applying
        cases op <;> exact applying.elim
  | advance index =>
    cases found : w.calls[index]? with
    | none =>
      rw [nextIdle found]
      exact kept
    | some call =>
      rw [nextAdvance found]
      have here := List.mem_of_getElem? found
      have change : ReceiptChange first w.store (step env call w.store).2.1 ((step env call w.store).2.2 ++ w.trace) call :=
        stepChange (kept.backed call here)
      refine ⟨evidentStep kept.evident change,fun other member => ?_,fun other member runId applying => ?_,
        fun run before member receipt listed same => ?_⟩
      · rcases List.mem_or_eq_of_mem_set member with old | rfl
        · exact callMore (kept.backed other old)
        · exact stepBacked (kept.backed call here)
      · rcases List.mem_or_eq_of_mem_set member with old | rfl
        · exact verifiedStep (whole call found) old applying (kept.applying other old runId applying) change
        · exact stepApplies (whole call found) applying
      · rcases List.mem_append.mp member with new | old
        · obtain ⟨rfl,clock,turn,finish,op,rfl,rfl,outcome⟩ := endedStep new
          have verified := kept.applying _ here _ ⟨outcome,rfl⟩ receipt listed same
          exact ⟨verified,acceptedMore (kept.evident receipt listed verified)⟩
        · obtain ⟨verified,accepted⟩ := kept.ended run before old receipt listed same
          exact ⟨verified,acceptedMore accepted⟩

/- A pass sets a run to APPLIED only where each receipt that the run has by then is verified: the
verifier has accepted it, or a restore that had read it back, unless it was from the first. -/
theorem appliedVerified {events : List (Event Op)} (whole : Meets (recovery env) WholeStep (idle first) events) :
    ∀ run before, .ended run .applied before ∈ ((recovery env).run (idle first) events).trace →
      ∀ receipt ∈ before.receipts, receipt.runId = run.runId → receipt.status = .verified ∧
        Accepted first ((recovery env).run (idle first) events).trace (receiptKey receipt) := by
  have kept : Verifying first ((recovery env).run (idle first) events) :=
    runMeets (fun w event => nextVerifying) whole
      ⟨fun receipt member verified => .inr (.inr ⟨receipt,member,rfl,verified⟩),
        fun _ member => absurd member List.not_mem_nil,fun _ member => absurd member List.not_mem_nil,
        fun _ _ member => absurd member List.not_mem_nil⟩
  exact kept.ended

/- A receipt that a restore verifies. -/
def archivedReceipt (status : ReceiptState) (actionId : String) : ActionReceipt :=
  ⟨"run",actionId,"archive_memory",[firstId],status,some "digest",some "digest",none,some "digest",none,none,some "t1",
    some "t2"⟩

def settlingAction (index : Nat) : List (Event Op) :=
  .start (.settle "run" "action" (archivedReceipt .verified "action")) :: advances index 3

theorem appliedVerifiedSample :
    let w := (recovery recoveryEnv).run (idle awaiting) (acting ++ settlingAction 2 ++ passing 3 3)
    (w.trace.any fun
      | .ended run .applied _ => run.runId == "run"
      | _ => false) = true ∧ ∀ run before, .ended run .applied before ∈ w.trace →
      ∀ receipt ∈ before.receipts, receipt.runId = run.runId → receipt.status = .verified ∧
        Accepted awaiting w.trace (receiptKey receipt) := by
  have whole : Meets (recovery recoveryEnv) WholeStep (idle awaiting) (acting ++ settlingAction 2 ++ passing 3 3) := by
    decide +kernel
  exact ⟨by decide +kernel,appliedVerified whole⟩

/- A run with a hundred receipts that are verified and one more that is not. -/
def hundredAndOne : Curating := { awaiting with
  runs := [{ restoreRun "run" "event" "key" with createdAt := some "t0" }]
  receipts := (List.range 100).map (fun n => archivedReceipt .verified (toString n)) ++
    [archivedReceipt .appliedUnverified "last"] }

/- The pass does not see the last receipt of the run; nor does it see one that an action commits
once it has listed them. -/
theorem unverifiedApplied :
    (∃ run before, .ended run .applied before ∈
      ((recovery recoveryEnv).run (idle hundredAndOne) (passing 0 3)).trace ∧
      ∃ receipt ∈ before.receipts, receipt.runId = run.runId ∧ receipt.status = .appliedUnverified) ∧
    ∃ run before, .ended run .applied before ∈ ((recovery recoveryEnv).run (idle awaiting)
      (acting ++ settlingAction 2 ++ passing 3 2 ++ archivingAgain 4 ++ advances 3 1)).trace ∧
      ∃ receipt ∈ before.receipts, receipt.runId = run.runId ∧ receipt.status = .appliedUnverified := by
  have broken : ∀ trace : List Emitted, (trace.any fun
      | .ended run .applied before => before.receipts.any fun receipt =>
        receipt.runId == run.runId && receipt.status == .appliedUnverified
      | _ => false) = true → ∃ run before, .ended run .applied before ∈ trace ∧
      ∃ receipt ∈ before.receipts, receipt.runId = run.runId ∧ receipt.status = .appliedUnverified := by
    intro trace found
    obtain ⟨event,member,ended⟩ := List.any_eq_true.mp found
    split at ended
    · simp only [List.any_eq_true,Bool.and_eq_true,beq_iff_eq] at ended
      exact ⟨_,_,member,ended⟩
    · cases ended
  exact ⟨broken _ (by decide +kernel),broken _ (by decide +kernel)⟩

end McpMemory.Curation.Reconciliation
