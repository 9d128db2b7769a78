import McpMemory.Curation.Store

/-! What the operations of the ledger's store do to runs and receipts that others use at the
same time. The store compares the state that a caller expects, and not the tables of legal
transitions, so that the tables hold as long as no caller expects more than they allow. -/
namespace McpMemory.Curation.Store
open Interleave Table

/- What a step may do to a run. -/
structure RunFollows (row later : CurationRun) : Prop where
  runId : later.runId = row.runId
  legal : later.state = row.state ∨ later.state ∈ runTransitions row.state
  first : row.state = .terminal → later = row

structure ReceiptFollows (row later : ActionReceipt) : Prop where
  key : receiptKey later = receiptKey row
  legal : later.status = row.status ∨ later.status ∈ receiptTransitions row.status
  first : row.status ≠ .appliedUnverified → later = row

theorem RunFollows.refl (row : CurationRun) : RunFollows row row := ⟨rfl,.inl rfl,fun _ => rfl⟩

theorem ReceiptFollows.refl (row : ActionReceipt) : ReceiptFollows row row := ⟨rfl,.inl rfl,fun _ => rfl⟩

/- Rows are changed in their place, and receipts may be added. -/
structure StoreFollows (before after : CurationStore) : Prop where
  runs : List.Forall₂ RunFollows before.runs after.runs
  receipts : List.Forall₂ ReceiptFollows before.receipts (after.receipts.take before.receipts.length)

/- The update that the call makes next expects what the tables allow to change in this way. -/
def Legal (store : CurationStore) : StoreCall → Prop
  | .updatingRun runId expectedState run => ∀ row ∈ store.runs, inState runId expectedState row →
      expectedState ≠ .terminal ∧ (run.state = expectedState ∨ run.state ∈ runTransitions expectedState)
  | .started (.terminalizeRun runId expectedState _ _) => ∀ row ∈ store.runs, unterminalized runId expectedState row →
      .terminal ∈ runTransitions expectedState
  | .updatingReceipt runId actionId expectedState _ => ∀ row ∈ store.receipts, inStatus runId actionId expectedState row →
      expectedState = .appliedUnverified
  | _ => True

instance {store call} : Decidable (Legal store call) := match call with
  | .updatingRun runId expectedState run => inferInstanceAs (Decidable (∀ row ∈ store.runs,
      inState runId expectedState row → expectedState ≠ .terminal ∧
        (run.state = expectedState ∨ run.state ∈ runTransitions expectedState)))
  | .started (.terminalizeRun runId expectedState _ _) => inferInstanceAs (Decidable (∀ row ∈ store.runs,
      unterminalized runId expectedState row → .terminal ∈ runTransitions expectedState))
  | .updatingReceipt runId actionId expectedState _ => inferInstanceAs (Decidable (∀ row ∈ store.receipts,
      inStatus runId actionId expectedState row → expectedState = .appliedUnverified))
  | .started (.transitionRun ..) | .started (.putReceipt ..) | .started (.transitionReceipt ..) | .rereadingRun ..
  | .conflicting .. | .rereadingReceipt .. | .answered .. => .isTrue trivial

def LegalStep (w : World StoreCall CurationStore Empty) : Event StoreOp → Prop
  | .start _ => True
  | .advance index => ∀ call ∈ w.calls[index]?, Legal w.store call

instance {w event} : Decidable (LegalStep w event) := match event with
  | .start _ => .isTrue trivial
  | .advance index => inferInstanceAs (Decidable (∀ call ∈ w.calls[index]?, Legal w.store call))

def StoreCall.won : StoreCall → Bool
  | .rereadingRun won _ | .rereadingReceipt won _ _ _ | .answered won _ => won
  | _ => false

structure Keyed (store : CurationStore) : Prop where
  runs : UniqueBy (·.runId) store.runs
  receipts : UniqueBy receiptKey store.receipts

variable {store : CurationStore}

theorem StoreFollows.refl (store : CurationStore) : StoreFollows store store :=
  ⟨List.forall₂_same.mpr fun row _ => RunFollows.refl row,
    by rw [List.take_length]; exact List.forall₂_same.mpr fun row _ => ReceiptFollows.refl row⟩

theorem runsFollow {sel : CurationRun → Bool} {set : CurationRun → CurationRun}
    (changed : ∀ row ∈ store.runs, sel row → RunFollows row (set row)) :
    StoreFollows store { store with runs := update sel set store.runs } :=
  ⟨forallUpdate RunFollows.refl changed,(StoreFollows.refl store).receipts⟩

theorem receiptsFollow {sel : ActionReceipt → Bool} {set : ActionReceipt → ActionReceipt}
    (changed : ∀ row ∈ store.receipts, sel row → ReceiptFollows row (set row)) :
    StoreFollows store { store with receipts := update sel set store.receipts } := by
  refine ⟨(StoreFollows.refl store).runs,?_⟩
  have size : (update sel set store.receipts).length = store.receipts.length := List.length_map _
  rw [← size,List.take_length]
  exact forallUpdate ReceiptFollows.refl changed

theorem inStateSource {runId expectedState} {row : CurationRun} :
    inState runId expectedState row = true ↔ row.runId = runId ∧ row.state = expectedState := by simp [inState]

theorem unterminalizedSource {runId expectedState} {row : CurationRun} : unterminalized runId expectedState row = true ↔
    (row.runId = runId ∧ row.state = expectedState) ∧ row.terminalizedAt = none := by simp [unterminalized,inState]

theorem inStatusSource {runId actionId expectedState} {row : ActionReceipt} :
    inStatus runId actionId expectedState row = true ↔ receiptKey row = (runId,actionId) ∧ row.status = expectedState := by
  simp [inStatus]

theorem insertSource {receipt after} (made : insertReceipt receipt store = some after) :
    after = { store with receipts := store.receipts ++ [receipt] } ∧ ∀ row ∈ store.receipts, receiptKey row ≠ receiptKey receipt := by
  unfold insertReceipt at made
  split at made <;> cases made
  rename_i fits
  simp only [Bool.and_eq_true,Option.isNone_iff_eq_none] at fits
  refine ⟨rfl,fun row member same => ?_⟩
  have apart : (receiptKey row == receiptKey receipt) = false := findNone fits.1.1 row member
  rw [same,beq_self_eq_true] at apart
  cases apart

theorem terminalOnly {state : RunState} (allowed : .terminal ∈ runTransitions state) : state ≠ .terminal := by
  rintro rfl
  cases allowed

/- Every state but the first is reached from the first. -/
theorem settled (status : ReceiptState) : status = .appliedUnverified ∨ status ∈ receiptTransitions .appliedUnverified := by
  cases status <;> simp [receiptTransitions]

/- What one step does, where it changes anything. -/
theorem stepFollows {call : StoreCall} (legal : Legal store call) : StoreFollows store (storeStep call store).2 := by
  cases call with
  | started op =>
    cases op with
    | transitionRun runId expectedState run =>
      simp only [storeStep]
      split
      · exact .refl store
      · split <;> exact .refl store
    | terminalizeRun runId expectedState outcome now =>
      refine runsFollow fun row member selected => ?_
      have allowed := legal row member selected
      obtain ⟨⟨_,here⟩,_⟩ := unterminalizedSource.mp selected
      rw [← here] at allowed
      exact ⟨rfl,.inr allowed,fun terminal => absurd terminal (terminalOnly allowed)⟩
    | putReceipt receipt now =>
      simp only [storeStep]
      split
      · exact .refl store
      · split
        · rename_i after made
          rw [(insertSource made).1]
          refine ⟨(StoreFollows.refl store).runs,?_⟩
          rw [List.take_left]
          exact List.forall₂_same.mpr fun row _ => ReceiptFollows.refl row
        · exact .refl store
    | transitionReceipt runId actionId expectedState receipt =>
      simp only [storeStep]
      split
      · exact .refl store
      · split
        · exact .refl store
        · split <;> exact .refl store
  | updatingRun runId expectedState run =>
    refine runsFollow fun row member selected => ?_
    obtain ⟨unended,allowed⟩ := legal row member selected
    obtain ⟨_,here⟩ := inStateSource.mp selected
    exact ⟨rfl,here ▸ allowed,fun terminal => absurd (here.symm.trans terminal) unended⟩
  | rereadingRun won runId =>
    simp only [storeStep]
    split <;> exact .refl store
  | conflicting receipt =>
    simp only [storeStep]
    split
    · exact .refl store
    · split <;> exact .refl store
  | updatingReceipt runId actionId expectedState receipt =>
    simp only [storeStep]
    split
    · exact .refl store
    · refine receiptsFollow fun row member selected => ?_
      cases legal row member selected
      obtain ⟨_,here⟩ := inStatusSource.mp selected
      exact ⟨rfl,here ▸ settled receipt.status,fun apart => absurd here apart⟩
  | rereadingReceipt won runId actionId expectedState =>
    simp only [storeStep]
    split <;> exact .refl store
  | answered won answer => exact .refl store

/- A terminal run, or a receipt that is settled, stays as it is while rows are changed legally. -/
theorem followsKeep {before after : CurationStore} (follows : StoreFollows before after) :
    (∀ run ∈ before.runs, run.state = .terminal → run ∈ after.runs) ∧
      ∀ receipt ∈ before.receipts, receipt.status ≠ .appliedUnverified → receipt ∈ after.receipts := by
  constructor
  · intro run member terminal
    obtain ⟨later,there,follow⟩ := forallMember follows.runs member
    exact follow.first terminal ▸ there
  · intro receipt member settled
    obtain ⟨later,there,follow⟩ := forallMember follows.receipts member
    exact follow.first settled ▸ List.mem_of_mem_take there

theorem keyedUpdates (keyed : Keyed store) :
    (∀ {sel : CurationRun → Bool} {set}, (∀ row, (set row).runId = row.runId) →
      Keyed { store with runs := update sel set store.runs }) ∧
    ∀ {sel : ActionReceipt → Bool} {set}, (∀ row, receiptKey (set row) = receiptKey row) →
      Keyed { store with receipts := update sel set store.receipts } :=
  ⟨fun same => ⟨updateUnique (fun row _ _ => same row) keyed.runs,keyed.receipts⟩,
    fun same => ⟨keyed.runs,updateUnique (fun row _ _ => same row) keyed.receipts⟩⟩

theorem stepKeyed {call : StoreCall} (keyed : Keyed store) : Keyed (storeStep call store).2 := by
  unfold storeStep
  split
  · split
    · exact keyed
    · split <;> exact keyed
  · exact (keyedUpdates keyed).1 fun _ => rfl
  · exact (keyedUpdates keyed).1 fun _ => rfl
  · split <;> exact keyed
  · split
    · exact keyed
    · dsimp only
      split
      · rename_i made
        obtain ⟨rfl,fresh⟩ := insertSource made
        exact ⟨keyed.runs,insertUnique fresh keyed.receipts⟩
      · exact keyed
  · split
    · exact keyed
    · split <;> exact keyed
  · split
    · exact keyed
    · split
      · exact keyed
      · split <;> exact keyed
  · dsimp only
    split
    · exact keyed
    · exact (keyedUpdates keyed).2 fun _ => rfl
  · split <;> exact keyed
  · exact keyed

/- With one row for each key, an update changes one row or none. -/
theorem updateLost {ρ γ : Type} [DecidableEq γ] {key : ρ → γ} {sel : ρ → Bool} {set : ρ → ρ} {rows : List ρ} {k : γ}
    (unique : UniqueBy key rows) (keyed : ∀ row, sel row → key row = k) (lost : (rows.countP sel == 1) = false) :
    update sel set rows = rows := by
  have within : rows.countP sel ≤ rows.countP fun row => key row = k :=
    List.countP_mono_left fun row _ hit => by simpa using keyed row hit
  have most := countKey unique k
  have fewer : rows.countP sel ≠ 1 := by simpa using lost
  have none : rows.countP sel = 0 := by omega
  exact updateNone fun row member => by simpa using List.countP_eq_zero.mp none row member

theorem stepLost {call : StoreCall} (keyed : Keyed store) (lost : (storeStep call store).1.won = false) :
    (storeStep call store).2 = store := by
  revert lost
  unfold storeStep
  split
  · split
    · exact fun _ => rfl
    · split <;> exact fun _ => rfl
  · exact fun lost => congrArg (fun runs => { store with runs := runs })
      (updateLost keyed.runs (fun row hit => (inStateSource.mp hit).1) lost)
  · exact fun lost => congrArg (fun runs => { store with runs := runs })
      (updateLost keyed.runs (fun row hit => (unterminalizedSource.mp hit).1.1) lost)
  · split <;> exact fun _ => rfl
  · split
    · exact fun _ => rfl
    · dsimp only
      split
      · exact fun lost => absurd lost (by simp [StoreCall.won])
      · exact fun _ => rfl
  · split
    · exact fun _ => rfl
    · split <;> exact fun _ => rfl
  · split
    · exact fun _ => rfl
    · split
      · exact fun _ => rfl
      · split <;> exact fun _ => rfl
  · dsimp only
    split
    · exact fun _ => rfl
    · exact fun lost => congrArg (fun receipts => { store with receipts := receipts })
        (updateLost keyed.receipts (fun row hit => (inStatusSource.mp hit).1) lost)
  · split <;> exact fun _ => rfl
  · exact fun _ => rfl

theorem wonStays {call : StoreCall} (won : call.won = true) : (storeStep call store).1.won = true := by
  cases call with
  | rereadingRun | rereadingReceipt =>
    simp only [storeStep]
    split <;> exact won
  | answered => exact won
  | started | updatingRun | conflicting | updatingReceipt => cases won

section
variable {events : List (Event StoreOp)}

/- The state after the first `n` events. -/
def stateAt (store : CurationStore) (events : List (Event StoreOp)) (n : Nat) : CurationStore :=
  (ledgerStore.run (idle store) (events.take n)).store

theorem stateFollows (meets : Meets ledgerStore LegalStep (idle store) events) (n : Nat) :
    StoreFollows (stateAt store events n) (stateAt store events (n + 1)) := by
  unfold stateAt
  cases found : events[n]? with
  | none =>
    rw [runEnded found]
    exact .refl _
  | some event =>
    rw [runTake found]
    cases event with
    | start op => exact .refl _
    | advance index =>
      have legal := meetsAt.mp meets n _ found
      cases there : (ledgerStore.run (idle store) (events.take n)).calls[index]? with
      | none =>
        rw [nextIdle there]
        exact .refl _
      | some call =>
        rw [nextAdvance there]
        exact stepFollows (legal call there)

theorem keyedRun (keyed : Keyed store) : Keyed (ledgerStore.run (idle store) events).store :=
  @runKeeps _ _ _ _ ledgerStore (fun store _ => Keyed store) (fun _ _ _ keyed => stepKeyed keyed) _ events keyed

theorem wonRun {w : World StoreCall CurationStore Empty} {index : Nat} {call : StoreCall} (there : w.calls[index]? = some call)
    (won : call.won = true) :
    ∃ later : StoreCall, (ledgerStore.run w events).calls[index]? = some later ∧ later.won = true := by
  have kept : Preserved ledgerStore fun w => ∃ later : StoreCall, w.calls[index]? = some later ∧ later.won = true := by
    constructor
    · rintro w op ⟨later,there,won⟩
      exact ⟨later,by rw [List.getElem?_append_left (List.getElem?_eq_some_iff.mp there).1]; exact there,won⟩
    · rintro w other call found ⟨later,there,won⟩
      by_cases same : other = index
      · subst same
        cases found.symm.trans there
        exact ⟨_,List.getElem?_set_self (List.getElem?_eq_some_iff.mp there).1,wonStays won⟩
      · exact ⟨later,(List.getElem?_set_ne same).trans there,won⟩
  exact runPreserved kept events ⟨call,there,won⟩

/- The first terminal outcome of a run and the first of a receipt stay, every change is one that
the tables allow, and an operation that has not won has changed nothing. -/
theorem firstOutcomeWins (keyed : Keyed store) (meets : Meets ledgerStore LegalStep (idle store) events) :
    (∀ n later, n ≤ later →
      (∀ run ∈ (stateAt store events n).runs, run.state = .terminal → run ∈ (stateAt store events later).runs) ∧
      ∀ receipt ∈ (stateAt store events n).receipts, receipt.status ≠ .appliedUnverified →
        receipt ∈ (stateAt store events later).receipts) ∧
    (∀ n, StoreFollows (stateAt store events n) (stateAt store events (n + 1))) ∧
    ∀ index call, (ledgerStore.run (idle store) events).calls[index]? = some call → call.won = false →
      ∀ n, events[n]? = some (.advance index) → stateAt store events (n + 1) = stateAt store events n := by
  refine ⟨fun n later le => ?_,stateFollows meets,fun index call there lost n found => ?_⟩
  · induction le with
    | refl => exact ⟨fun _ member _ => member,fun _ member _ => member⟩
    | @step later _ ih =>
      obtain ⟨runs,receipts⟩ := followsKeep (stateFollows meets later)
      exact ⟨fun run member ended => runs run (ih.1 run member ended) ended,
        fun receipt member settled => receipts receipt (ih.2 receipt member settled) settled⟩
  · unfold stateAt
    rw [runTake found]
    have keyed := @keyedRun store (events.take n) keyed
    have whole : ledgerStore.run (idle store) events = ledgerStore.run
        (ledgerStore.next (ledgerStore.run (idle store) (events.take n)) (.advance index)) (events.drop (n + 1)) := by
      rw [← runTake found,← runAppend,List.take_append_drop]
    rw [whole] at there
    generalize ledgerStore.run (idle store) (events.take n) = world at *
    cases before : world.calls[index]? with
    | none => rw [nextIdle before]
    | some acting =>
      rw [nextAdvance before] at there
      rw [nextAdvance before]
      refine stepLost keyed (Bool.eq_false_iff.mpr fun won => ?_)
      have here := List.getElem?_set_self (a := (storeStep acting world.store).1) (List.getElem?_eq_some_iff.mp before).1
      obtain ⟨later,final,kept⟩ := @wonRun _ ⟨_,_,_⟩ index _ here won
      cases there.symm.trans final
      rw [lost] at kept
      cases kept

end

/- A run that one caller ends while another is about to write to it. -/

def sampleRun (state : RunState) : CurationRun :=
  ⟨"run",none,some 1,none,"direct:task",none,"context",none,none,none,"1",1,state,none,none,[],none,"{}","{}",some "t0",none⟩

def sampleLedger (state : RunState) : CurationStore := ⟨[sampleRun state],[],[]⟩

def ending : StoreOp := .terminalizeRun "run" .executing .applied "t1"

def verifying : StoreOp := .transitionRun "run" .executing (sampleRun .verifying)

def rewriting : StoreOp := .transitionRun "run" .terminal { sampleRun .terminal with outcome := some .noOp }

def race (writer : StoreOp) : List (Event StoreOp) := [.start writer,.start ending,.advance 0,.advance 1,.advance 0]

theorem firstOutcomeWinsSample :
    let states := stateAt (sampleLedger .executing) (race verifying)
    (states 4).runs.map (fun run => (run.state,run.outcome)) = [(.terminal,some .applied)] ∧
      ∀ n later, n ≤ later → (∀ run ∈ (states n).runs, run.state = .terminal → run ∈ (states later).runs) ∧
        ∀ receipt ∈ (states n).receipts, receipt.status ≠ .appliedUnverified → receipt ∈ (states later).receipts := by
  have keyed : Keyed (sampleLedger .executing) := ⟨by decide,by decide⟩
  have legal : Meets ledgerStore LegalStep (idle (sampleLedger .executing)) (race verifying) := by decide +kernel
  exact ⟨by decide +kernel,(firstOutcomeWins keyed legal).1⟩

/- A terminal run that is written once more, and a run that ends from a state that the table
does not let it end from. -/
theorem outcomeOverwritten :
    let states := stateAt (sampleLedger .executing) (race rewriting)
    let created := stateAt (sampleLedger .created) [.start (.terminalizeRun "run" .created .providerFailed "t1"),.advance 0]
    (∃ run ∈ (states 4).runs, run.state = .terminal ∧ run ∉ (states 5).runs) ∧
      (created 1).runs.map (·.state) = [.created] ∧ (created 2).runs.map (·.state) = [.terminal] ∧
      .terminal ∉ runTransitions .created := by decide +kernel

end McpMemory.Curation.Store
