import McpMemory.Ingress.ExactlyOnce

/-! Ingress and journal claims. The UPDATE that ends a call selects its entries by id and
by the claim they have then; an entry that another task holds, or nobody, is left as it
is, and the call commits all the same. -/
namespace McpMemory.Ingress
open Memory Transaction Interleave

variable (env : Env)

/- What a call that names the journal task `task` leaves behind, by its answer. -/
inductive Reconciles (p : Prepared) (task : String) (before : Database) :
    Except IngressError ActionReceipt → Database → Prop where
  | raised {error} : Reconciles p task before (.error error) before
  | replayed {receipt} (stored : receipt ∈ before.ingress.receipts) :
      Reconciles p task before (.ok receipt) before
  | committed {receipt after recoverableUntil} (fresh : receipt ∉ before.ingress.receipts)
      (entries : receipt.entryIds = p.identity.entryIds)
      (covered : ∀ entryId ∈ receipt.entryIds, ∃ row ∈ after.ingress.coverage,
        normalized env row.entryId = entryId ∧ row.actionId = some receipt.actionId)
      (requested : ∀ n, n ∈ p.journalIds ↔ ∃ entryId ∈ receipt.entryIds, journalNumber entryId = some n)
      (journal : after.journal = moveOwned task p.journalIds recoverableUntil before.journal) :
      Reconciles p task before (.ok receipt) after

theorem committedReconciles {request p task before after receipt} (prepared : prepare env request = .ok p)
    (named : p.journalTask = some task) (committed : Committed p before after receipt) :
    Reconciles env p task before (.ok receipt) after := by
  have source := preparedSource env prepared
  have moved := committed.journal
  unfold Reconciled at moved
  rw [named] at moved
  obtain ⟨recoverableUntil,journal⟩ := moved
  have absent := (committedFresh committed).2
  obtain ⟨createdAt,terminalizedAt,evidenceId,beforeTokens,afterTokens,rfl⟩ := committed.shape
  refine .committed absent rfl (fun entryId member => ?_) (source.numbers task named) journal
  obtain ⟨item,asked,text⟩ := source.covered entryId member
  obtain ⟨row,present,same,action,_⟩ := committed.coverage.settled item asked
  exact ⟨row,present,by rw [same,text],action.trans (source.actions item asked)⟩

/- Two thoughts, claimed by task-a and by task-b. -/
def claimedApart : Schedule :=
  [.start (.journal (.record "first" none 1)),.advance 0,.advance 0,
    .start (.journal (.claimPending "task-a" 5 .all 2)),.advance 1,
    .start (.journal (.record "second" none 3)),.advance 2,.advance 2,
    .start (.journal (.claimPending "task-b" 5 .all 4)),.advance 3]

def createFromBoth : Attempt :=
  ⟨⟨"default",none⟩,⟨"batch","create",["1","2"],[],.str "both",none,none,some "task-a"⟩,
    createNote "m" "both",sampleOracle "a"⟩

def claimsOf (database : Database) : List (Int × Journal.Status × Option String) :=
  database.journal.entries.map fun entry => (entry.id,entry.status,entry.claimTaskId)

end McpMemory.Ingress
