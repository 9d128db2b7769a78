import McpMemory.Curation.ExactlyOnce
import McpMemory.Curation.Recorded
import McpMemory.History.Restores

/-! When a restore result tells the truth: one that says applied or already applied has a restore
of its event in the history. A refused call breaks this where it finds its request as it was
registered, and takes it for one that has been applied. -/
namespace McpMemory.History
open Memory Transaction Interleave
open Curation (ActionError ActionReceipt Prepared isReceipt)

variable (env : Env)

/- A restore of the event is in the history. -/
def Restored (database : Database) (target : Uuid) : Prop := ∃ event ∈ database.memory.events,
  event.operation = "restore" ∧ event.restoresEventId = some target.text

def RestoreResult.Positive (result : RestoreResult) : Prop :=
  result.status = .applied ∨ result.status = .alreadyApplied

def Told (database : Database) (response : Response) : Prop :=
  response.result.Positive → Restored database response.request.targetEventId

def Truthful' (w : World Call Store Response) : Prop := ∀ response ∈ w.trace, Told w.store.database response

/- A refused call finds its request as it was registered, and nothing has been restored. -/
def Premature (call : Call) (store : Store) : Prop :=
  match call with
  | .reading ask (some _) false => (∃ row, store.requests.find?
      (·.request.idempotencyKey == ask.request.idempotencyKey) = some row ∧ identityMatches row.request ask.request ∧
      row.status = .applied ∧ row.eventId = none) ∧ ¬ Restored store.database ask.request.targetEventId
  | _ => False

def Settles (w : World Call Store Response) : Event Op → Prop
  | .start _ => True
  | .advance index => ∀ call, w.calls[index]? = some call → ¬ Premature call w.store

/- What the other writers do: they keep the history, and write no receipt for a restore that is
requested here. -/
structure Fair (requests : List RestoreRequest) (effect : Database → Database) : Prop where
  history : ∀ (database : Database), ∀ event ∈ database.memory.events, ∃ kept ∈ (effect database).memory.events,
    kept.operation = event.operation ∧ kept.restoresEventId = event.restoresEventId
  receipts : ∀ (database : Database), ∀ receipt ∈ (effect database).curation.receipts, ∀ request ∈ requests,
    receipt.actionId = (restoreActionId env request).text →
      ∃ stored ∈ database.curation.receipts, stored.actionId = receipt.actionId

/- The requests of a run, and its other writers. -/
def Expected (requests : List RestoreRequest) : Event Op → Prop
  | .start (.restore form _) => ∀ request, parseRequest form = .ok request → request ∈ requests
  | .start (.write effect) => Fair env requests effect
  | .advance _ => True

/- `uuid5` gives the requests for different events different ids. -/
def Apart (requests : List RestoreRequest) : Prop := ∀ a ∈ requests, ∀ b ∈ requests,
  restoreActionId env a = restoreActionId env b → a.targetEventId = b.targetEventId

structure Honest (requests : List RestoreRequest) (store : Store) : Prop where
  rows : ∀ row ∈ store.requests, row.status = .applied → row.eventId = none ∧ row.terminalizedAt = none ∨
    Restored store.database row.request.targetEventId
  statuses : ∀ row ∈ store.requests, row.status ≠ .alreadyApplied
  ids : ∀ a ∈ store.requests, ∀ b ∈ store.requests, a.id = b.id → a.request.targetEventId = b.request.targetEventId
  receipts : ∀ receipt ∈ store.database.curation.receipts, ∀ request ∈ requests,
    receipt.actionId = (restoreActionId env request).text → Restored store.database request.targetEventId

def Owned (store : Store) (requestId : String) (target : Uuid) : Prop :=
  ∃ row ∈ store.requests, row.id = requestId ∧ row.request.targetEventId = target

def Refusal (result : RestoreResult) : Prop := ¬ result.Positive

def Working (requests : List RestoreRequest) (store : Store) (ask : Ask) (requestId : String) : Prop :=
  ask.request ∈ requests ∧ Owned store requestId ask.request.targetEventId

def Serves (requests : List RestoreRequest) (store : Store) : Call → Prop
  | .asked form _ => ∀ request, parseRequest form = .ok request → request ∈ requests
  | .registering ask refused => ask.request ∈ requests ∧ ∀ result ∈ refused, Refusal result
  | .reading ask refused inserted => ask.request ∈ requests ∧ (∀ result ∈ refused, Refusal result) ∧
      (inserted = true → Owned store ask.choices.requestId ask.request.targetEventId)
  | .planning ask requestId => Working requests store ask requestId
  | .owning plan | .creating plan | .executing plan => Working requests store plan.ask plan.requestId
  | .transacting plan p => Working requests store plan.ask plan.requestId ∧
      Curation.prepare env.actions (attemptOf env plan).request = .ok p
  | .verifying plan receipt => Working requests store plan.ask plan.requestId ∧
      receipt.actionId = (restoreActionId env plan.ask.request).text ∧ ∀ request ∈ requests,
        receipt.actionId = (restoreActionId env request).text → Restored store.database request.targetEventId
  | .finishing ask requestId result => Working requests store ask requestId ∧ result.status ≠ .alreadyApplied ∧
      (result.status = .applied → Restored store.database ask.request.targetEventId)
  | .writing effect => Fair env requests effect
  | .answered _ | .written => True

structure Grows (before after : Store) : Prop where
  restored : ∀ target, Restored before.database target → Restored after.database target
  owned : ∀ requestId target, Owned before requestId target → Owned after requestId target

variable {env} {requests : List RestoreRequest} {before after : Store}

theorem servesGrown (grows : Grows before after) {call : Call} (serves : Serves env requests before call) :
    Serves env requests after call := by
  have working {ask requestId} (held : Working requests before ask requestId) : Working requests after ask requestId :=
    ⟨held.1,grows.owned _ _ held.2⟩
  cases call with
  | asked | registering | writing | answered | written => exact serves
  | reading => exact ⟨serves.1,serves.2.1,fun inserted => grows.owned _ _ (serves.2.2 inserted)⟩
  | planning | owning | creating | executing => exact working serves
  | transacting => exact ⟨working serves.1,serves.2⟩
  | verifying =>
    exact ⟨working serves.1,serves.2.1,fun request member same => grows.restored _ (serves.2.2 request member same)⟩
  | finishing => exact ⟨working serves.1,serves.2.1,fun applied => grows.restored _ (serves.2.2 applied)⟩

/- What a step comes to. -/
structure Fine (env : Env) (requests : List RestoreRequest) (store : Store) (after : Step) : Prop where
  grows : Grows store after.2.1
  honest : Honest env requests after.2.1
  serves : Serves env requests after.2.1 after.1
  told : ∀ response ∈ after.2.2, Told after.2.1.database response

theorem growsRefl : Grows before before := ⟨fun _ => id,fun _ _ => id⟩

theorem fineNext {store : Store} {call : Call} (honest : Honest env requests store)
    (serves : Serves env requests store call) : Fine env requests store (next call store) :=
  ⟨growsRefl,honest,serves,fun _ member => absurd member List.not_mem_nil⟩

theorem fineFail {store : Store} (error : RestoreError) (honest : Honest env requests store) :
    Fine env requests store (fail error store) :=
  ⟨growsRefl,honest,trivial,fun _ member => absurd member List.not_mem_nil⟩

theorem fineRespond {store : Store} {ask : Ask} {result : RestoreResult} (honest : Honest env requests store)
    (told : result.Positive → Restored store.database ask.request.targetEventId) :
    Fine env requests store (respond ask result store) :=
  ⟨growsRefl,honest,trivial,fun _ member => by cases List.mem_singleton.mp member; exact told⟩

theorem verdictRefusal {request : RestoreRequest} {analysis : RestoreAnalysis} :
    ∀ result ∈ verdict request analysis, Refusal result := by
  have conflicted {target code reason} : Refusal (restoreConflict target code reason) := by
    simp [Refusal,RestoreResult.Positive,restoreConflict]
  have rejected {target code reason} : Refusal (restoreRejected target code reason) := by
    simp [Refusal,RestoreResult.Positive,restoreRejected]
  intro result refused
  simp only [verdict,tokenConflict,Option.mem_def] at refused
  repeat' split at refused
  all_goals first | cases refused; exact conflicted | cases refused; exact rejected | cases refused

theorem conflictNegative {store : Store} {request : RestoreRequest} {code reason conflict} :
    (conflictResult request code reason conflict).status ≠ .alreadyApplied ∧
      ((conflictResult request code reason conflict).status = .applied →
        Restored store.database request.targetEventId) := ⟨nofun,nofun⟩

theorem refusalNegative {request : RestoreRequest} {described} {result : RestoreResult}
    (refused : refusal request described = .error result) : result.status = .conflict := by
  unfold refusal at refused
  split at refused
  · cases refused
    rfl
  · split at refused
    · cases refused
      rfl
    · dsimp only at refused
      split at refused <;> cases refused
      rfl

theorem growsTrans {middle : Store} (first : Grows before middle) (second : Grows middle after) : Grows before after :=
  ⟨fun target => second.restored target ∘ first.restored target,
    fun requestId target => second.owned requestId target ∘ first.owned requestId target⟩

theorem fineFrom {store : Store} (grows : Grows before store) {ended : Step} (fine : Fine env requests store ended) :
    Fine env requests before ended := ⟨growsTrans grows fine.grows,fine.honest,fine.serves,fine.told⟩

/- The rows of the request, once its outcome was written. -/
theorem outcomeRow {requestId terminalizedAt : String} {result : RestoreResult} {rows : Requests} {row : RestoreRow}
    (member : row ∈ Table.update (isOpen requestId) (outcome result terminalizedAt) rows) :
    (row.id = requestId → row.terminalizedAt ≠ none) ∧ ∃ old ∈ rows, row.id = old.id ∧ row.request = old.request ∧
      (row = old ∨ old.id = requestId ∧ row.status = result.status) := by
  obtain ⟨old,there,shape⟩ := Table.memUpdate.mp member
  split at shape
  · rename_i hit
    subst shape
    simp only [isOpen,Bool.and_eq_true,beq_iff_eq] at hit
    exact ⟨fun _ => nofun,old,there,rfl,rfl,.inr ⟨hit.1,rfl⟩⟩
  · rename_i miss
    subst shape
    exact ⟨fun named none => miss (by simp [isOpen,named,none]),_,there,rfl,rfl,.inl rfl⟩

theorem growsOutcome {store : Store} {requestId terminalizedAt : String} {result : RestoreResult} : Grows store { store with
    requests := Table.update (isOpen requestId) (outcome result terminalizedAt) store.requests } := by
  refine ⟨fun _ => id,fun other target ⟨row,there,named,same⟩ => ?_⟩
  refine ⟨if isOpen requestId row then outcome result terminalizedAt row else row,
    Table.memUpdate.mpr ⟨row,there,rfl⟩,?_,?_⟩
  · split <;> exact named
  · split <;> exact same

theorem terminalizeRows {requestId terminalizedAt : String} {result : RestoreResult} {t : Tables} {rows ended : Requests}
    {answer : Except RestoreError RestoreResult}
    (ran : terminalizeRequest requestId result terminalizedAt t rows = (answer,ended)) :
    (ended = rows ∧ ∃ error, answer = .error error) ∨
      ended = Table.update (isOpen requestId) (outcome result terminalizedAt) rows ∧
        ∀ stored, answer = .ok stored → readRequest requestId ended = .ok stored := by
  unfold terminalizeRequest at ran
  dsimp only at ran
  split at ran
  · obtain ⟨rfl,rfl⟩ := Prod.mk.inj ran
    exact .inl ⟨rfl,_,rfl⟩
  · split at ran
    · obtain ⟨rfl,rfl⟩ := Prod.mk.inj ran
      exact .inr ⟨rfl,fun _ same => nomatch same⟩
    · rename_i read
      split at ran
      · obtain ⟨rfl,rfl⟩ := Prod.mk.inj ran
        exact .inr ⟨rfl,fun _ same => nomatch same⟩
      · obtain ⟨rfl,rfl⟩ := Prod.mk.inj ran
        exact .inr ⟨rfl,fun _ same => Except.ok.inj same ▸ read⟩

variable {store : Store} (honest : Honest env requests store)
include honest

theorem fineRegistering {ask : Ask} {refused : Option RestoreResult} (asked : ask.request ∈ requests)
    (refusal : ∀ result ∈ refused, Refusal result) :
    Fine env requests store (stepRegistering ask refused store) := by
  unfold stepRegistering
  split
  · rename_i after inserted
    unfold insertRequest at inserted
    split at inserted
    · cases inserted
    rename_i fresh
    repeat' split at inserted
    all_goals cases inserted
    have other : ∀ row ∈ store.requests, row.id ≠ ask.choices.requestId := fun row member same =>
      fresh (List.any_eq_true.mpr ⟨row,member,beq_iff_eq.mpr same⟩)
    refine ⟨⟨fun _ => id,fun _ _ ⟨row,there,owned⟩ => ⟨row,List.mem_append_left _ there,owned⟩⟩,
      ⟨?_,?_,?_,honest.receipts⟩,⟨asked,refusal,fun _ => ⟨_,List.mem_append_right _ List.mem_cons_self,rfl,rfl⟩⟩,
      fun _ member => absurd member List.not_mem_nil⟩
    · intro row member applied
      rcases List.mem_append.mp member with old | new
      · exact honest.rows row old applied
      · cases List.mem_singleton.mp new
        exact .inl ⟨rfl,rfl⟩
    · intro row member
      rcases List.mem_append.mp member with old | new
      · exact honest.statuses row old
      · cases List.mem_singleton.mp new
        nofun
    · intro a first b second same
      rcases List.mem_append.mp first with old | new <;> rcases List.mem_append.mp second with old' | new'
      · exact honest.ids a old b old' same
      · cases List.mem_singleton.mp new'
        exact absurd same (other a old)
      · cases List.mem_singleton.mp new
        exact absurd same.symm (other b old')
      · cases List.mem_singleton.mp new
        cases List.mem_singleton.mp new'
        rfl
  · exact fineNext honest ⟨asked,refusal,nofun⟩

/- The row that a registration reads back, its own or an earlier one of the key. -/
theorem readBackRow {ask : Ask} {inserted : Bool} {result : RestoreResult}
    (owned : inserted = true → Owned store ask.choices.requestId ask.request.targetEventId)
    (read : readBack ask inserted store.requests = .ok result) :
    ∃ row ∈ store.requests, row.request.targetEventId = ask.request.targetEventId ∧
      result = restoreResultFromRow (!inserted) row ∧ (inserted = false → store.requests.find?
        (·.request.idempotencyKey == ask.request.idempotencyKey) = some row ∧ identityMatches row.request ask.request) := by
  unfold readBack at read
  cases inserted with
  | true =>
    unfold readRequest at read
    simp only [if_true] at read
    split at read <;> cases read
    rename_i row found
    obtain ⟨member,named⟩ := Table.findSome found
    obtain ⟨own,there,same,target⟩ := owned rfl
    exact ⟨row,member,(honest.ids row member own there ((beq_iff_eq.mp named).trans same.symm)).trans target,rfl,nofun⟩
  | false =>
    unfold replayRequest at read
    simp only [Bool.false_eq_true,if_false] at read
    split at read
    · cases read
    rename_i row found
    split at read <;> cases read
    rename_i matching
    have target : row.request.targetEventId = ask.request.targetEventId := by
      simp only [identityMatches,Bool.and_eq_true,beq_iff_eq] at matching
      exact matching.1.1.1.1.1.1
    exact ⟨row,(Table.findSome found).1,target,rfl,fun _ => ⟨found,matching⟩⟩

theorem fineReading {ask : Ask} {refused : Option RestoreResult} {inserted : Bool}
    (serves : Serves env requests store (.reading ask refused inserted))
    (clear : ¬ Premature (.reading ask refused inserted) store) :
    Fine env requests store (stepReading ask refused inserted store) := by
  obtain ⟨asked,refusal,owned⟩ := serves
  unfold stepReading
  split
  · exact fineFail _ honest
  rename_i result read
  obtain ⟨row,member,target,rfl,replayed⟩ := readBackRow honest owned read
  split
  · rename_i settled
    refine fineRespond honest fun positive => ?_
    have applied : row.status = .applied := by
      have never := honest.statuses row member
      rcases positive with same | same <;> revert same never <;> unfold restoreResultFromRow <;>
        cases row.status <;> cases inserted <;> simp
    rcases honest.rows row member applied with ⟨eventless,_⟩ | restored
    · -- As it was registered: only a refusal is answered with it, and only on a replay.
      cases refused with
      | none => cases inserted <;> simp [settles,restoreResultFromRow,applied,eventless] at settled
      | some refusal =>
        cases inserted with
        | true => simp [settles,restoreResultFromRow,applied,eventless] at settled
        | false =>
          obtain ⟨found,matching⟩ := replayed rfl
          by_contra never
          exact clear ⟨⟨row,found,matching,applied,eventless⟩,never⟩
    · exact target ▸ restored
  · have working : Working requests store ask row.id := ⟨asked,row,member,rfl,target⟩
    cases refused with
    | none => exact fineNext honest working
    | some result =>
      have negative := refusal result rfl
      exact fineNext honest ⟨working,fun same => negative (.inr same),fun same => absurd (.inl same) negative⟩

theorem fineAsked {form : RestoreForm} {choices : Choices}
    (asked : ∀ request, parseRequest form = .ok request → request ∈ requests) :
    Fine env requests store (stepAsked env form choices store) := by
  unfold stepAsked
  split
  · exact fineFail _ honest
  · rename_i request parsed
    split
    · exact fineFail _ honest
    · exact fineNext honest ⟨asked request parsed,verdictRefusal⟩

theorem finePlanning {ask : Ask} {requestId : String} (working : Working requests store ask requestId) :
    Fine env requests store (stepPlanning env ask requestId store) := by
  unfold stepPlanning
  split
  · exact fineFail _ honest
  · exact fineNext honest ⟨working,conflictNegative⟩
  · rename_i event found
    split
    · exact fineFail _ honest
    · rename_i result planned
      obtain ⟨records,_,planned⟩ := checkedOk.mp planned
      obtain ⟨links,_,planned⟩ := checkedOk.mp planned
      have negative : result.status = .conflict := by
        cases outcome : refusal ask.request (buildInverse env.toEnv event records links) with
        | ok inverse => simp [outcome,Except.map] at planned
        | error refused =>
          simp only [outcome,Except.map,Except.ok.injEq,Except.error.injEq] at planned
          exact planned ▸ refusalNegative outcome
      exact fineNext honest ⟨working,by rw [negative]; nofun,by rw [negative]; nofun⟩
    · rename_i plan planned
      obtain ⟨records,_,planned⟩ := checkedOk.mp planned
      obtain ⟨links,_,planned⟩ := checkedOk.mp planned
      have same : plan.ask = ask ∧ plan.requestId = requestId := by
        cases outcome : refusal ask.request (buildInverse env.toEnv event records links) with
        | error refused => simp [outcome,Except.map] at planned
        | ok inverse =>
          simp only [outcome,Except.map,Except.ok.injEq] at planned
          exact planned ▸ ⟨rfl,rfl⟩
      refine fineNext honest ?_
      show Working requests store plan.ask plan.requestId
      rw [same.1,same.2]
      exact working

theorem fineOwning {plan : Plan} (working : Working requests store plan.ask plan.requestId) :
    Fine env requests store (stepOwning plan store) := by
  unfold stepOwning
  split <;> exact fineNext honest working

theorem fineCreating {plan : Plan} (working : Working requests store plan.ask plan.requestId) :
    Fine env requests store (stepCreating plan store) := by
  unfold stepCreating
  dsimp only
  split
  · exact fineFail _ honest
  · exact ⟨⟨fun _ => id,fun _ _ => id⟩,⟨honest.rows,honest.statuses,honest.ids,honest.receipts⟩,working,
      fun _ member => absurd member List.not_mem_nil⟩

/- A receipt of the action is in the ledger, so the event was restored. -/
theorem fineSettle {plan : Plan} (working : Working requests store plan.ask plan.requestId)
    {answer : Except ActionError ActionReceipt} (stored : ∀ receipt, answer = .ok receipt →
      receipt ∈ store.database.curation.receipts ∧ receipt.actionId = (restoreActionId env plan.ask.request).text) :
    Fine env requests store (settle plan answer store) := by
  unfold settle
  split
  · rename_i receipt
    obtain ⟨member,own⟩ := stored receipt rfl
    exact fineNext honest ⟨working,own,honest.receipts receipt member⟩
  · exact fineNext honest ⟨working,conflictNegative⟩
  · exact fineFail _ honest

theorem fineExecuting {plan : Plan} (working : Working requests store plan.ask plan.requestId) :
    Fine env requests store (stepExecuting env plan store) := by
  unfold stepExecuting
  split
  · exact fineSettle honest working fun _ same => nomatch same
  · rename_i p prepared
    split
    · rename_i answer looked
      refine fineSettle honest working fun receipt answered => ?_
      subst answered
      obtain ⟨existing,found,checked⟩ := Option.map_eq_some_iff.mp looked
      obtain ⟨_,_,rfl⟩ := mappedOk.mp checked
      obtain ⟨member,named⟩ := Table.findSome found
      exact ⟨member,(Prod.mk.inj (Curation.isReceiptIff.mp named)).2⟩
    · exact fineNext honest ⟨working,prepared⟩

/- A transaction that commits writes the event of the restore together with its receipt. -/
theorem fineTransacting (apart : Apart env requests) {plan : Plan} {p : Prepared}
    (serves : Serves env requests store (.transacting plan p)) :
    Fine env requests store (stepTransacting env plan p store) := by
  obtain ⟨working,prepared⟩ := serves
  unfold stepTransacting
  rcases ran : Curation.runTransaction env.actions (attemptOf env plan) p store.database with ⟨answer,after⟩
  dsimp only
  cases answer with
  | error error =>
    cases Curation.runTransactionError env.actions ran
    exact fineSettle honest working fun _ same => (by cases same)
  | ok receipt =>
    rcases @Curation.recordedTransaction _ (fun _ => True) _ _ _ _ _ (fun _ _ _ _ _ => trivial) ran with
      ⟨committed,_,_,⟨recorded⟩⟩ | ⟨found,_,rfl⟩
    · have grown := recorded.chronicle
      simp only [chronicle,Prod.mk.injEq] at grown
      have restored : Restored after plan.ask.request.targetEventId := by
        refine ⟨recorded.event,by rw [grown.1]; exact List.mem_append_right _ List.mem_cons_self,?_,
          recorded.witnesses.restoresEventId⟩
        rw [recorded.witnesses.operation,Curation.preparedOperation env.actions prepared rfl]
        decide
      have grows : Grows store { store with database := after } := by
        refine ⟨?_,fun _ _ => id⟩
        rintro _ ⟨event,member,same⟩
        exact ⟨event,by rw [grown.1]; exact List.mem_append_left _ member,same⟩
      have kept : Honest env requests { store with database := after } := by
        refine ⟨fun row member applied => (honest.rows row member applied).imp_right (grows.restored _),honest.statuses,
          honest.ids,fun other member request asked same => ?_⟩
        rw [committed.receipts] at member
        rcases List.mem_append.mp member with old | new
        · exact grows.restored _ (honest.receipts other old request asked same)
        · cases List.mem_singleton.mp new
          rw [← apart _ working.1 request asked (uuidTextInjective (committed.key.2.symm.trans same))]
          exact restored
      refine fineFrom grows (fineSettle kept working fun _ same => ?_)
      cases same
      exact ⟨by rw [committed.receipts]; exact List.mem_append_right _ List.mem_cons_self,committed.key.2⟩
    · refine fineSettle honest working fun _ same => ?_
      cases same
      obtain ⟨member,named⟩ := Table.findSome found
      exact ⟨member,(Prod.mk.inj (Curation.isReceiptIff.mp named)).2⟩

theorem fineVerifying {plan : Plan} {receipt : ActionReceipt} (serves : Serves env requests store (.verifying plan receipt)) :
    Fine env requests store (stepVerifying env plan receipt store) := by
  obtain ⟨working,own,covers⟩ := serves
  refine ⟨⟨fun _ => id,fun _ _ => id⟩,⟨honest.rows,honest.statuses,honest.ids,fun row member request asked same => ?_⟩,
    ⟨working,nofun,fun _ => covers _ working.1 own⟩,fun _ member => absurd member List.not_mem_nil⟩
  obtain ⟨old,there,shape⟩ := Table.memUpdate.mp member
  split at shape
  · subst shape
    exact covers request asked same
  · subst shape
    exact honest.receipts _ there request asked same

theorem honestOutcome {ask : Ask} {requestId terminalizedAt : String} {result : RestoreResult}
    (serves : Serves env requests store (.finishing ask requestId result)) :
    Honest env requests { store with
      requests := Table.update (isOpen requestId) (outcome result terminalizedAt) store.requests } := by
  obtain ⟨⟨asked,own,there,named,target⟩,fresh,covers⟩ := serves
  refine ⟨fun row member applied => ?_,fun row member => ?_,fun a first b second same => ?_,honest.receipts⟩
  · obtain ⟨_,old,before,_,requested,rfl | ⟨mine,status⟩⟩ := outcomeRow member
    · exact honest.rows _ before applied
    · rw [requested,honest.ids old before own there (mine.trans named.symm),target]
      exact .inr (covers (status.symm.trans applied))
  · obtain ⟨_,old,before,_,_,rfl | ⟨_,status⟩⟩ := outcomeRow member
    · exact honest.statuses _ before
    · exact status ▸ fresh
  · obtain ⟨_,old,before,id,requested,_⟩ := outcomeRow first
    obtain ⟨_,old',before',id',requested',_⟩ := outcomeRow second
    rw [requested,requested']
    exact honest.ids old before old' before' (id ▸ id' ▸ same)

theorem fineFinishing {ask : Ask} {requestId : String} {result : RestoreResult}
    (serves : Serves env requests store (.finishing ask requestId result)) :
    Fine env requests store (stepFinishing ask requestId result store) := by
  have after := @honestOutcome env requests store honest ask requestId ask.choices.terminalizedAt result serves
  have grows := @growsOutcome store requestId ask.choices.terminalizedAt result
  obtain ⟨⟨asked,own,there,named,target⟩,fresh,covers⟩ := serves
  unfold stepFinishing
  rcases ran : terminalizeRequest requestId result ask.choices.terminalizedAt store.database.memory store.requests with
    ⟨answer,rows⟩
  rcases terminalizeRows ran with ⟨rfl,error,rfl⟩ | ⟨rfl,read⟩
  · exact fineFail error honest
  · cases answer with
    | error error => exact fineFrom grows (fineFail error after)
    | ok stored =>
      refine fineFrom grows (fineRespond after fun positive => ?_)
      have read := read stored rfl
      unfold readRequest at read
      split at read <;> cases read
      rename_i row found
      obtain ⟨member,mine⟩ := Table.findSome found
      rw [beq_iff_eq] at mine
      have applied : row.status = .applied := positive.resolve_right (after.statuses row member)
      obtain ⟨final,old,before,id,requested,_⟩ := outcomeRow member
      have restored := (after.rows row member applied).resolve_left fun unfinished => final mine unfinished.2
      rw [requested,honest.ids old before own there (id.symm.trans (mine.trans named.symm)),target] at restored
      exact restored

theorem fineWriting {effect : Database → Database} (fair : Fair env requests effect) :
    Fine env requests store (next .written { store with database := effect store.database }) := by
  have grows : Grows store { store with database := effect store.database } := by
    refine ⟨fun target ⟨event,member,operation,restores⟩ => ?_,fun _ _ => id⟩
    obtain ⟨kept,there,same,target⟩ := fair.history store.database event member
    exact ⟨kept,there,same.trans operation,target.trans restores⟩
  refine fineFrom grows (fineNext ⟨fun row member applied => (honest.rows row member applied).imp_right (grows.restored _),
    honest.statuses,honest.ids,fun receipt member request asked same => ?_⟩ trivial)
  obtain ⟨stored,there,named⟩ := fair.receipts store.database receipt member request asked same
  exact grows.restored _ (honest.receipts stored there request asked (named.trans same))

theorem fineStep (apart : Apart env requests) {call : Call} (serves : Serves env requests store call)
    (clear : ¬ Premature call store) : Fine env requests store (step env call store) := by
  cases call with
  | asked form choices => exact fineAsked honest serves
  | registering ask refused => exact fineRegistering honest serves.1 serves.2
  | reading ask refused inserted => exact fineReading honest serves clear
  | planning ask requestId => exact finePlanning honest serves
  | owning plan => exact fineOwning honest serves
  | creating plan => exact fineCreating honest serves
  | executing plan => exact fineExecuting honest serves
  | transacting plan p => exact fineTransacting honest apart serves
  | verifying plan receipt => exact fineVerifying honest serves
  | finishing ask requestId result => exact fineFinishing honest serves
  | writing effect => exact fineWriting honest serves
  | answered | written => exact fineNext honest trivial

omit honest

/- What holds in every state that a run of such steps reaches. -/
structure Trusted (env : Env) (requests : List RestoreRequest) (w : World Call Store Response) : Prop where
  honest : Honest env requests w.store
  serves : ∀ call ∈ w.calls, Serves env requests w.store call
  told : Truthful' w

theorem nextTrusted (apart : Apart env requests) (w : World Call Store Response) (event : Event Op)
    (fine : Settles w event ∧ Expected env requests event) (trusted : Trusted env requests w) :
    Trusted env requests ((restores env).next w event) := by
  obtain ⟨clear,expected⟩ := fine
  cases event with
  | start op =>
    refine ⟨trusted.honest,fun call member => ?_,trusted.told⟩
    rcases List.mem_append.mp member with old | new
    · exact trusted.serves call old
    · cases List.mem_singleton.mp new
      cases op <;> exact expected
  | advance index =>
    cases found : w.calls[index]? with
    | none =>
      rw [nextIdle found]
      exact trusted
    | some call =>
      rw [nextAdvance found]
      have fine := fineStep trusted.honest apart (trusted.serves call (List.mem_of_getElem? found)) (clear call found)
      refine ⟨fine.honest,fun other member => ?_,fun response member => ?_⟩
      · rcases List.mem_or_eq_of_mem_set member with old | rfl
        · exact servesGrown fine.grows (trusted.serves other old)
        · exact fine.serves
      · rcases List.mem_append.mp member with new | old
        · exact fine.told response new
        · exact fun positive => fine.grows.restored _ (trusted.told response old positive)

/- A refused call that finds its request as it was registered says that it was applied. -/
theorem prematureTold {call : Call} (premature : Premature call store) :
    ∃ response ∈ (step env call store).2.2, ¬ Told (step env call store).2.1.database response := by
  unfold Premature at premature
  split at premature
  · rename_i ask refusal
    obtain ⟨⟨row,found,matching,applied,eventless⟩,never⟩ := premature
    have read : readBack ask false store.requests = .ok (restoreResultFromRow true row) := by
      simp [readBack,replayRequest,found,matching]
    have already : (restoreResultFromRow true row).status = .alreadyApplied := by simp [restoreResultFromRow,applied]
    have ran : step env (.reading ask (some refusal) false) store = respond ask (restoreResultFromRow true row) store := by
      simp [step,stepReading,read,settles,already]
    rw [ran]
    exact ⟨_,List.mem_cons_self,fun told => never (told (.inr already))⟩
  · exact premature.elim

/- In a run from any database and no requests, the responses are true in every state that is reached
if and only if no refused call finds its request as it was registered. -/
theorem restoreTruthful (apart : Apart env requests) {database : Database} {events : List (Event Op)}
    (fresh : ∀ receipt ∈ database.curation.receipts, ∀ request ∈ requests,
      receipt.actionId ≠ (restoreActionId env request).text)
    (expected : ∀ event ∈ events, Expected env requests event) :
    (∀ n, Truthful' ((restores env).run (idle ⟨database,[]⟩) (events.take n))) ↔
      Meets (restores env) Settles (idle ⟨database,[]⟩) events := by
  constructor
  · intro truthful
    refine meetsAt.mpr fun n event found => ?_
    cases event with
    | start op => trivial
    | advance index =>
      intro call there premature
      obtain ⟨response,member,false⟩ := @prematureTold env _ _ premature
      refine false ?_
      have after := truthful (n + 1)
      rw [List.take_add_one,found,Option.toList,runAppend] at after
      have step : (restores env).run ((restores env).run (idle ⟨database,[]⟩) (events.take n)) [.advance index] = _ :=
        nextAdvance there
      rw [step] at after
      exact after response (List.mem_append_left _ member)
  · intro settles n
    have start : Trusted env requests (idle ⟨database,[]⟩) :=
      ⟨⟨fun _ member => absurd member List.not_mem_nil,fun _ member => absurd member List.not_mem_nil,
        fun _ member => absurd member List.not_mem_nil,fun receipt member request asked same =>
          absurd same (fresh receipt member request asked)⟩,fun _ member => absurd member List.not_mem_nil,
        fun _ member => absurd member List.not_mem_nil⟩
    refine (@runMeets _ _ _ _ (restores env) (fun w event => Settles w event ∧ Expected env requests event) _
      (nextTrusted apart) _ _ (meetsAt.mpr fun k event found => ?_) start).told
    rw [List.getElem?_take] at found
    split at found
    · rename_i less
      refine ⟨?_,expected event (List.mem_of_getElem? found)⟩
      rw [List.take_take,Nat.min_eq_left less.le]
      exact meetsAt.mp settles k event found
    · cases found

/-! A request to restore an archived memory, which has no inverse. -/

def archivedEvent : MutationEvent :=
  ⟨first,"archive_memory",.maintenance,some "curation",none,none,none,none,none,.applied,none,none,"t0"⟩

def archivedHistory : Database := { Database.empty with memory := { Memory.empty with events := [archivedEvent.row] } }

def undoId : String := "11e0ac15-5275-5157-86fb-6686ac279eb4"

theorem undoCanonical : Curation.uuid undoId = .ok undoId := rfl

/- `uuid5` of the first id and "restore:key". -/
def plainRestores : Env := ⟨⟨plainEnv,fun title _ _ => title⟩,fun _ _ => ⟨undoId,undoCanonical⟩⟩

def undoRequest : RestoreRequest := ⟨first,.all,[],[],none,"undo","key",false⟩

def undo (requestId : String) : Event Op := .start (.restore ⟨Curation.firstId,"all",.null,.null,none,"undo","key",false⟩
  ⟨requestId,second,"t1","t2","t3",⟨"model",none⟩,fun n => ⟨none,toString n,"t",n⟩⟩)

theorem undoParses {request : RestoreRequest} (parsed : parseRequest
    ⟨Curation.firstId,"all",.null,.null,none,"undo","key",false⟩ = .ok request) : request ∈ [undoRequest] :=
  List.mem_singleton.mpr (Except.ok.inj (parsed.symm.trans rfl))

theorem settlesClear {w : World Call Store Response} {index call} (found : w.calls[index]? = some call)
    (clear : ¬ Premature call w.store) : Settles w (.advance index) := fun _ there => by
  cases found.symm.trans there
  exact clear

theorem restoreTruthfulSample : Truthful' ((restores plainRestores).run (idle ⟨archivedHistory,[]⟩)
    [undo "r1",.advance 0,.advance 0,.advance 0,.advance 0]) := by
  have apart : Apart plainRestores [undoRequest] := fun a first b second _ => by
    cases List.mem_singleton.mp first
    cases List.mem_singleton.mp second
    rfl
  have settled : Meets (restores plainRestores) Settles (idle ⟨archivedHistory,[]⟩)
      [undo "r1",.advance 0,.advance 0,.advance 0,.advance 0] :=
    ⟨trivial,settlesClear rfl id,settlesClear rfl id,settlesClear rfl id,settlesClear rfl id,trivial⟩
  refine (restoreTruthful apart (fun _ member => absurd member List.not_mem_nil) fun event member => ?_).mpr settled 5
  simp only [List.mem_cons,List.not_mem_nil,or_false] at member
  rcases member with rfl | rfl | rfl | rfl | rfl
  · exact fun _ => undoParses
  all_goals trivial

/- The first call crashes with its refusal in hand; the second takes the request for applied. -/
theorem crashedRequestApplied : ¬ Truthful' ((restores plainRestores).run (idle ⟨archivedHistory,[]⟩)
    [undo "r1",.advance 0,.advance 0,undo "r2",.advance 1,.advance 1,.advance 1]) := by
  intro truthful
  have trace : ((restores plainRestores).run (idle ⟨archivedHistory,[]⟩)
      [undo "r1",.advance 0,.advance 0,undo "r2",.advance 1,.advance 1,.advance 1]).trace =
      [⟨undoRequest,⟨.alreadyApplied,some "r1",none,first,none,[]⟩⟩] := rfl
  obtain ⟨event,member,operation,_⟩ := truthful ⟨undoRequest,⟨.alreadyApplied,some "r1",none,first,none,[]⟩⟩
    (trace ▸ List.mem_cons_self) (.inr rfl)
  cases List.mem_singleton.mp member
  exact absurd operation (by decide)

end McpMemory.History
