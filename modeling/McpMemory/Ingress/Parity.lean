import McpMemory.Ingress.Mirrored

/-! The atomic ingress paths of SQLite and PostgreSQL answer alike, with three exceptions: a batch
without evidence, a target that is not there, and an entry id that SQLite cannot bind. -/
namespace McpMemory.Ingress
open Memory Text Transaction

variable {env : ServiceEnv} {config : Config} {now : Moment IngressError} {p : Prepared} {call : IngestCall} {createdAt : String}

/- From the reserved receipt to the journal. -/
def settle (env : Env) (config : Config) (p : Prepared) (callback : Callback) (createdAt : String) : Action ActionReceipt := do
  let receipt ← applyMutation env config p callback createdAt
  updateReceipt receipt
  each assignCoverage p.coverage
  pure receipt

def Postgres.settle (env : Env) (config : Config) (p : Prepared) (callback : Callback) (createdAt : String) :
    Postgres.Action ActionReceipt := do
  let receipt ← Postgres.applyMutation env config p callback createdAt
  Postgres.common (updateReceipt receipt)
  Postgres.common (each Postgres.assignCoverage p.coverage)
  pure receipt

def reserved (p : Prepared) (createdAt : String) (work : Work) : Work := { work with database := { work.database with
  ingress := { work.database.ingress with receipts := work.database.ingress.receipts ++ [provisional p createdAt] } } }

/- What is left of the transaction after that. -/

def finish (config : Config) (p : Prepared) (receipt : ActionReceipt) : Action (Ending ActionReceipt) := do
  reconcileJournal config p
  pure (.commit receipt)

def Postgres.finish (config : Config) (p : Prepared) (receipt : ActionReceipt) : Postgres.Action (Ending ActionReceipt) := do
  Postgres.common (Postgres.reconcileJournal config p)
  pure (.commit receipt)

/- The same without the limit on what can be bound. -/
def finishUnbounded (config : Config) (p : Prepared) (receipt : ActionReceipt) : Action (Ending ActionReceipt) := do
  Postgres.reconcileJournal config p
  pure (.commit receipt)

section
variable (quiet : now.fault = none)
include quiet

theorem mirrorsEachAssign (items : List SourceCoverage) {before : Work} :
    Mirrors now Shared id (each Postgres.assignCoverage items) (each assignCoverage items) before := by
  induction items generalizing before with
  | nil => exact steadyMirrors (steadyPure ())
  | cons item rest ih => exact mirrorsThen (mirrorsAssign quiet item) fun _ _ _ => ih

theorem mirrorsSettle {before : Postgres.Work} (twins : Twins before) :
    Mirrors now Shared seen (Postgres.settle env.store config p (call.callback env) createdAt)
      (settle env.store config p (call.callback env) createdAt) before :=
  mirrorsBind (mirrorsMutation quiet twins call p createdAt) fun _ _ _ _ =>
    mirrorsBind (mirrorsCommon (steadyMirrors (steadyWrite quiet _))) fun _ _ _ _ =>
    mirrorsBind (mirrorsCommon (mirrorsEachAssign quiet _)) fun _ _ _ _ => mirrorsPure _

theorem mirrorsUnbounded (receipt : ActionReceipt) {before : Postgres.Work} :
    Mirrors now Shared seen (Postgres.finish config p receipt) (finishUnbounded config p receipt) before := by
  refine mirrorsBind (mirrorsCommon (steadyMirrors ?_)) fun _ _ _ _ => mirrorsPure _
  unfold Postgres.reconcileJournal Postgres.moveClaimedJournalEntries
  cases p.journalTask with
  | none => exact steadyPure ()
  | some task =>
    refine steadyBind ?_ fun _ _ _ => steadyFailStage quiet _
    split
    · exact steadyPure ()
    · exact steadyBind steadyObserve fun _ _ _ => steadyWrite quiet _

theorem steadyUnbounded (receipt : ActionReceipt) {work : Work} :
    Steady now (· = .injectedFailure "journal_reconcile") (finishUnbounded config p receipt) work := by
  refine steadyBind ?_ fun _ _ _ => steadyPure _
  unfold Postgres.reconcileJournal Postgres.moveClaimedJournalEntries
  cases p.journalTask with
  | none => exact steadyPure ()
  | some task =>
    refine steadyBind ?_ fun _ _ _ => stageSteady quiet _
    split
    · exact steadyPure ()
    · exact steadyBind steadyObserve fun _ _ _ => steadyWrite quiet _

/- Where SQLite can bind every id, and where it cannot. -/

omit quiet in
theorem moveBound {task : String} {ids : List Nat} (fits : ∀ id ∈ ids, id < 2 ^ 63) :
    moveClaimedJournalEntries task ids = Postgres.moveClaimedJournalEntries task ids := by
  have bound : ¬ ids.any (2 ^ 63 ≤ ·) = true := by simpa using fits
  unfold moveClaimedJournalEntries Postgres.moveClaimedJournalEntries
  by_cases empty : ids.isEmpty = true
  · rw [if_pos empty,if_pos empty]
  · rw [if_neg empty,if_neg empty]
    exact congrArg (observe >>= ·) (funext fun now => if_neg bound)

omit quiet in
theorem finishBound (fits : ∀ id ∈ p.journalIds, id < 2 ^ 63) : finish config p = finishUnbounded config p := by
  have same : reconcileJournal config p = Postgres.reconcileJournal config p := by
    unfold reconcileJournal Postgres.reconcileJournal
    cases p.journalTask with
    | none => rfl
    | some task => exact congrArg (· >>= fun _ => failStage config "journal_reconcile") (moveBound fits)
  funext receipt
  exact congrArg (fun moved : Action Unit => moved >>= fun _ => pure (Ending.commit receipt)) same

omit quiet in
theorem endsOverflow {task : String} (claimed : p.journalTask = some task) {id : Nat} (listed : id ∈ p.journalIds) (large : 2 ^ 63 ≤ id)
    (receipt : ActionReceipt) {work : Work} : Ends now (finish config p receipt) work (.error .overflowError) work := by
  have some : p.journalIds.isEmpty = false := List.isEmpty_eq_false_iff.mpr (List.ne_nil_of_mem listed)
  have unbound : p.journalIds.any (2 ^ 63 ≤ ·) = true := List.any_eq_true.mpr ⟨id,listed,decide_eq_true large⟩
  refine endsRaised ?_
  unfold reconcileJournal moveClaimedJournalEntries
  rw [claimed]
  simp only [some,unbound,Bool.false_eq_true,if_false,if_true]
  exact endsRaised (endsBind endsObserve fun moment => ⟨moment,rfl⟩)

omit quiet in
theorem bodySplit (env : Env) (callback : Callback) : body env config p callback =
    select (receiptForAction p.identity.actionId) >>= fun
      | some existing =>
        if existing.canonicalPayloadDigest ≠ p.digest then
          raise (.identityConflict existing.actionId existing.canonicalPayloadDigest p.digest)
        else pure (.rollback existing)
      | none => observe >>= fun now => insertReceipt (provisional p now.text) >>= fun _ =>
        settle env config p callback now.text >>= finish config p := by
  unfold body settle finish
  simp only [bindAssoc]
  rfl

omit quiet in
theorem Postgres.bodySplit (env : Env) (callback : Callback) : Postgres.body env config p callback =
    observe >>= fun now => reserveReceipt (provisional p now.text) >>= fun inserted =>
      if inserted then lockTargets p.identity.targetIds >>= fun _ =>
        Postgres.settle env config p callback now.text >>= Postgres.finish config p
      else replay p := by
  unfold Postgres.body Postgres.settle Postgres.finish
  simp only [bindAssoc]
  rfl

/- Where the action has a receipt. -/
theorem mirrorsReplay {before : Postgres.Work} {existing : ActionReceipt} {callback : Callback}
    (found : receiptForAction p.identity.actionId before.shared = some existing) : Mirrors now Shared seen
      (Postgres.body env.store config p callback) (body env.store config p callback) before := by
  have there : before.shared.database.ingress.receipts.any (·.actionId == (provisional p now.text).actionId) = true := by
    obtain ⟨listed,named⟩ := Table.findSome found
    exact List.any_eq_true.mpr ⟨existing,listed,named⟩
  have reservation : Ends now (Postgres.reserveReceipt (provisional p now.text)) before (.ok false) before :=
    endsStatement quiet (by dsimp only; rw [there]; rfl)
  have looked : Ends now (select fun work : Postgres.Work => receiptForAction p.identity.actionId work.shared) before
      (.ok (some existing)) before := found ▸ endsSelect quiet _
  have sought : Ends now (select (receiptForAction p.identity.actionId)) before.shared (.ok (some existing)) before.shared :=
    found ▸ endsSelect quiet _
  rw [bodySplit,Postgres.bodySplit]
  refine mirrorsContinued (continuesBind endsObserve (continuesBind reservation (continuesBind looked continuesHere)))
    (continuesBind sought continuesHere) ?_
  dsimp only
  split
  · exact mirrorsRaise fun same => IngressError.noConfusion same
  · exact mirrorsPure _

/- Where it has none. -/

omit quiet in
theorem unlisted {work : Work} (fresh : receiptForAction p.identity.actionId work = none) :
    work.database.ingress.receipts.any (·.actionId == (provisional p createdAt).actionId) = false := by
  rw [List.any_eq_false]
  exact fun receipt member => List.find?_eq_none.mp fresh receipt member

theorem continuesBody {work : Work} (fresh : receiptForAction p.identity.actionId work = none) (callback : Callback) :
    Continues now (body env.store config p callback) work
      (settle env.store config p callback now.text >>= finish config p) (reserved p now.text work) := by
  have sought : Ends now (select (receiptForAction p.identity.actionId)) work (.ok none) work := fresh ▸ endsSelect quiet _
  have inserted : Ends now (insertReceipt (provisional p now.text)) work (.ok ()) (reserved p now.text work) :=
    endsStatement quiet (by dsimp only; rw [unlisted fresh]; rfl)
  rw [bodySplit]
  exact continuesBind sought (continuesBind endsObserve (continuesBind inserted continuesHere))

theorem endsLockTargets {before : Postgres.Work} {targets : List String}
    (there : ∀ target ∈ targets, before.shared.database.memory.has target = true) :
    Ends now (Postgres.lockTargets targets) before (.ok ()) before := by
  induction targets with
  | nil => exact fun moment => ⟨moment,rfl⟩
  | cons target rest ih =>
    have found : Ends now (Postgres.lockTarget target) before (.ok ()) before := by
      refine endsBind (endsSelect quiet _) ?_
      rw [there target List.mem_cons_self]
      exact fun moment => ⟨moment,rfl⟩
    exact endsBind found (ih fun other member => there other (List.mem_cons_of_mem _ member))

/- The receipt that PostgreSQL has reserved by then. -/
def Postgres.reserved (p : Prepared) (createdAt : String) (work : Postgres.Work) : Postgres.Work :=
  { work with shared := Ingress.reserved p createdAt work.shared }

theorem Postgres.continuesBody {work : Postgres.Work} (fresh : receiptForAction p.identity.actionId work.shared = none)
    (known : p.batchId ∈ work.batches) {callback : Callback} {rest : Postgres.Action (Ending ActionReceipt)} {after}
    (onward : Continues now (Postgres.lockTargets p.identity.targetIds >>= fun _ =>
      Postgres.settle env.store config p callback now.text >>= Postgres.finish config p)
      (Postgres.reserved p now.text work) rest after) :
    Continues now (Postgres.body env.store config p callback) work rest after := by
  have inserted : Ends now (Postgres.reserveReceipt (provisional p now.text)) work (.ok true) (Postgres.reserved p now.text work) := by
    have listed : work.batches.contains (provisional p now.text).batchId = true := List.contains_iff_mem.mpr known
    refine endsStatement quiet ?_
    dsimp only
    rw [unlisted fresh,listed]
    rfl
  rw [Postgres.bodySplit]
  exact continuesBind endsObserve (continuesBind inserted onward)

/- The batch has no evidence. -/
theorem Postgres.endsUnknown {work : Postgres.Work} (fresh : receiptForAction p.identity.actionId work.shared = none)
    (unknown : p.batchId ∉ work.batches) (callback : Callback) :
    Ends now (Postgres.body env.store config p callback) work (.error Postgres.unknownBatch) work := by
  have unlistedBatch : work.batches.contains (provisional p now.text).batchId = false :=
    Bool.eq_false_iff.mpr fun listed => unknown (List.contains_iff_mem.mp listed)
  rw [Postgres.bodySplit]
  refine endsBind endsObserve (endsRaised (endsRefused quiet ?_))
  dsimp only
  rw [unlisted fresh,unlistedBatch]
  rfl

/- What SQLite raises once the receipt is there and no target is missing. -/
theorem steadyFinish {fine : IngressError → Prop} (unbound : fine .overflowError) (injected : fine (.injectedFailure "journal_reconcile"))
    (receipt : ActionReceipt) {work : Work} : Steady now fine (finish config p receipt) work := by
  refine steadyBind ?_ fun _ _ _ => steadyPure _
  unfold reconcileJournal moveClaimedJournalEntries
  cases p.journalTask with
  | none => exact steadyPure ()
  | some task =>
    refine steadyBind ?_ fun _ _ _ => steadyMono (stageSteady quiet _) fun _ same => same ▸ injected
    dsimp only
    split
    · exact steadyPure ()
    · refine steadyBind steadyObserve fun _ _ _ => ?_
      split
      · exact steadyRaise unbound
      · exact steadyWrite quiet _

theorem steadyBody {work : Postgres.Work} (fresh : receiptForAction p.identity.actionId work.shared = none) (twins : Twins work) :
    Steady now Shared (body env.store config p (call.callback env)) work.shared := by
  have kept : Twins (Postgres.reserved p now.text work) := ⟨twins.labelled,twins.sequence⟩
  obtain ⟨outcome,after,ends,allowed,_⟩ := mirrorsSettle quiet kept
  have settled : Steady now Shared (settle env.store config p (call.callback env) now.text) (reserved p now.text work.shared) :=
    ⟨outcome,after,ends,allowed⟩
  obtain ⟨last,final,ended,fine⟩ := steadyBind settled fun receipt _ _ =>
    @steadyFinish config now p quiet Shared (fun same => IngressError.noConfusion same)
      (fun same => IngressError.noConfusion same) receipt _
  exact ⟨last,final,continuesEnds (continuesBody quiet fresh _) ended,fine⟩

/- The target of an append is missing. -/

omit quiet in
theorem missingRecord {t : Memory.Tables} {memoryId : String} (missing : t.has memoryId = false) : recordById memoryId t = none := by
  have gone : selectRow memoryId t = none :=
    List.find?_eq_none.mpr fun row member => List.any_eq_false.mp missing row member
  rw [recordById,gone]
  rfl

theorem endsApplyMissing {arguments : AppendArguments} {target : String} {work : Work}
    (named : identifier env.store arguments.memoryId "memory_id" = .ok target) (missing : work.database.memory.has target = false) :
    Ends now ((applyAppend env arguments).play (perform env.store)) work (.error (.atomicService "memory_not_found" none)) work := by
  have looked : Ends now (getMemory env.store arguments.memoryId) work (.ok none) work := by
    rw [← missingRecord missing]
    exact endsBind (fun moment => ⟨moment,by rw [named]; rfl⟩) (givesOnTables quiet rfl)
  simp only [applyAppend,playBind,playAsk]
  exact endsBind looked fun moment => ⟨moment,rfl⟩

theorem steadyMissing {arguments : AppendArguments} {target : String} {work : Work}
    (fresh : receiptForAction p.identity.actionId work = none)
    (named : identifier env.store arguments.memoryId "memory_id" = .ok target) (missing : work.database.memory.has target = false) :
    Steady now (· ≠ Postgres.notFound target) (body env.store config p (applyAppend env arguments)) work := by
  have mutation : ∃ error after, Ends now (applyMutation env.store config p (applyAppend env arguments) now.text)
      (reserved p now.text work) (.error error) after ∧ error ≠ Postgres.notFound target := by
    obtain ⟨outcome,state,staged,injected⟩ := @stageSteady config now quiet (reserved p now.text work) "action_reserved"
    cases outcome with
    | error error => exact ⟨error,state,endsRaised staged,injected error rfl ▸ fun same => IngressError.noConfusion same⟩
    | ok _ =>
      obtain ⟨_,ran⟩ := staged 0
      have unstaged : state.database.memory = work.database.memory := (keepsFailStage config "action_reserved" : Keeps port.tables _).ok ran
      have applied := endsApplyMissing quiet named (unstaged ▸ missing : state.database.memory.has target = false)
      exact ⟨_,_,endsBind staged (endsBind (givesOnTables quiet rfl) (endsRaised applied)),fun same => IngressError.noConfusion same⟩
  obtain ⟨error,after,ends,other⟩ := mutation
  exact ⟨_,_,continuesEnds (continuesBody quiet fresh _) (endsRaised (endsRaised ends)),oneError other⟩

theorem Postgres.endsMissing {target : String} {work : Postgres.Work}
    (fresh : receiptForAction p.identity.actionId work.shared = none) (known : p.batchId ∈ work.batches)
    (only : p.identity.targetIds = [target]) (missing : work.shared.database.memory.has target = false) (callback : Callback) :
    Ends now (Postgres.body env.store config p callback) work (.error (Postgres.notFound target)) (Postgres.reserved p now.text work) := by
  have lock : Ends now (Postgres.lockTarget target) (Postgres.reserved p now.text work) (.error (Postgres.notFound target))
      (Postgres.reserved p now.text work) := by
    refine endsBind (endsSelect quiet _) ?_
    rw [show (Postgres.reserved p now.text work).shared.database.memory.has target = false from missing]
    exact fun moment => ⟨moment,rfl⟩
  refine continuesEnds (Postgres.continuesBody quiet fresh known continuesHere) ?_
  rw [only]
  exact endsRaised (endsRaised lock)

/- The targets are there. -/

theorem mirrorsOnward {work : Postgres.Work} (twins : Twins work) : Mirrors now Shared seen
    (Postgres.settle env.store config p (call.callback env) now.text >>= Postgres.finish config p)
    (settle env.store config p (call.callback env) now.text >>= finishUnbounded config p) (Postgres.reserved p now.text work) :=
  mirrorsBind (mirrorsSettle quiet ⟨twins.labelled,twins.sequence⟩) fun receipt _ _ _ => mirrorsUnbounded quiet receipt

theorem Postgres.continuesOnward {work : Postgres.Work} (fresh : receiptForAction p.identity.actionId work.shared = none)
    (known : p.batchId ∈ work.batches) (there : ∀ target ∈ p.identity.targetIds, work.shared.database.memory.has target = true)
    (callback : Callback) : Continues now (Postgres.body env.store config p callback) work
      (Postgres.settle env.store config p callback now.text >>= Postgres.finish config p) (Postgres.reserved p now.text work) :=
  Postgres.continuesBody quiet fresh known (continuesBind (endsLockTargets quiet there) continuesHere)

/- Where the two answer alike for a prepared request. -/

/- An exception that the service lets pass. -/
def IngressError.uncaught : IngressError → Bool
  | .atomicService .. => false
  | .identityConflict .. => false
  | _ => true

/- The one raises it and the other does not. -/
def Apart (error : IngressError) (one other : Except IngressError ActionReceipt) : Prop :=
  one = .error error ∧ other ≠ .error error ∨ other = .error error ∧ one ≠ .error error

/- What comes of the steps before the journal. -/
def beforeJournal (env : ServiceEnv) (config : Config) (now : Moment IngressError) (call : IngestCall) (p : Prepared) (work : Work) :
    Except IngressError ActionReceipt :=
  (settle env.store config p (call.callback env) now.text (fun _ => now) ⟨reserved p now.text work,0⟩).1

def Coincide (env : ServiceEnv) (config : Config) (now : Moment IngressError) (call : IngestCall) (p : Prepared) (work : Postgres.Work) : Prop :=
  (∃ existing ∈ work.shared.database.ingress.receipts, existing.actionId = p.identity.actionId) ∨
  p.batchId ∈ work.batches ∧ (∀ target ∈ p.identity.targetIds, work.shared.database.memory.has target = true) ∧
    ((∀ id ∈ p.journalIds, id < 2 ^ 63) ∨ ∃ error, beforeJournal env config now call p work.shared = .error error)

omit quiet in
theorem preparedParts {env : Env} {request : Request} (ok : prepare env request = .ok p) :
    canonicalIds env request.targetIds = .ok p.identity.targetIds ∧
    requestedJournalIds p.journalTask p.identity.entryIds = .ok p.journalIds := by
  unfold prepare at ok
  obtain ⟨_,_,ok⟩ := checkedOk.mp ok
  obtain ⟨_,_,ok⟩ := checkedOk.mp ok
  split at ok
  · cases ok
  obtain ⟨identity,found,ok⟩ := checkedOk.mp ok
  obtain ⟨_,_,ok⟩ := checkedOk.mp ok
  obtain ⟨task,_,ok⟩ := checkedOk.mp ok
  obtain ⟨ids,read,ok⟩ := checkedOk.mp ok
  obtain ⟨_,_,ok⟩ := checkedOk.mp ok
  cases ok
  exact ⟨(actionIdentitySource env found).2,read⟩

/- A create has no target, and an append one. -/
omit quiet in
theorem soleTarget (ok : prepare env.store (call.request env) = .ok p) {target} (listed : target ∈ p.identity.targetIds) :
    ∃ arguments, call = .append arguments ∧ identifier env.store arguments.memoryId "memory_id" = .ok target ∧
      p.identity.targetIds = [target] := by
  have targets := (preparedParts ok).1
  cases call with
  | create arguments =>
    rw [← Except.ok.inj targets] at listed
    exact absurd (memSortedSet.mp listed) List.not_mem_nil
  | append arguments =>
    obtain ⟨found,read,same⟩ := mappedOk.mp targets
    obtain ⟨value,named,rest⟩ := checkedOk.mp read
    obtain rfl : [value] = found := Except.ok.inj rest
    have one : sortedSet [value] = [value] := by simp [sortedSet,sorted]
    rw [← same,one] at listed
    obtain rfl := List.mem_singleton.mp listed
    refine ⟨arguments,rfl,?_,same.symm.trans one⟩
    unfold identifier at named ⊢
    split at named
    · cases named
    · rename_i full
      rw [if_neg full]
      exact named

omit quiet in
theorem receiptFresh {work : Work} (none : ¬ ∃ existing ∈ work.database.ingress.receipts, existing.actionId = p.identity.actionId) :
    receiptForAction p.identity.actionId work = .none :=
  List.find?_eq_none.mpr fun receipt member same => none ⟨receipt,member,beq_iff_eq.mp same⟩

theorem answersTogether {work : Postgres.Work} (twins : Twins work) (coincide : Coincide env config now call p work) :
    (transaction (Postgres.body env.store config p (call.callback env)) (fun _ => now) work).1 =
      (transaction (body env.store config p (call.callback env)) (fun _ => now) work.shared).1 := by
  cases found : receiptForAction p.identity.actionId work.shared with
  | some existing => exact mirrorsTransaction quiet (mirrorsReplay quiet found)
  | none =>
    obtain ⟨existing,member,named⟩ | ⟨known,there,fits⟩ := coincide
    · exact absurd (beq_iff_eq.mpr named) (List.find?_eq_none.mp found existing member)
    suffices onward : Mirrors now Shared seen
        (Postgres.settle env.store config p (call.callback env) now.text >>= Postgres.finish config p)
        (settle env.store config p (call.callback env) now.text >>= finish config p) (Postgres.reserved p now.text work) from
      mirrorsTransaction quiet (mirrorsContinued (Postgres.continuesOnward quiet found known there _) (continuesBody quiet found _) onward)
    obtain fits | ⟨error,raised⟩ := fits
    · rw [finishBound fits]
      exact mirrorsOnward quiet twins
    · refine mirrorsBind (mirrorsSettle quiet ⟨twins.labelled,twins.sequence⟩) fun receipt _ _ ends => ?_
      obtain ⟨_,ran⟩ := ends 0
      exact absurd ((congrArg (·.1) ran).symm.trans raised) fun same => by cases same

theorem apartOverflow {work : Postgres.Work} (twins : Twins work) (ok : prepare env.store (call.request env) = .ok p)
    (fresh : receiptForAction p.identity.actionId work.shared = none) (known : p.batchId ∈ work.batches)
    (there : ∀ target ∈ p.identity.targetIds, work.shared.database.memory.has target = true)
    {id : Nat} (listed : id ∈ p.journalIds) (large : 2 ^ 63 ≤ id)
    (reached : ¬ ∃ error, beforeJournal env config now call p work.shared = .error error) : Apart .overflowError
      (transaction (Postgres.body env.store config p (call.callback env)) (fun _ => now) work).1
      (transaction (body env.store config p (call.callback env)) (fun _ => now) work.shared).1 := by
  have settled := @mirrorsSettle env config now p call now.text quiet (Postgres.reserved p now.text work) ⟨twins.labelled,twins.sequence⟩
  obtain ⟨outcome,after,ends,_,_⟩ := settled
  obtain ⟨_,ran⟩ := ends 0
  cases outcome with
  | error error => exact absurd ⟨error,congrArg (·.1) ran⟩ reached
  | ok receipt =>
    obtain ⟨task,claimed⟩ : ∃ task, p.journalTask = some task := by
      have read := (preparedParts ok).2
      cases given : p.journalTask with
      | some task => exact ⟨task,rfl⟩
      | none =>
        rw [given] at read
        rw [← Except.ok.inj read] at listed
        exact absurd listed List.not_mem_nil
    have raised := transactionEnds quiet (continuesEnds (continuesBody quiet fresh _) (endsBind ends (endsOverflow claimed listed large receipt)))
    refine .inr ⟨raised,fun same => ?_⟩
    obtain ⟨last,final,ended,injected⟩ := @steadyUnbounded config now p quiet receipt after
    rw [mirrorsEnding quiet (Postgres.continuesOnward quiet fresh known there _) (mirrorsOnward quiet twins) (endsBind ends ended)] at same
    cases last with
    | error error => exact IngressError.noConfusion ((Except.error.inj same).symm.trans (injected error rfl))
    | ok ending => cases same

theorem answersApart {work : Postgres.Work} (twins : Twins work) (ok : prepare env.store (call.request env) = .ok p)
    (apart : ¬ Coincide env config now call p work) : ∃ error, error.uncaught = true ∧
      Apart error (transaction (Postgres.body env.store config p (call.callback env)) (fun _ => now) work).1
        (transaction (body env.store config p (call.callback env)) (fun _ => now) work.shared).1 := by
  obtain ⟨none,apart⟩ := not_or.mp apart
  have fresh := receiptFresh none
  by_cases known : p.batchId ∈ work.batches
  · by_cases there : ∀ target ∈ p.identity.targetIds, work.shared.database.memory.has target = true
    · obtain ⟨oversize,reached⟩ := not_or.mp fun fits => apart ⟨known,there,fits⟩
      simp only [not_forall,not_lt] at oversize
      obtain ⟨id,listed,large⟩ := oversize
      exact ⟨_,rfl,apartOverflow quiet twins ok fresh known there listed large reached⟩
    · simp only [not_forall,Bool.not_eq_true] at there
      obtain ⟨target,listed,missing⟩ := there
      obtain ⟨arguments,rfl,named,only⟩ := soleTarget ok listed
      refine ⟨Postgres.notFound target,rfl,.inl ⟨?_,fun same => ?_⟩⟩
      · exact transactionEnds quiet (Postgres.endsMissing quiet fresh known only missing _)
      · exact transactionRaised quiet (steadyMissing quiet fresh named missing) same rfl
  · refine ⟨Postgres.unknownBatch,rfl,.inl ⟨?_,fun same => ?_⟩⟩
    · exact transactionEnds quiet (Postgres.endsUnknown quiet fresh known _)
    · exact transactionRaised quiet (steadyBody quiet fresh twins) same rfl

end

/- What the service makes of it. -/

/- The quality check of a create stands before its transaction. -/
def IngestCall.rejected (env : ServiceEnv) : IngestCall → Option String
  | .append _ => none
  | .create arguments => env.ingestMemoryQualityError arguments.title arguments.content arguments.summary

section
variable {execute other : Request → Callback → Except IngressError ActionReceipt} {error : IngressError}

theorem serveRejected {detail} (low : call.rejected env = some detail) :
    serve env execute call = .refused "low_value_memory_rejected" (some detail) := by
  cases call with
  | append arguments => cases low
  | create arguments =>
    unfold serve
    dsimp only
    rw [show env.ingestMemoryQualityError arguments.title arguments.content arguments.summary = some detail from low]

theorem serveSame (same : execute (call.request env) (call.callback env) = other (call.request env) (call.callback env)) :
    serve env execute call = serve env other call := by
  cases call with
  | append arguments => exact congrArg appendOutcome same
  | create arguments =>
    unfold serve
    dsimp only
    split
    · rfl
    · exact congrArg createOutcome same

theorem appendEscaped {result : Except IngressError ActionReceipt} (uncaught : error.uncaught = true) :
    appendOutcome result = .escaped error ↔ result = .error error := by
  rcases result with raised | receipt
  · cases raised <;> cases error <;> simp_all [appendOutcome,collision,IngressError.uncaught]
  · simp [appendOutcome]

theorem createEscaped {result : Except IngressError ActionReceipt} (uncaught : error.uncaught = true) :
    createOutcome result = .escaped error ↔ result = .error error := by
  rcases result with raised | receipt
  · cases raised <;> cases error <;> simp_all [createOutcome,collision,IngressError.uncaught]
  · simp [createOutcome]

theorem serveEscaped (high : call.rejected env = none) (uncaught : error.uncaught = true) :
    serve env execute call = .escaped error ↔ execute (call.request env) (call.callback env) = .error error := by
  cases call with
  | append arguments => exact appendEscaped uncaught
  | create arguments =>
    unfold serve
    dsimp only
    rw [show env.ingestMemoryQualityError arguments.title arguments.content arguments.summary = none from high]
    exact createEscaped uncaught

end

def outcome (env : ServiceEnv) (config : Config) (now : Moment IngressError) (call : IngestCall) (database : Database) : Outcome :=
  serve env (fun request callback => (execute env.store ⟨config,request,callback,fun _ => now⟩ database).1) call

def Postgres.outcome (env : ServiceEnv) (config : Config) (now : Moment IngressError) (call : IngestCall) (store : Postgres.Store) :
    Outcome :=
  serve env (fun request callback => (Postgres.execute env.store ⟨config,request,callback,fun _ => now⟩ store).1) call

def Postgres.Store.start (store : Postgres.Store) : Postgres.Work := ⟨⟨store.database,[]⟩,store.batches,store.memoryRefSeq⟩

/- The request gets into no transaction, or into two that coincide. -/
def Alike (env : ServiceEnv) (config : Config) (now : Moment IngressError) (call : IngestCall) (store : Postgres.Store) : Prop :=
  call.rejected env ≠ none ∨
    ∀ p, prepare env.store (call.request env) = .ok p → Coincide env config now call p store.start

def servedEnv : ServiceEnv := ⟨⟨⟨ascii,fun _ => "digest"⟩,fun title _ _ => title⟩,fun _ _ _ => none⟩

def noteStore : Postgres.Store where
  database := { Database.empty with memory := { Memory.empty with memories := [
    ⟨"m",some 1,"note","old",some "note","fact","active","t0","t0",none,[]⟩] } }
  batches := ["batch"]
  memoryRefSeq := 2

def appendMore (memoryId : String) : IngestCall :=
  .append ⟨"batch",memoryId,"more","task",[7],none,false,[],[],[]⟩

theorem noteTwins : Twins noteStore.start where
  labelled := ⟨by decide,by decide,by decide,by decide⟩
  sequence := by decide

end McpMemory.Ingress
