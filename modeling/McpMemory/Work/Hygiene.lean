import McpMemory.Lib.Interleave
import McpMemory.Work.Items

/-! When an operation of the two queues leaves its connection without an open transaction. -/
namespace McpMemory.Work
open Table Transaction Connection

/- What the writes of an operation need so as to leave nothing open; `data` is what is committed
before. An error of a write, a constraint included, finds the transaction open already. -/
def Whole (data : Queues) (oracle : Oracle StoreError) : Operation → Prop
  | .enqueueUnique request => Unbroken oracle 1
    (data.workItems.any (workItems.clashes (newItem (oracle 0) request)) = false) True
  | .enqueueRepair request => Unbroken oracle 1
    (data.repairs.any (Repair.repairs.clashes (Repair.newItem (oracle 0) request)) = false) True
  | .claimBatch .. | .claimCompatibleBatch .. | .claimRepairs .. => True
  | .heartbeatItem itemId lease => Unbroken oracle 0 True
    (data.workItems.countP (fun item => isRunning itemId item && item.leaseOwner == some lease.owner) = 1)
  | .completeItem itemId _ | .deferItem itemId .. | .releaseItem itemId _ =>
    Unbroken oracle 0 True (data.workItems.countP (isRunning itemId) = 1)
  | .completeRepair itemId _ | .releaseRepair itemId .. =>
    Unbroken oracle 0 True (data.repairs.countP (Repair.isRunning itemId) = 1)
  | .pruneRepairs olderThanSeconds now limit => limit = 0 ∨ (oracle 0).fault ≠ none ∨
    (Repair.prunable (now - max olderThanSeconds 0) limit data).isEmpty ∨ Unbroken oracle 1 True True

section
variable {ρ : Type} {queue : Queue ρ} {oracle : Oracle StoreError} {data : Queues} {moment : Nat}

theorem keepsGetItem (itemId : String) : Keeps id (getItem queue itemId) := by
  refine keepsBind (keepsQuery _) fun found => ?_
  cases found with
  | none => exact keepsRaise _
  | some item => exact keepsPure _

theorem keepsInstead (found : ρ → Bool) (error : StoreError) : Keeps id (instead queue found error) := by
  cases error with
  | integrity message =>
    refine keepsBind (keepsQuery _) fun existing => ?_
    cases existing with
    | none => exact keepsRaise _
    | some item => exact keepsPure _
  | operational message => exact keepsRaise _
  | valueError message => exact keepsRaise _

theorem insertedIdle {item : ρ} : (inserted queue item oracle ⟨⟨data,none⟩,moment⟩).2.data.opened = none ↔
    Unbroken oracle moment ((queue.rows data).any (queue.clashes item) = false) True := by
  unfold inserted insert Unbroken
  rw [bindRuns,executeIdle]
  cases (oracle moment).fault with
  | some error => simp
  | none =>
    dsimp only
    cases (oracle (moment + 1)).fault with
    | some error => simp
    | none =>
      cases (queue.rows data).any (queue.clashes item) with
      | true => simp
      | false =>
        simp only [Bool.false_eq_true,if_false,bindRuns,commitOpened]
        cases (oracle (moment + 2)).fault <;> simp [pure]

theorem enqueueIdle {item : ρ} {found : ρ → Bool} :
    (enqueue queue item found oracle ⟨⟨data,none⟩,moment⟩).2.data.opened = none ↔
      Unbroken oracle moment ((queue.rows data).any (queue.clashes item) = false) True := by
  have rest : ∀ reply, Keeps id (reported queue item reply) := by
    intro reply
    cases reply with
    | some existing => exact keepsPure _
    | none => exact keepsBind (keepsGetItem _) fun _ => keepsPure _
  have same : (enqueue queue item found oracle ⟨⟨data,none⟩,moment⟩).2.data =
      (inserted queue item oracle ⟨⟨data,none⟩,moment⟩).2.data :=
    (keepsAfter rest).trans (@keepsHandling _ _ _ _ _ id _ _ (keepsInstead found) _)
  rw [same]
  exact insertedIdle

theorem changeIdle {itemId : String} {selects set missing} :
    (change queue itemId selects set missing oracle ⟨⟨data,none⟩,moment⟩).2.data.opened = none ↔
      Unbroken oracle moment True ((queue.rows data).countP selects = 1) := by
  unfold change
  rw [bindRuns]
  have ended := @changingIdle _ _ oracle data moment (fun data => ((queue.rows data).countP selects,
    queue.put (update selects set (queue.rows data)) data)) missing
  generalize changing _ missing oracle ⟨⟨data,none⟩,moment⟩ = reply at ended ⊢
  obtain ⟨_ | _,after⟩ := reply
  · exact ended
  · have same := @keepsGetItem _ queue itemId oracle after
    simp only [id] at same
    dsimp only
    rw [same]
    exact ended

theorem committedIdle {session after : Session (Connection Queues)}
    (ran : (commit : Call Unit) oracle session = (.ok (),after)) : after.data.opened = none := by
  rw [← writeOk ran]

/- Whatever raises inside is rolled back; else the last statement was the COMMIT. -/
theorem claimIdle {ready : ρ → Bool} {le set limit} :
    (claim queue ready le set limit oracle ⟨⟨data,none⟩,moment⟩).2.data.opened = none := by
  have rows : ∀ session reply after, claimRows queue ready le set limit oracle session = (.ok reply,after) →
      after.data.opened = none := by
    intro session reply after ran
    obtain ⟨found,_,_,ran⟩ := bindOk.mp ran
    split at ran
    · obtain ⟨_,_,ended,ran⟩ := bindOk.mp ran
      obtain ⟨_,rfl⟩ := pureOk.mp ran
      exact committedIdle ended
    · obtain ⟨_,_,_,ran⟩ := bindOk.mp ran
      obtain ⟨_,_,_,ran⟩ := bindOk.mp ran
      obtain ⟨_,_,ended,ran⟩ := bindOk.mp ran
      obtain ⟨_,rfl⟩ := pureOk.mp ran
      exact committedIdle ended
  have idle : commitOpen oracle ⟨⟨data,none⟩,moment⟩ = (.ok (),⟨⟨data,none⟩,moment⟩) := rfl
  unfold claim
  simp only [bindRuns,idle]
  have begun := @beginsIdle Queues _ oracle data moment (.operational "cannot start a transaction within a transaction")
  generalize beginImmediate _ oracle ⟨⟨data,none⟩,moment⟩ = reply at begun ⊢
  obtain ⟨error | _,after⟩ := reply
  · exact begun error rfl
  · dsimp only [rollingBack]
    generalize ran : claimRows queue ready le set limit oracle after = reply
    obtain ⟨error | claimed,last⟩ := reply
    · rfl
    · exact rows _ _ _ ran

theorem pruneIdle {olderThanSeconds now : Int} {limit : Nat} :
    (Repair.pruneCompleted olderThanSeconds now limit oracle ⟨⟨data,none⟩,0⟩).2.data.opened = none ↔
      Whole data oracle (.pruneRepairs olderThanSeconds now limit) := by
  unfold Repair.pruneCompleted Whole
  by_cases none : limit = 0
  · simp [none,pure]
  · simp only [none,if_false,false_or,bindRuns,query,select,statement,Connection.seen,Option.getD_none]
    cases (oracle 0).fault with
    | some error => simp
    | none =>
      dsimp only
      split
      · rename_i empty
        simp [empty,pure]
      · rename_i some
        simp only [bindRuns,Repair.deleteItems,executeIdle,Unbroken,some,Bool.false_eq_true,false_or,true_and,
          forall_const,ne_eq,not_true_eq_false,Nat.zero_add]
        cases (oracle 1).fault with
        | some error => simp
        | none =>
          dsimp only
          cases (oracle 2).fault with
          | some error => simp
          | none =>
            simp only [commitOpened]
            cases (oracle 3).fault <;> simp [pure]

/- Just when an operation that begins without a transaction ends without one. -/
theorem performIdle (operation : Operation) :
    (perform operation oracle ⟨⟨data,none⟩,0⟩).2.data.opened = none ↔ Whole data oracle operation := by
  cases operation with
  | enqueueUnique request => exact @enqueueIdle _ workItems oracle data 1 (newItem (oracle 0) request) _
  | claimBatch familyKey lane lease limit workspaceId =>
    refine iff_of_true ?_ trivial
    show (claimBatch familyKey lane lease limit workspaceId oracle _).2.data.opened = none
    unfold claimBatch
    split
    · rfl
    · exact claimIdle
  | claimCompatibleBatch familyKeys lane lease limit workspaceId =>
    refine iff_of_true ?_ trivial
    show (claimCompatibleBatch familyKeys lane lease limit workspaceId oracle _).2.data.opened = none
    unfold claimCompatibleBatch
    split
    · rfl
    · split
      · rfl
      · exact claimIdle
  | heartbeatItem itemId lease => exact changeIdle
  | completeItem itemId now => exact changeIdle
  | deferItem itemId error retryDelaySeconds now => exact changeIdle
  | releaseItem itemId now => exact changeIdle
  | enqueueRepair request => exact @enqueueIdle _ Repair.repairs oracle data 1 (Repair.newItem (oracle 0) request) _
  | claimRepairs lease limit workspaceId =>
    refine iff_of_true ?_ trivial
    show (Repair.claimBatch lease limit workspaceId oracle _).2.data.opened = none
    unfold Repair.claimBatch
    split
    · rfl
    · exact claimIdle
  | completeRepair itemId now => exact changeIdle
  | releaseRepair itemId now error => exact changeIdle
  | pruneRepairs olderThanSeconds now limit => exact pruneIdle

end

/- What a reply reports, in what the connection saw before the operation and sees after it. -/
def Reported (before after : Queues) : (operation : Operation) → Answer operation → Prop
  | .enqueueUnique _,reply => reply.1 ∈ after.workItems
  | .claimBatch ..,items | .claimCompatibleBatch ..,items => ∀ item ∈ items, item ∈ after.workItems
  | .heartbeatItem ..,item | .completeItem ..,item | .deferItem ..,item | .releaseItem ..,item => item ∈ after.workItems
  | .enqueueRepair _,reply => reply.1 ∈ after.repairs
  | .claimRepairs ..,items => ∀ item ∈ items, item ∈ after.repairs
  | .completeRepair ..,item | .releaseRepair ..,item => item ∈ after.repairs
  | .pruneRepairs ..,deleted => before.repairs.length = after.repairs.length + deleted

section
variable {ρ : Type} {queue : Queue ρ} {oracle : Oracle StoreError} {session after : Session (Connection Queues)}

theorem queryOk {α : Type} {ask : Queues → α} {a : α} (ran : (query ask : Call α) oracle session = (.ok a,after)) :
    ask session.data.seen = a ∧ session.data = after.data := selectOk ran

theorem getItemOk {itemId : String} {item : ρ} (ran : getItem queue itemId oracle session = (.ok item,after)) :
    item ∈ queue.rows after.data.seen := by
  obtain ⟨found,middle,asked,ran⟩ := bindOk.mp ran
  obtain ⟨here,same⟩ := queryOk asked
  cases found with
  | none => exact (raiseOk ran).elim
  | some row =>
    obtain ⟨rfl,rfl⟩ := pureOk.mp ran
    rw [← same]
    exact List.mem_of_find?_eq_some here

theorem insteadOk {found : ρ → Bool} {error : StoreError} {item : Option ρ}
    (ran : instead queue found error oracle session = (.ok item,after)) :
    ∀ existing, item = some existing → existing ∈ queue.rows after.data.seen := by
  cases error with
  | integrity message =>
    obtain ⟨row,middle,asked,ran⟩ := bindOk.mp ran
    obtain ⟨here,same⟩ := queryOk asked
    cases row with
    | none => exact (raiseOk ran).elim
    | some row =>
      obtain ⟨rfl,rfl⟩ := pureOk.mp ran
      intro existing again
      cases again
      rw [← same]
      exact List.mem_of_find?_eq_some here
  | operational message => exact (@raiseOk _ _ _ _ _ oracle _ _ ran).elim
  | valueError message => exact (@raiseOk _ _ _ _ _ oracle _ _ ran).elim

theorem insertedOk {item : ρ} {reply} (ran : inserted queue item oracle session = (.ok reply,after)) : reply = none := by
  obtain ⟨_,_,_,ran⟩ := bindOk.mp ran
  obtain ⟨_,_,_,ran⟩ := bindOk.mp ran
  exact (pureOk.mp ran).1.symm

theorem handlingOk {α : Type} {x : Call α} {handler : StoreError → Call α} {a}
    (ran : handling x handler oracle session = (.ok a,after)) :
    x oracle session = (.ok a,after) ∨
      ∃ error middle, x oracle session = (.error error,middle) ∧ handler error oracle middle = (.ok a,after) := by
  unfold handling at ran
  split at ran
  · rename_i done
    exact .inl (done.trans ran)
  · rename_i failed
    exact .inr ⟨_,_,failed,ran⟩

theorem enqueueOk {item : ρ} {found : ρ → Bool} {reply}
    (ran : enqueue queue item found oracle session = (.ok reply,after)) : reply.1 ∈ queue.rows after.data.seen := by
  obtain ⟨existing,middle,first,ran⟩ := bindOk.mp ran
  cases existing with
  | none =>
    obtain ⟨stored,_,again,ran⟩ := bindOk.mp ran
    obtain ⟨rfl,rfl⟩ := pureOk.mp ran
    exact getItemOk again
  | some existing =>
    obtain ⟨rfl,rfl⟩ := pureOk.mp ran
    rcases handlingOk first with done | ⟨error,_,_,handled⟩
    · exact absurd (insertedOk done) (by simp)
    · exact insteadOk handled existing rfl

theorem changeOk {itemId : String} {selects set missing} {item : ρ}
    (ran : change queue itemId selects set missing oracle session = (.ok item,after)) :
    item ∈ queue.rows after.data.seen := by
  obtain ⟨_,_,_,ran⟩ := bindOk.mp ran
  exact getItemOk ran

theorem commitOk (ran : (commit : Call Unit) oracle session = (.ok (),after)) : after.data.seen = session.data.seen := by
  rw [← writeOk ran]
  rfl

theorem rollingBackOk {α : Type} {x : Call α} {a} (ran : rollingBack x oracle session = (.ok a,after)) :
    x oracle session = (.ok a,after) := by
  unfold rollingBack at ran
  split at ran
  · rename_i done
    exact done.trans ran
  · cases ran

theorem claimOk {ready : ρ → Bool} {le set limit} {items}
    (ran : claim queue ready le set limit oracle session = (.ok items,after)) :
    ∀ item ∈ items, item ∈ queue.rows after.data.seen := by
  have rows : ∀ before, claimRows queue ready le set limit oracle before = (.ok items,after) →
      ∀ item ∈ items, item ∈ queue.rows after.data.seen := by
    intro before ran
    obtain ⟨found,_,_,ran⟩ := bindOk.mp ran
    split at ran
    · obtain ⟨_,_,_,ran⟩ := bindOk.mp ran
      obtain ⟨rfl,rfl⟩ := pureOk.mp ran
      exact fun _ none => absurd none List.not_mem_nil
    · obtain ⟨_,_,_,ran⟩ := bindOk.mp ran
      obtain ⟨claimed,_,asked,ran⟩ := bindOk.mp ran
      obtain ⟨_,_,ended,ran⟩ := bindOk.mp ran
      obtain ⟨rfl,rfl⟩ := pureOk.mp ran
      obtain ⟨here,same⟩ := queryOk asked
      intro item member
      rw [← here,List.mem_insertionSort] at member
      rw [commitOk ended,← same]
      exact List.mem_of_mem_filter member
  obtain ⟨_,_,_,ran⟩ := bindOk.mp ran
  obtain ⟨_,_,_,ran⟩ := bindOk.mp ran
  exact rows _ (rollingBackOk ran)

theorem deletedLength (itemIds : List String) (rows : List RepairItem) : rows.length =
    (rows.filter (!itemIds.contains ·.id)).length + rows.countP (itemIds.contains ·.id) := by
  induction rows with
  | nil => rfl
  | cons row rest ih =>
    cases held : itemIds.contains row.id <;>
      simp only [List.filter_cons,List.countP_cons,List.length_cons,held,Bool.not_true,Bool.not_false,if_true,
        Bool.false_eq_true,if_false] <;> omega

theorem executeOk {α : Type} {effect : Queues → Except StoreError (α × Queues)} {a : α}
    (ran : execute effect oracle session = (.ok a,after)) : effect session.data.seen = .ok (a,after.data.seen) := by
  obtain ⟨_,middle,begun,ran⟩ := bindOk.mp ran
  have taken := statementOk ran
  obtain ⟨reply,done,same⟩ := mappedOk.mp taken
  have start : middle.data.seen = session.data.seen := by
    unfold beginImplicit at begun
    obtain ⟨busy,_,asked,begun⟩ := bindOk.mp begun
    obtain ⟨rfl,rfl⟩ := inspectOk.mp asked
    split at begun
    · rw [← (pureOk.mp begun).2]
    · rename_i idle
      rw [← writeOk begun]
      simp only [Option.isSome_iff_ne_none,ne_eq,not_not] at idle
      simp [Connection.seen,idle]
  obtain ⟨answer,data⟩ := reply
  simp only [Prod.mk.injEq] at same
  rw [← start,done,← same.1,← same.2]
  rfl

theorem pruneOk {olderThanSeconds now : Int} {limit deleted : Nat}
    (ran : Repair.pruneCompleted olderThanSeconds now limit oracle session = (.ok deleted,after)) :
    session.data.seen.repairs.length = after.data.seen.repairs.length + deleted := by
  unfold Repair.pruneCompleted at ran
  split at ran
  · obtain ⟨rfl,rfl⟩ := pureOk.mp ran
    rfl
  · obtain ⟨found,middle,asked,ran⟩ := bindOk.mp ran
    have same : session.data = middle.data := (queryOk asked).2
    split at ran
    · obtain ⟨rfl,rfl⟩ := pureOk.mp ran
      rw [same]
      rfl
    · obtain ⟨count,_,done,ran⟩ := bindOk.mp ran
      obtain ⟨_,_,ended,ran⟩ := bindOk.mp ran
      obtain ⟨rfl,rfl⟩ := pureOk.mp ran
      have deleted := executeOk done
      simp only [Except.ok.injEq,Prod.mk.injEq] at deleted
      rw [commitOk ended,← deleted.1,← deleted.2,← same]
      exact deletedLength _ _

end

theorem performReported {oracle} (operation : Operation) {session after : Session (Connection Queues)} {reply}
    (ran : perform operation oracle session = (.ok reply,after)) :
    Reported session.data.seen after.data.seen operation reply := by
  cases operation with
  | enqueueUnique request =>
    obtain ⟨_,_,_,ran⟩ := bindOk.mp ran
    exact enqueueOk ran
  | claimBatch familyKey lane lease limit workspaceId =>
    change claimBatch familyKey lane lease limit workspaceId oracle session = _ at ran
    unfold claimBatch at ran
    split at ran
    · exact (raiseOk ran).elim
    · exact claimOk ran
  | claimCompatibleBatch familyKeys lane lease limit workspaceId =>
    change claimCompatibleBatch familyKeys lane lease limit workspaceId oracle session = _ at ran
    unfold claimCompatibleBatch at ran
    split at ran
    · exact (raiseOk ran).elim
    · split at ran
      · exact (raiseOk ran).elim
      · exact claimOk ran
  | heartbeatItem itemId lease => exact changeOk ran
  | completeItem itemId now => exact changeOk ran
  | deferItem itemId error retryDelaySeconds now => exact changeOk ran
  | releaseItem itemId now => exact changeOk ran
  | enqueueRepair request =>
    obtain ⟨_,_,_,ran⟩ := bindOk.mp ran
    exact enqueueOk ran
  | claimRepairs lease limit workspaceId =>
    change Repair.claimBatch lease limit workspaceId oracle session = _ at ran
    unfold Repair.claimBatch at ran
    split at ran
    · exact (raiseOk ran).elim
    · exact claimOk ran
  | completeRepair itemId now => exact changeOk ran
  | releaseRepair itemId now error => exact changeOk ran
  | pruneRepairs olderThanSeconds now limit => exact pruneOk ran

/- One use of the connection: the operation and what happens to its statements. -/
structure Use where
  operation : Operation
  oracle : Oracle StoreError

def Use.reply (use : Use) (connection : Connection Queues) :
    Except StoreError (Answer use.operation) × Connection Queues :=
  let ran := perform use.operation use.oracle ⟨connection,0⟩
  (ran.1,ran.2.data)

abbrev uses : Connection Queues → List Use → Connection Queues := Interleave.reach fun use connection => (use.reply connection).2

def Idle (connection : Connection Queues) : Prop := connection.opened = none

/- No transaction is open after it, and what it reports is committed. -/
def Clean (use : Use) (connection : Connection Queues) : Prop :=
  Idle (use.reply connection).2 ∧ ∀ reply, (use.reply connection).1 = .ok reply →
    Reported connection.committed (use.reply connection).2.committed use.operation reply

theorem seenIdle {connection : Connection Queues} (idle : Idle connection) : connection.seen = connection.committed := by
  rw [Connection.seen,idle]
  rfl

theorem replyIdle (use : Use) (connection : Connection Queues) (idle : Idle connection) :
    Idle (use.reply connection).2 ↔ Whole connection.committed use.oracle use.operation := by
  obtain ⟨committed,opened⟩ := connection
  cases idle
  exact performIdle use.operation

theorem cleanIdle (use : Use) (connection : Connection Queues) (idle : Idle connection) :
    Clean use connection ↔ Idle (use.reply connection).2 := by
  refine ⟨fun clean => clean.1,fun ended => ⟨ended,fun reply ran => ?_⟩⟩
  have reported : Reported connection.seen (use.reply connection).2.seen use.operation reply :=
    performReported use.operation (Prod.ext ran rfl)
  rwa [seenIdle idle,seenIdle ended] at reported

/- Over every run from an idle connection, each operation leaves the connection idle and what it
reports committed just where its writes and their COMMIT go through. -/
theorem hygieneExact (data : Queues) (operations : List Use) :
    (∀ first use rest, operations = first ++ use :: rest → Clean use (uses ⟨data,none⟩ first)) ↔
      Interleave.Holding (fun use connection => (use.reply connection).2)
        (fun use connection => Whole connection.committed use.oracle use.operation) ⟨data,none⟩ operations := by
  rw [@Interleave.holdingExact _ _ _ Idle _ replyIdle ⟨data,none⟩ operations rfl]
  constructor
  · exact fun clean first use rest split => (clean first use rest split).1
  · intro idle first
    rcases first.eq_nil_or_concat with none | ⟨first,last,rfl⟩
    · subst none
      exact fun use rest split => (cleanIdle use ⟨data,none⟩ rfl).mpr (idle [] use rest split)
    · rw [List.concat_eq_append]
      intro use rest split
      have before : Idle (uses ⟨data,none⟩ (first ++ [last])) := by
        rw [uses,Interleave.reachAppend]
        exact idle first last (use :: rest) (by rw [split,List.append_assoc]; rfl)
      exact (cleanIdle use _ before).mpr (idle _ use rest split)

/- Where nothing fails. -/
def calm : Oracle StoreError := fun moment => ⟨none,"item-" ++ toString moment,"",moment⟩

def keyed : Use := ⟨.enqueueUnique ⟨"ingest","ingest","[]",none,0,none,some "key"⟩,calm⟩

/- The second of two requests with one key is answered with the first one's item and leaves the
transaction that its INSERT began. -/
theorem duplicateStaysOpen : (∃ reply, (keyed.reply (uses ⟨⟨[],[]⟩,none⟩ [keyed])).1 = .ok reply) ∧
    ¬ Idle (uses ⟨⟨[],[]⟩,none⟩ [keyed,keyed]) ∧
    ¬ ∀ data operations first use rest, operations = first ++ use :: rest → Clean use (uses ⟨data,none⟩ first) := by
  have opened : ¬ Idle (uses ⟨⟨[],[]⟩,none⟩ [keyed,keyed]) := by
    intro idle
    exact absurd (congrArg Option.isSome idle) (by decide +kernel)
  refine ⟨⟨_,rfl⟩,opened,fun clean => opened ?_⟩
  exact (clean ⟨[],[]⟩ [keyed,keyed] [keyed] keyed [] rfl).1

end McpMemory.Work
