import Mathlib.Data.Prod.Lex
import Mathlib.Data.String.Basic
import McpMemory.Curation.Liveness

/-! Which runs a pass of the reconciliation comes to, and which are left when it is repeated,
with nothing else at work. A pass lists the newest runs of any state and then leaves out those
that are terminal, so that newer runs can keep it from an older one for good. -/
namespace McpMemory.Curation.Reconciliation
open Interleave Store Table

variable (env : RecoveryEnv) (clock : Clock)

/- `reconcile_run` is called with the run. -/
def Examined (c : Curating) (run : CurationRun) : Prop := ∃ turn between, turn.run = run ∧
  Arrives (recovery env) (.pass clock .listing) c (.pass clock (.receipts turn)) between

def Passes (c after : Curating) : Prop :=
  Arrives (recovery env) (.pass clock .listing) c (.pass clock .finished) after

/- The task of the run is over, or there is none and the run is old. -/
def OwnerFinished (tasks : Tasks.Tables) (run : CurationRun) : Prop :=
  match run.taskId.bind (Tasks.findTask tasks) with
  | some task => task.terminal
  | none => isStale env clock run.createdAt

/- A pass has something to do for the run. -/
def Eligible (c : Curating) (run : CurationRun) : Prop := run.state ≠ .terminal ∧
  (listReceipts run.runId 100 c.ledger ≠ [] ∨ OwnerFinished env clock c.tasks run)

/- A pass ends and comes to every run that is eligible, and some number of passes leaves no run
whose owner has finished. -/
structure Covers (c : Curating) : Prop where
  ends : ∃ after, Passes env clock c after
  examines : ∀ run ∈ c.runs, Eligible env clock c run → Examined env clock c run
  clears : ∃ after, Relation.ReflTransGen (Passes env clock) c after ∧
    ∀ run ∈ after.runs, run.state ≠ .terminal → ¬ OwnerFinished env clock after.tasks run

/- The primary keys and NOT NULL of the schema, and that the time of the end is written with the end. -/
structure Filed (c : Curating) : Prop where
  keyed : Keyed c.ledger
  created : ∀ run ∈ c.runs, run.createdAt.isSome
  unended : ∀ run ∈ c.runs, run.state ≠ .terminal → run.terminalizedAt = none

def newer (other run : CurationRun) : Bool :=
  run.createdAt.getD "" < other.createdAt.getD "" ||
    run.createdAt.getD "" == other.createdAt.getD "" && run.runId < other.runId

variable {env clock} {c after : Curating} {run row : CurationRun}

def Goes (env : RecoveryEnv) (clock : Clock) (pass : Pass) (c : Curating) (pass' : Pass) (c' : Curating) : Prop :=
  Arrives (recovery env) (.pass clock pass) c (.pass clock pass') c'

theorem goesStep {pass pass' : Pass} {c' : Curating}
    (later : Goes env clock (passStep env clock pass c).1 (passStep env clock pass c).2.1 pass' c') :
    Goes env clock pass c pass' c' := arrivesStep later

/- A pass goes through what it has listed, and nothing else. -/

def Within (listed : List CurationRun) : Pass → Prop
  | .listing => False
  | .receipts turn | .checking turn _ _ | .reading turn _ _ _ | .settling turn _ _ _ | .latest turn _ _
  | .finalReceipts turn | .asking turn | .ending turn _ _ | .missing turn _ => turn.run::turn.todo <:+ listed
  | .finished => True

theorem nextRunWithin {listed todo : List CurationRun} (within : todo <:+ listed) : Within listed (nextRun todo) := by
  induction todo with
  | nil => trivial
  | cons run rest ih =>
    unfold nextRun
    split
    · exact ih ((List.suffix_cons run rest).trans within)
    · exact within

section
variable {listed : List CurationRun} {turn : Turn} (within : turn.run::turn.todo <:+ listed)
include within

theorem nextWithin : Within listed (nextRun turn.todo) := nextRunWithin ((List.suffix_cons _ _).trans within)

theorem nextReceiptWithin {rest : List ActionReceipt} : Within listed (nextReceipt clock turn rest) := by
  unfold nextReceipt
  split
  · exact within
  · split <;> exact within

theorem verifiedWithin {rest : List ActionReceipt} {result} : Within listed (verifiedReceipt clock turn rest result) := by
  unfold verifiedReceipt
  split
  · exact @nextReceiptWithin clock listed { turn with verified := turn.verified + 1 } within rest
  · exact nextReceiptWithin within

theorem checkWithin {receipt rest} : Within listed (check env clock turn receipt rest c) := by
  unfold check
  dsimp only
  split
  · exact within
  · split
    · exact within
    · split
      · exact verifiedWithin within
      · split <;> split <;> exact within

theorem finalizeWithin {receipts} : Within listed (finalizeIfPossible clock turn receipts).1 := by
  unfold finalizeIfPossible
  split
  · exact within
  · split
    · exact nextWithin within
    · exact within

theorem emptyWithin {tasks} : Within listed (reconcileEmptyRun env clock turn tasks) := by
  unfold reconcileEmptyRun
  split
  · split
    · exact nextWithin within
    · exact nextWithin within
    all_goals exact within
  · split
    · exact within
    · exact nextWithin within

end

theorem passWithin {listed : List CurationRun} {pass : Pass} (within : Within listed pass) :
    Within listed (passStep env clock pass c).1 := by
  cases pass with
  | listing => cases within
  | receipts turn =>
    unfold passStep
    dsimp only
    split
    · exact within
    · split
      · exact finalizeWithin within
      · exact nextReceiptWithin within
  | checking turn receipt rest => exact checkWithin within
  | reading turn current rest script => cases script <;> exact within
  | settling turn current rest call =>
    unfold passStep
    dsimp only
    split
    · exact verifiedWithin within
    all_goals exact within
  | latest turn current rest =>
    unfold passStep
    dsimp only
    split
    · exact within
    · exact verifiedWithin within
  | finalReceipts turn =>
    unfold passStep
    dsimp only
    split
    · exact within
    · exact finalizeWithin within
  | asking turn => exact emptyWithin within
  | ending turn finish call =>
    unfold passStep
    dsimp only
    split
    · exact nextWithin within
    · exact nextWithin within
    all_goals exact within
  | missing turn finish =>
    unfold passStep
    dsimp only
    split <;> exact nextWithin within
  | finished => trivial

/- A pass that began at the tables of `c`. -/
def Begun (clock : Clock) (c : Curating) (call : Call) (store : Curating) : Prop := ∃ pass, call = .pass clock pass ∧
  (pass = .listing ∧ store = c ∨ Within (listRuns runLimit c.ledger) pass)

theorem begunStep (call : Call) (store : Curating) (begun : Begun clock c call store) :
    Begun clock c ((recovery env).step call store).1 ((recovery env).step call store).2.1 := by
  obtain ⟨pass,rfl,⟨rfl,rfl⟩ | within⟩ := begun
  · exact ⟨_,rfl,.inr (nextRunWithin List.suffix_rfl)⟩
  · exact ⟨_,rfl,.inr (passWithin within)⟩

/- A run that a pass comes to is on the page. -/
theorem examinedListed (examined : Examined env clock c run) : run ∈ listRuns runLimit c.ledger := by
  obtain ⟨turn,between,rfl,arrives⟩ := examined
  obtain ⟨pass,same,⟨rfl,_⟩ | within⟩ := arrivesKeeps begunStep arrives ⟨_,rfl,.inl ⟨rfl,rfl⟩⟩
  · cases same
  · cases same
    exact within.subset List.mem_cons_self

/- The end of a run is written, and nothing else of the runs. -/
structure Ended (runId : String) (c after : Curating) : Prop where
  tasks : after.tasks = c.tasks
  filed : Filed after
  others : ∀ row ∈ c.runs, row.runId ≠ runId → row ∈ after.runs
  source : ∀ row ∈ after.runs, row.state ≠ .terminal → row ∈ c.runs
  ended : ∀ row ∈ after.runs, row.runId = runId → row.state = .terminal

section
variable {turn : Turn} (filed : Filed c) (member : turn.run ∈ c.runs) (running : turn.run.state ≠ .terminal)
include filed member running

theorem countUnterminalized : c.runs.countP (unterminalized turn.run.runId turn.run.state) = 1 := by
  have most : c.runs.countP (unterminalized turn.run.runId turn.run.state) ≤ c.runs.countP fun row => row.runId = turn.run.runId :=
    List.countP_mono_left fun row _ hit => decide_eq_true (unterminalizedSource.mp hit).1.1
  have once := @countKey CurationRun String _ (·.runId) c.runs filed.keyed.runs turn.run.runId
  have some_ : 0 < c.runs.countP (unterminalized turn.run.runId turn.run.state) := List.countP_pos_iff.mpr
    ⟨turn.run,member,unterminalizedSource.mpr ⟨⟨rfl,rfl⟩,filed.unended _ member running⟩⟩
  omega

/- A run that is not terminal ends where its end is asked for. -/
theorem endingGoes (finish : Finish) : ∃ after,
    Goes env clock (terminalize clock turn finish) c (nextRun turn.todo) after ∧ Ended turn.run.runId c after := by
  let rows := unterminalized turn.run.runId turn.run.state
  let set := terminalizeSet finish.outcome clock.stamp
  let after := c.keep { c.ledger with runs := update rows set c.runs }
  have selected : ∀ row ∈ c.runs, row.runId = turn.run.runId → rows row := by
    intro row there same
    cases equalOfKey filed.keyed.runs there member same
    exact unterminalizedSource.mpr ⟨⟨rfl,rfl⟩,filed.unended _ member running⟩
  have found : ∃ terminal, getRun turn.run.runId after.ledger = some terminal := by
    refine Option.isSome_iff_exists.mp (List.find?_isSome.mpr ⟨set turn.run,?_,beq_self_eq_true _⟩)
    exact memUpdate.mpr ⟨turn.run,member,(if_pos (selected _ member rfl)).symm⟩
  obtain ⟨terminal,found⟩ := found
  have source : ∀ row ∈ after.runs, row.state ≠ .terminal → row ∈ c.runs ∧ ¬ rows row := by
    intro row there unended
    obtain ⟨old,present,rfl⟩ := memUpdate.mp there
    split at unended
    · exact absurd rfl unended
    · rename_i away
      rw [if_neg away]
      exact ⟨present,away⟩
  refine ⟨after,goesStep (goesStep ?_),⟨rfl,⟨(keyedUpdates filed.keyed).1 fun _ => rfl,?_,?_⟩,?_,?_,?_⟩⟩
  · have won : (c.runs.countP rows == 1) = true := beq_iff_eq.mpr (countUnterminalized filed member running)
    have stepped : passStep env clock (.ending turn finish (.rereadingRun (c.runs.countP rows == 1) turn.run.runId)) after =
        (nextRun turn.todo,after,[concluded turn finish terminal]) := by
      unfold passStep storeStep
      rw [won]
      simp only [found,Bool.true_or,if_true]
      rfl
    exact stepped ▸ arrivesRest
  · intro row there
    obtain ⟨old,present,rfl⟩ := memUpdate.mp there
    split <;> exact filed.created old present
  · intro row there unended
    exact filed.unended row (source row there unended).1 unended
  · intro row there apart
    refine memUpdate.mpr ⟨row,there,(if_neg fun hit => apart ?_).symm⟩
    exact (unterminalizedSource.mp hit).1.1
  · exact fun row there unended => (source row there unended).1
  · intro row there same
    by_contra unended
    obtain ⟨old,away⟩ := source row there unended
    exact away (selected row old same)

end

/- The run ends, and the pass goes on to those that follow. -/
def Finishes (env : RecoveryEnv) (clock : Clock) (pass : Pass) (c : Curating) (turn : Turn) : Prop := ∃ after,
  Goes env clock pass c (nextRun turn.todo) after ∧ Ended turn.run.runId c after

theorem finishesStep {pass pass' : Pass} {c' : Curating} {emitted} {turn : Turn}
    (stepped : passStep env clock pass c = (pass',c',emitted)) (later : Finishes env clock pass' c' turn)
    (tasks : c'.tasks = c.tasks) (runs : c'.runs = c.runs) : Finishes env clock pass c turn := by
  obtain ⟨after,goes,ended⟩ := later
  refine ⟨after,goesStep ?_,ended.tasks.trans tasks,ended.filed,runs ▸ ended.others,runs ▸ ended.source,ended.ended⟩
  rw [stepped]
  exact goes

/- What is left to settle of the run's receipts, as far as they are listed. -/
def Left (runId : String) (c : Curating) (rest : List ActionReceipt) : Prop :=
  ∀ receipt ∈ listReceipts runId 100 c.ledger, receipt.status = .appliedUnverified →
    ∃ pending ∈ rest, receiptKey pending = receiptKey receipt

/- The run of a turn that has receipts. -/
structure Taken (c : Curating) (turn : Turn) : Prop where
  filed : Filed c
  member : turn.run ∈ c.runs
  running : turn.run.state ≠ .terminal
  receipts : listReceipts turn.run.runId 100 c.ledger ≠ []

theorem takenEnds {turn : Turn} (taken : Taken c turn) (finish : Finish) :
    Finishes env clock (terminalize clock turn finish) c turn :=
  endingGoes taken.filed taken.member taken.running finish

theorem finalizeGoes {turn : Turn} (taken : Taken c turn) (settled : Left turn.run.runId c []) :
    Finishes env clock (finalizeIfPossible clock turn (listReceipts turn.run.runId 100 c.ledger)).1 c turn := by
  unfold finalizeIfPossible
  rw [if_neg (by simpa using taken.receipts),if_neg]
  · exact takenEnds taken _
  · intro unsettled
    obtain ⟨receipt,listed,unverified⟩ := List.any_eq_true.mp unsettled
    obtain ⟨pending,none,_⟩ := settled receipt listed (beq_iff_eq.mp unverified)
    cases none

theorem readingGoes {turn : Turn} {current rest} (taken : Taken c turn) (script : Verification)
    (settles : ∀ verdict, Finishes env clock (.settling turn current rest
      (.started (.transitionReceipt current.runId current.actionId .appliedUnverified (settledReceipt clock current verdict))))
      c turn) : Finishes env clock (.reading turn current rest script) c turn := by
  induction script with
  | done verdict => exact finishesStep rfl (settles verdict) rfl rfl
  | fail error => exact finishesStep rfl (takenEnds taken _) rfl rfl
  | call memoryId next ih => exact finishesStep rfl (ih _) rfl rfl

/- The tables once a receipt is settled. -/
def settle (current settled : ActionReceipt) (c : Curating) : Curating := { c with
  receipts := update (inStatus current.runId current.actionId .appliedUnverified) (receiptSet settled) c.receipts }

theorem settledOver (current : ActionReceipt) (verdict : Verdict) :
    (settledReceipt clock current verdict).status ≠ .appliedUnverified := by
  cases verdict <;> exact nofun

theorem settleListed {current settled : ActionReceipt} {runId limit} :
    listReceipts runId limit (settle current settled c).ledger =
      update (inStatus current.runId current.actionId .appliedUnverified) (receiptSet settled)
        (listReceipts runId limit c.ledger) := by
  unfold listReceipts settle update
  dsimp only [Curating.ledger]
  rw [List.filter_map,List.map_take]
  congr 3
  funext row
  simp only [Function.comp]
  split <;> rfl

theorem settleTaken {turn : Turn} {current settled : ActionReceipt} (taken : Taken c turn) :
    Taken (settle current settled c) turn := by
  refine ⟨⟨(keyedUpdates taken.filed.keyed).2 fun _ => rfl,taken.filed.created,taken.filed.unended⟩,taken.member,taken.running,?_⟩
  rw [settleListed]
  exact fun none => taken.receipts (List.map_eq_nil_iff.mp none)

theorem settleLeft {runId : String} {current settled receipt : ActionReceipt} {rest}
    (closed : settled.status ≠ .appliedUnverified) (same : receiptKey current = receiptKey receipt)
    (left : Left runId c (receipt::rest)) : Left runId (settle current settled c) rest := by
  intro row listed unverified
  rw [settleListed] at listed
  obtain ⟨old,present,rfl⟩ := memUpdate.mp listed
  split at unverified
  · exact absurd unverified closed
  · rename_i away
    rw [if_neg away]
    obtain ⟨pending,there,key⟩ := left old present unverified
    rcases List.mem_cons.mp there with rfl | there
    · exact absurd (inStatusSource.mpr ⟨key.symm.trans same.symm,unverified⟩) away
    · exact ⟨pending,there,key⟩

theorem settlingStep {turn : Turn} {current rest call call' ledger} : storeStep call c.ledger = (call',ledger) →
    passStep env clock (.settling turn current rest call) c = (match call' with
      | .answered _ (.receipt (some result)) => verifiedReceipt clock turn rest result
      | .answered _ (.receipt none) => .latest turn current rest
      | .answered _ _ => terminalize clock turn (.failed "verification_failed")
      | call => .settling turn current rest call,c.keep ledger,[]) := by
  intro stored
  obtain ⟨rfl,rfl⟩ := Prod.mk.inj stored
  rfl

theorem settlingGoes {turn : Turn} {current rest} (taken : Taken c turn) (verdict : Verdict)
    (found : Store.getReceipt current.runId current.actionId c.ledger = some current)
    (unverified : current.status = .appliedUnverified)
    (later : ∀ result, Finishes env clock (verifiedReceipt clock turn rest result)
      (settle current (settledReceipt clock current verdict) c) turn) :
    Finishes env clock (.settling turn current rest (.started
      (.transitionReceipt current.runId current.actionId .appliedUnverified (settledReceipt clock current verdict)))) c turn := by
  let settled := settledReceipt clock current verdict
  let rows := inStatus current.runId current.actionId .appliedUnverified
  by_cases hashed : settled.intentHash.isNone
  · have stored : storeStep (.started (.transitionReceipt current.runId current.actionId .appliedUnverified settled)) c.ledger =
        (.answered false (.error intentHashRequired),c.ledger) := if_pos hashed
    exact finishesStep (settlingStep stored) (takenEnds taken _) rfl rfl
  have stored : storeStep (.started (.transitionReceipt current.runId current.actionId .appliedUnverified settled)) c.ledger =
      (.updatingReceipt current.runId current.actionId .appliedUnverified settled,c.ledger) := by
    refine (if_neg hashed).trans ?_
    rw [found]
    exact if_neg (not_not.mpr unverified)
  refine finishesStep (settlingStep stored) ?_ rfl rfl
  by_cases refused : c.ledger.receipts.any rows && !knownEvent settled c.ledger
  · have stored : storeStep (.updatingReceipt current.runId current.actionId .appliedUnverified settled) c.ledger =
        (.answered false (.error .integrityError),c.ledger) := if_pos refused
    exact finishesStep (settlingStep stored) (takenEnds taken _) rfl rfl
  have stored : storeStep (.updatingReceipt current.runId current.actionId .appliedUnverified settled) c.ledger =
      (.rereadingReceipt (c.ledger.receipts.countP rows == 1) current.runId current.actionId .appliedUnverified,
        (settle current settled c).ledger) := if_neg refused
  refine finishesStep (settlingStep stored) ?_ rfl rfl
  have reread : Store.getReceipt current.runId current.actionId (settle current settled c).ledger =
      some (receiptSet settled current) := by
    have kept := @findKept ActionReceipt rows (receiptKey · == (current.runId,current.actionId)) (receiptSet settled)
      c.receipts fun _ => rfl
    have there : c.receipts.find? (receiptKey · == (current.runId,current.actionId)) = some current := found
    rw [there,Option.map_some,if_pos (inStatusSource.mpr ⟨rfl,unverified⟩)] at kept
    exact kept
  have closed : ((receiptSet settled current).status != .appliedUnverified) = true :=
    bne_iff_ne.mpr (settledOver current verdict)
  have stored : storeStep (.rereadingReceipt (c.ledger.receipts.countP rows == 1) current.runId current.actionId
      .appliedUnverified) (settle current settled c).ledger =
      (.answered (c.ledger.receipts.countP rows == 1) (.receipt (some (receiptSet settled current))),
        (settle current settled c).ledger) := by
    simp only [storeStep,reread,closed,Bool.or_true,if_true]
  exact finishesStep (settlingStep stored) (later _) rfl rfl

/- A run with receipts ends: each that is left is settled, or the run fails at it. -/
theorem receiptsGo {rest : List ActionReceipt} {turn : Turn} (taken : Taken c turn) (left : Left turn.run.runId c rest) :
    Finishes env clock (nextReceipt clock turn rest) c turn := by
  induction rest generalizing c turn with
  | nil =>
    by_cases unread : !(listReceipts turn.run.runId 100 c.ledger).all (hydrates env)
    · have stepped : passStep env clock (.finalReceipts turn) c =
          (terminalize clock turn (.failed "descriptor_hydration_failed"),c,[]) := if_pos unread
      exact finishesStep stepped (takenEnds taken _) rfl rfl
    · have stepped : passStep env clock (.finalReceipts turn) c =
          ((finalizeIfPossible clock turn (listReceipts turn.run.runId 100 c.ledger)).1,c,
            (finalizeIfPossible clock turn (listReceipts turn.run.runId 100 c.ledger)).2) := if_neg unread
      exact finishesStep stepped (finalizeGoes taken left) rfl rfl
  | cons receipt rest ih =>
    have later : ∀ {c result}, Taken c turn → Left turn.run.runId c rest →
        Finishes env clock (verifiedReceipt clock turn rest result) c turn := by
      intro c result taken left
      unfold verifiedReceipt
      split
      · exact @ih c { turn with verified := turn.verified + 1 } ⟨taken.filed,taken.member,taken.running,taken.receipts⟩ left
      · exact ih taken left
    unfold nextReceipt
    dsimp only
    split
    · refine finishesStep rfl ?_ rfl rfl
      unfold check
      dsimp only
      split
      · exact takenEnds taken _
      · rename_i current found
        have key : receiptKey current = receiptKey receipt := beq_iff_eq.mp (findSome found).2
        split
        · exact takenEnds taken _
        · split
          · rename_i closed
            refine later taken fun row listed unverified => ?_
            obtain ⟨pending,there,same⟩ := left row listed unverified
            rcases List.mem_cons.mp there with rfl | there
            · have present : row ∈ c.receipts := (List.mem_filter.mp (List.mem_of_mem_take listed)).1
              cases equalOfKey taken.filed.keyed.receipts (findSome found).1 present (key.trans same)
              exact absurd unverified closed
            · exact ⟨pending,there,same⟩
          · rename_i unverified
            have settles : ∀ verdict, Finishes env clock (.settling turn current rest (.started (.transitionReceipt
                current.runId current.actionId .appliedUnverified (settledReceipt clock current verdict)))) c turn := by
              intro verdict
              refine settlingGoes taken verdict ?_ (not_not.mp unverified) fun result =>
                later (settleTaken taken) (settleLeft (settledOver current verdict) key left)
              simp only [receiptKey,Prod.mk.injEq] at key
              rw [key.1,key.2]
              exact found
            split
            · split <;> exact readingGoes taken _ settles
            · split
              · exact takenEnds taken _
              · exact readingGoes taken _ settles
    · exact takenEnds taken _

/- What comes of a run without receipts. -/
theorem emptyGoes {turn : Turn} (filed : Filed c) (member : turn.run ∈ c.runs) (running : turn.run.state ≠ .terminal) :
    Finishes env clock (reconcileEmptyRun env clock turn c.tasks) c turn ∨
      reconcileEmptyRun env clock turn c.tasks = nextRun turn.todo ∧ ¬ OwnerFinished env clock c.tasks turn.run := by
  have closed : ∀ task, turn.run.taskId.bind (Tasks.findTask c.tasks) = some task →
      OwnerFinished env clock c.tasks turn.run → task.status.opened = false := by
    intro task found finished
    unfold OwnerFinished at finished
    rw [found] at finished
    exact finished
  unfold reconcileEmptyRun
  split
  · rename_i task found
    have closed := closed task found
    split
    all_goals
      rename_i status
      rw [status] at closed
    · exact .inr ⟨rfl,fun finished => nomatch closed finished⟩
    · exact .inr ⟨rfl,fun finished => nomatch closed finished⟩
    all_goals exact .inl (endingGoes filed member running _)
  · rename_i none
    split
    · exact .inl (endingGoes filed member running _)
    · rename_i young
      refine .inr ⟨rfl,fun finished => young ?_⟩
      unfold OwnerFinished at finished
      rw [none] at finished
      exact finished

/- What comes of a run that a pass looks at. -/
theorem visitGoes {turn : Turn} (filed : Filed c) (member : turn.run ∈ c.runs) (running : turn.run.state ≠ .terminal) :
    Finishes env clock (.receipts turn) c turn ∨ Goes env clock (.receipts turn) c (nextRun turn.todo) c ∧
      ¬ OwnerFinished env clock c.tasks turn.run := by
  by_cases none : listReceipts turn.run.runId 100 c.ledger = []
  · have asks : passStep env clock (.receipts turn) c = (.asking turn,c,[]) := by
      dsimp only [passStep]
      rw [none]
      rfl
    rcases emptyGoes filed member running with finishes | ⟨passes,unfinished⟩
    · exact .inl (finishesStep asks (finishesStep rfl finishes rfl rfl) rfl rfl)
    · refine .inr ⟨goesStep ?_,unfinished⟩
      rw [asks,← passes]
      exact goesStep arrivesRest
  · have taken : Taken c turn := ⟨filed,member,running,none⟩
    left
    by_cases unread : !(listReceipts turn.run.runId 100 c.ledger).all (hydrates env)
    · have stepped : passStep env clock (.receipts turn) c =
          (terminalize clock turn (.failed "descriptor_hydration_failed"),c,[]) := if_pos unread
      exact finishesStep stepped (takenEnds taken _) rfl rfl
    have pending : ∀ receipt ∈ listReceipts turn.run.runId 100 c.ledger, receipt.status = .appliedUnverified →
        receipt ∈ (listReceipts turn.run.runId 100 c.ledger).filter (·.status == .appliedUnverified) :=
      fun receipt listed unverified => List.mem_filter.mpr ⟨listed,beq_iff_eq.mpr unverified⟩
    by_cases empty : ((listReceipts turn.run.runId 100 c.ledger).filter (·.status == .appliedUnverified)).isEmpty
    · have stepped : passStep env clock (.receipts turn) c =
          ((finalizeIfPossible clock turn (listReceipts turn.run.runId 100 c.ledger)).1,c,
            (finalizeIfPossible clock turn (listReceipts turn.run.runId 100 c.ledger)).2) :=
        (if_neg unread).trans (if_pos empty)
      refine finishesStep stepped (finalizeGoes taken fun receipt listed unverified => ?_) rfl rfl
      have there := pending receipt listed unverified
      rw [List.isEmpty_iff.mp empty] at there
      cases there
    · have stepped : passStep env clock (.receipts turn) c =
          (nextReceipt clock turn ((listReceipts turn.run.runId 100 c.ledger).filter (·.status == .appliedUnverified)),c,[]) :=
        (if_neg unread).trans (if_neg empty)
      exact finishesStep stepped (receiptsGo taken fun receipt listed unverified =>
        ⟨receipt,pending receipt listed unverified,rfl⟩) rfl rfl

/- A pass that has gone through what was to do, and what it has left. -/
structure Swept (env : RecoveryEnv) (clock : Clock) (todo : List CurationRun) (c after : Curating) : Prop where
  goes : Goes env clock (nextRun todo) c .finished after
  tasks : after.tasks = c.tasks
  source : ∀ row ∈ after.runs, row.state ≠ .terminal → row ∈ c.runs
  cleared : ∀ run ∈ todo, run.state ≠ .terminal → OwnerFinished env clock c.tasks run →
    ∀ row ∈ after.runs, row.runId = run.runId → row.state = .terminal
  examines : ∀ run ∈ todo, run.state ≠ .terminal →
    ∃ turn between, turn.run = run ∧ Goes env clock (nextRun todo) c (.receipts turn) between

theorem sweptPast {todo : List CurationRun} {between : Curating} (running : run.state ≠ .terminal)
    (goes : Goes env clock (nextRun (run::todo)) c (nextRun todo) between) (tasks : between.tasks = c.tasks)
    (source : ∀ row ∈ between.runs, row.state ≠ .terminal → row ∈ c.runs)
    (cleared : OwnerFinished env clock c.tasks run → ∀ row ∈ between.runs, row.runId = run.runId → row.state = .terminal)
    (swept : Swept env clock todo between after) : Swept env clock (run::todo) c after := by
  refine ⟨arrivesTrans goes swept.goes,swept.tasks.trans tasks,fun row there unended =>
    source row (swept.source row there unended) unended,?_,?_⟩
  · intro other member unended finished row there same
    rcases List.mem_cons.mp member with rfl | member
    · by_contra open_
      exact open_ (cleared finished row (swept.source row there open_) same)
    · exact swept.cleared other member unended (tasks ▸ finished) row there same
  · intro other member unended
    rcases List.mem_cons.mp member with rfl | member
    · exact ⟨⟨other,todo,0⟩,c,rfl,by rw [nextRun,if_neg running]; exact arrivesRest⟩
    · obtain ⟨turn,later,same,examines⟩ := swept.examines other member unended
      exact ⟨turn,later,same,arrivesTrans goes examines⟩

theorem sweeps {todo : List CurationRun} (filed : Filed c) (fresh : ∀ run ∈ todo, run.state ≠ .terminal → run ∈ c.runs)
    (distinct : UniqueBy (·.runId) todo) : ∃ after, Swept env clock todo c after := by
  induction todo generalizing c with
  | nil => exact ⟨c,⟨arrivesRest,rfl,fun row there _ => there,fun _ member => absurd member List.not_mem_nil,
    fun _ member => absurd member List.not_mem_nil⟩⟩
  | cons run rest ih =>
    have apart : ∀ other ∈ rest, other.runId ≠ run.runId := fun other member same =>
      (List.nodup_cons.mp distinct).1 (List.mem_map.mpr ⟨other,member,same⟩)
    have distinct : UniqueBy (·.runId) rest := (List.nodup_cons.mp distinct).2
    have fresh' : ∀ other ∈ rest, other.state ≠ .terminal → other ∈ c.runs := fun other member =>
      fresh other (List.mem_cons_of_mem _ member)
    by_cases running : run.state = .terminal
    · obtain ⟨after,swept⟩ := ih filed fresh' distinct
      have skips : nextRun (run::rest) = nextRun rest := if_pos running
      refine ⟨after,skips ▸ swept.goes,swept.tasks,swept.source,?_,?_⟩
      · intro other member unended
        rcases List.mem_cons.mp member with rfl | member
        · exact absurd running unended
        · exact swept.cleared other member unended
      · intro other member unended
        rcases List.mem_cons.mp member with rfl | member
        · exact absurd running unended
        · exact skips ▸ swept.examines other member unended
    · have takes : nextRun (run::rest) = .receipts ⟨run,rest,0⟩ := if_neg running
      have member := fresh run List.mem_cons_self running
      rcases @visitGoes env clock c ⟨run,rest,0⟩ filed member running with ⟨between,goes,ended⟩ | ⟨goes,unfinished⟩
      · obtain ⟨after,swept⟩ := ih ended.filed (fun other there unended =>
          ended.others other (fresh' other there unended) (apart other there)) distinct
        exact ⟨after,sweptPast running (takes ▸ goes) ended.tasks ended.source (fun _ => ended.ended) swept⟩
      · obtain ⟨after,swept⟩ := ih filed fresh' distinct
        exact ⟨after,sweptPast running (takes ▸ goes) rfl (fun row there _ => there)
          (fun finished => absurd finished unfinished) swept⟩

theorem listedSource {limit} (member : run ∈ listRuns limit c.ledger) : run ∈ c.runs :=
  (List.mem_insertionSort _).mp (List.mem_of_mem_take member)

theorem listedDistinct {limit} (filed : Filed c) : UniqueBy (·.runId) (listRuns limit c.ledger) := by
  refine ((List.take_sublist _ _).map _).nodup ?_
  exact ((List.perm_insertionSort _ _).map _).nodup_iff.mpr filed.keyed.runs

def listingKey (run : CurationRun) : Lex (String × String) := toLex (run.createdAt.getD "",run.runId)

theorem newerKey {other : CurationRun} : newer other run = true ↔ listingKey run < listingKey other := by
  simp [newer,listingKey,Prod.Lex.toLex_lt_toLex]

/- The page has the runs that fewer runs than its size are newer than. -/
theorem listedNewest {limit} (filed : Filed c) (member : run ∈ c.runs) :
    run ∈ listRuns limit c.ledger ↔ c.runs.countP (newer · run) < min limit 1000 := by
  let sorted := c.runs.insertionSort fun a b => listingKey b ≤ listingKey a
  have same : listRuns limit c.ledger = sorted.take (min limit 1000) := by
    have keyed := @List.map_insertionSort _ _ (fun a b : CurationRun => b.createdAt.getD "" < a.createdAt.getD "" ∨
      b.createdAt = a.createdAt ∧ b.runId ≤ a.runId) (fun a b : CurationRun => listingKey b ≤ listingKey a) _ _ id c.runs
      fun a left b right => by
        obtain ⟨x,hx⟩ := Option.isSome_iff_exists.mp (filed.created a left)
        obtain ⟨y,hy⟩ := Option.isSome_iff_exists.mp (filed.created b right)
        simp [listingKey,Prod.Lex.toLex_le_toLex,hx,hy]
    rw [List.map_id,List.map_id] at keyed
    exact congrArg (List.take (min limit 1000)) keyed
  have perm : sorted.Perm c.runs := List.perm_insertionSort _ _
  have strict : sorted.Pairwise fun a b => newer a b = true ∧ newer b a = false := by
    have distinct : UniqueBy (·.runId) sorted := (perm.map _).nodup_iff.mpr filed.keyed.runs
    have ordered := List.pairwise_insertionSort (fun a b : CurationRun => listingKey b ≤ listingKey a) c.runs
    refine (List.Pairwise.and ordered (List.pairwise_map.mp distinct)).imp fun ⟨le,apart⟩ => ?_
    have ne : listingKey _ ≠ listingKey _ := fun equal => apart (congrArg (fun key => (ofLex key).2) equal.symm)
    exact ⟨newerKey.mpr (lt_of_le_of_ne le ne),Bool.eq_false_iff.mpr fun back => absurd (newerKey.mp back) (not_lt_of_ge le)⟩
  rw [same,← perm.countP_eq]
  exact takeBefore (by simp [newer]) strict (perm.mem_iff.mpr member)

theorem passesCover (filed : Filed c) : Covers env clock c ↔
    ∀ run ∈ c.runs, Eligible env clock c run → c.runs.countP (newer · run) < runLimit := by
  constructor
  · exact fun covers run member eligible => (listedNewest filed member).mp (examinedListed (covers.examines run member eligible))
  · intro newest
    have listed : ∀ run ∈ c.runs, Eligible env clock c run → run ∈ listRuns runLimit c.ledger :=
      fun run member eligible => (listedNewest filed member).mpr (newest run member eligible)
    obtain ⟨after,swept⟩ := @sweeps env clock c (listRuns runLimit c.ledger) filed
      (fun run member _ => listedSource member) (listedDistinct filed)
    have passes : Passes env clock c after := goesStep swept.goes
    refine ⟨⟨after,passes⟩,fun run member eligible => ?_,after,.single passes,fun run there running finished => ?_⟩
    · obtain ⟨turn,between,same,examines⟩ := swept.examines run (listed run member eligible) eligible.1
      exact ⟨turn,between,same,goesStep examines⟩
    · rw [swept.tasks] at finished
      have member := swept.source run there running
      exact running (swept.cleared run (listed run member ⟨running,.inr finished⟩) running finished run there rfl)

/- Where all that is listed is terminal, repeating the pass changes nothing. -/

theorem nextRunOver {todo : List CurationRun} (closed : ∀ run ∈ todo, run.state = .terminal) : nextRun todo = .finished := by
  induction todo with
  | nil => rfl
  | cons run rest ih =>
    rw [nextRun,if_pos (closed run List.mem_cons_self)]
    exact ih fun other member => closed other (List.mem_cons_of_mem _ member)

def Resting (clock : Clock) (c : Curating) (call : Call) (store : Curating) : Prop :=
  store = c ∧ (call = .pass clock .listing ∨ call = .pass clock .finished)

theorem idlePasses (closed : ∀ run ∈ listRuns runLimit c.ledger, run.state = .terminal)
    (passes : Relation.ReflTransGen (Passes env clock) c after) : after = c := by
  have steps : ∀ call store, Resting clock c call store →
      Resting clock c ((recovery env).step call store).1 ((recovery env).step call store).2.1 := by
    rintro call store ⟨rfl,rfl | rfl⟩
    · exact ⟨rfl,.inr (congrArg (Call.pass clock) (nextRunOver closed))⟩
    · exact ⟨rfl,.inr rfl⟩
  induction passes with
  | refl => rfl
  | tail _ last ih =>
    subst ih
    exact (arrivesKeeps steps last ⟨rfl,.inl rfl⟩).1

/- A run whose task is over, beside runs that are newer. -/

def finishedTask : Tasks.TaskRecord := { curatorTask.row with status := .completed }

def leftRun : CurationRun := { sampleRun .executing with
  runId := firstId
  taskId := some finishedTask.id
  createdAt := some "2026-01-01T00:00:00+00:00" }

def decimal (n : Nat) : Char := Char.ofNat (48 + n % 10)

def newerRun (n : Nat) : CurationRun := { sampleRun .terminal with
  runId := String.ofList [decimal (n / 100),decimal (n / 10),decimal n] ++ "00000-0000-0000-0000-000000000002"
  outcome := some .applied
  createdAt := some "2026-01-02T00:00:00+00:00"
  terminalizedAt := some "2026-01-02T00:00:01+00:00" }

def crowded (count : Nat) : Curating := ⟨leftRun::(List.range count).map newerRun,[],⟨[finishedTask],[]⟩,Database.empty⟩

theorem crowdedRuns {count : Nat} (member : run ∈ (crowded count).runs) : run = leftRun ∨ ∃ n < count, run = newerRun n := by
  rcases List.mem_cons.mp member with rfl | member
  · exact .inl rfl
  · obtain ⟨n,bound,rfl⟩ := List.mem_map.mp member
    exact .inr ⟨n,List.mem_range.mp bound,rfl⟩

theorem decimalInjective {n m : Nat} (same : decimal n = decimal m) : n % 10 = m % 10 := by
  have digits : ∀ a < 10, ∀ b < 10, Char.ofNat (48 + a) = Char.ofNat (48 + b) → a = b := by decide
  exact digits _ (Nat.mod_lt _ (by decide)) _ (Nat.mod_lt _ (by decide)) same

theorem newerInjective {n m : Nat} (left : n < 1000) (right : m < 1000)
    (same : (newerRun n).runId = (newerRun m).runId) : n = m := by
  have texts := congrArg String.toList same
  simp only [newerRun,String.toList_append,String.toList_ofList,List.cons_append,List.nil_append,List.cons.injEq] at texts
  have hundreds := decimalInjective texts.1
  have tens := decimalInjective texts.2.1
  have units := decimalInjective texts.2.2.1
  omega

theorem crowdedFiled {count : Nat} (few : count ≤ 1000) : Filed (crowded count) := by
  refine ⟨⟨?_,List.nodup_nil⟩,?_,?_⟩
  · refine List.nodup_cons.mpr ⟨?_,?_⟩
    · intro same
      obtain ⟨run,member,same⟩ := List.mem_map.mp same
      obtain ⟨n,_,rfl⟩ := List.mem_map.mp member
      have last := congrArg (fun text : String => text.toList.drop 35) same
      simp [newerRun,leftRun,firstId] at last
    · rw [List.map_map]
      refine List.Nodup.map_on (fun n left m right same => ?_) List.nodup_range
      have left := List.mem_range.mp left
      have right := List.mem_range.mp right
      exact newerInjective (by omega) (by omega) same
  · intro run member
    rcases crowdedRuns member with rfl | ⟨n,_,rfl⟩ <;> rfl
  · intro run member unended
    obtain rfl := (crowdedRuns member).resolve_right fun ⟨n,_,same⟩ => unended (same ▸ rfl)
    rfl

theorem crowdedCount {count : Nat} : (crowded count).runs.countP (newer · leftRun) = count := by
  have all : ∀ run ∈ (List.range count).map newerRun, newer run leftRun = true := by
    intro run member
    obtain ⟨n,_,rfl⟩ := List.mem_map.mp member
    have later : "2026-01-01T00:00:00+00:00" < "2026-01-02T00:00:00+00:00" := by decide
    exact Bool.or_eq_true_iff.mpr (.inl (decide_eq_true later))
  have self : newer leftRun leftRun = false := by simp [newer]
  unfold crowded
  rw [List.countP_cons,List.countP_eq_length.mpr all,self,List.length_map,List.length_range]
  rfl

theorem leftEligible {count : Nat} : Eligible env clock (crowded count) leftRun := by
  have found : leftRun.taskId.bind (Tasks.findTask (crowded count).tasks) = some finishedTask := rfl
  refine ⟨nofun,.inr ?_⟩
  unfold OwnerFinished
  rw [found]
  rfl

theorem passesCoverSample : Covers recoveryEnv ⟨0,"t2"⟩ (crowded 199) := by
  refine (passesCover (crowdedFiled (by decide))).mpr fun run member eligible => ?_
  obtain rfl := (crowdedRuns member).resolve_right fun ⟨n,_,same⟩ => eligible.1 (same ▸ rfl)
  exact crowdedCount.trans_lt (by decide)

/- The run is left for good. -/
theorem newerRunsHide : ¬ Covers recoveryEnv ⟨0,"t2"⟩ (crowded 200) ∧
    ∀ after, Relation.ReflTransGen (Passes recoveryEnv ⟨0,"t2"⟩) (crowded 200) after → after = crowded 200 := by
  have hidden : leftRun ∉ listRuns runLimit (crowded 200).ledger := by
    intro listed
    have few := (listedNewest (crowdedFiled (by decide)) List.mem_cons_self).mp listed
    rw [crowdedCount] at few
    exact absurd few (by decide)
  refine ⟨fun covers => hidden (examinedListed (covers.examines leftRun List.mem_cons_self leftEligible)),fun after passes => ?_⟩
  refine idlePasses (fun run listed => ?_) passes
  rcases crowdedRuns (listedSource listed) with rfl | ⟨n,_,rfl⟩
  · exact absurd listed hidden
  · rfl

end McpMemory.Curation.Reconciliation
