import McpMemory.Ingress.Runs

/-! What a call of `execute` does to the memory tables: what its callback does, and notes. -/
namespace McpMemory.Ingress
open Memory Text Transaction

variable (env : Env) (config : Config)

def tablesOf (work : Work) : Tables := work.database.memory

theorem ensuresFailStage {inv : Work → Prop} (stage : String) : Ensures inv (failStage config stage) fun _ => True := by
  intro oracle session start
  have same : (failStage config stage oracle session).2.data = session.data :=
    @keepsFailStage config _ id stage oracle session
  exact ⟨same ▸ start,fun _ _ => trivial⟩

theorem notedTouched {α : Type} {inv : Work → Prop} (query : Work → α) :
    Ensures inv (inspect query : Action α) fun _ => True := ensuresInspect fun _ _ => trivial

variable {inv : Tables → Prop} (notes : ∀ before after, Notes before after → inv before → inv after)
include notes

theorem noted : Closed port Notes (inv ∘ tablesOf) := fun work after start noted =>
  notes (tablesOf work) after noted start

theorem notedRead {α : Type} (query : Tables → α) :
    Ensures (inv ∘ tablesOf) (onTables port (read query)) fun _ => True := closedSelect (noted notes) notesRefl query

theorem notedWriteHistory (eventId actionId operation : String) (before after : Records) :
    Ensures (inv ∘ tablesOf) (writeHistory env eventId actionId operation before after) fun _ => True :=
  ensuresBind ensuresObserve fun _ _ => ensuresBind (closedOnTables (noted notes) (notesInsertEvent _)) fun _ _ =>
    ensuresBind (ensuresLift _) fun _ _ => ensuresEach fun _ _ =>
    closedWriteRecordRevision (noted notes) notesInsertRecordRevision _ _ _ _ _

/- After its callback, and so as a whole, the mutation keeps what the callback establishes. -/
theorem notedApplyMutation {p callback createdAt} {start : Tables}
    {oracle} (played : ∀ session result after, callback.play (perform env) oracle session = (.ok result,after) →
      tablesOf session.data = start → inv (tablesOf after.data)) {session receipt after}
    (run : applyMutation env config p callback createdAt oracle session = (.ok receipt,after))
    (begun : tablesOf session.data = start) : inv (tablesOf after.data) := by
  unfold applyMutation at run
  obtain ⟨_,staged,stage,run⟩ := bindOk.mp run
  have first : Keeps tablesOf (failStage config "action_reserved") := keepsFailStage config _
  have begun := (first.ok stage).trans begun
  obtain ⟨before,looked,look,run⟩ := bindOk.mp run
  have still : Closed port Eq (tablesOf · = start) := fun _ _ begun same => same ▸ begun
  have second := (closedSelect still (fun _ => rfl) _).kept look begun
  obtain ⟨result,_,ran,run⟩ := bindOk.mp run
  have start := played _ _ _ ran second.1
  refine (@Ensures.kept _ _ _ (inv ∘ tablesOf) (fun _ => True) _ ?_ _ _ _ _ run start).1
  cases result with
  | none => exact ensuresRaise _
  | some result =>
    dsimp only
    split
    · exact ensuresRaise _
    · exact ensuresBind (ensuresFailStage config _) fun _ _ => ensuresBind (notedTouched _)
        fun _ _ => ensuresBind (ensuresLift _) fun _ _ => ensuresBind (notedRead notes _) fun _ _ =>
        ensuresBind ensuresObserve fun _ _ =>
        ensuresBind (closedWriteRepairIntents (noted notes) notesInsertRepairIntent _ _ _) fun _ _ =>
        ensuresBind (ensuresFailStage config _) fun _ _ => ensuresBind (notedWriteHistory env notes _ _ _ _ _)
        fun _ _ => ensuresBind (ensuresFailStage config _) fun _ _ => ensuresBind ensuresObserve fun _ _ =>
        ensuresBind (ensuresLift _) fun _ _ => ensuresBind (ensuresLift _) fun _ _ =>
        ensuresBind (ensuresFailStage config _) fun _ _ => ensuresPure trivial

theorem notedBody {p callback} {start : Tables}
    {oracle} (played : ∀ session result after, callback.play (perform env) oracle session = (.ok result,after) →
      tablesOf session.data = start → inv (tablesOf after.data)) {session receipt after}
    (run : body env config p callback oracle session = (.ok (.commit receipt),after))
    (begun : tablesOf session.data = start) : inv (tablesOf after.data) := by
  unfold body at run
  obtain ⟨existing,looked,first,run⟩ := bindOk.mp run
  rw [tablesOf,(selectOk first).2] at begun
  cases existing with
  | some existing =>
    dsimp only at run
    split at run
    · exact absurd run raiseOk
    · cases (pureOk.mp run).1
  | none =>
    obtain ⟨now,timed,observed,run⟩ := bindOk.mp run
    obtain ⟨_,reserved,inserted,run⟩ := bindOk.mp run
    obtain ⟨made,mutated,changed,run⟩ := bindOk.mp run
    obtain ⟨_,updated,completed,run⟩ := bindOk.mp run
    obtain ⟨_,covered,assigned,run⟩ := bindOk.mp run
    obtain ⟨_,settled,reconciled,run⟩ := bindOk.mp run
    have besides := (keepsEach fun item _ => keepsAssignCoverage item).ok assigned
    have untouched := (keepsReconcileJournal config p).ok reconciled
    simp only [beside,Prod.mk.injEq] at besides
    simp only [besideJournal,Prod.mk.injEq] at untouched
    have same : tablesOf reserved.data = start := by
      rw [tablesOf,(insertReceiptOk inserted).2,← (observeOk.mp observed).2]
      exact begun
    have kept := notedApplyMutation env config notes played changed same
    rw [← (pureOk.mp run).2,tablesOf,untouched.1,besides.1,← writeOk completed]
    exact kept

/- A call that does not commit changes nothing. -/
theorem notedExecute {attempt : Attempt} {database : Database}
    (played : ∀ session result after, attempt.callback.play (perform env) attempt.oracle session = (.ok result,after) →
      tablesOf session.data = database.memory → inv (tablesOf after.data)) :
    (execute env attempt database).2.memory = database.memory ∨ inv (execute env attempt database).2.memory := by
  rcases run : execute env attempt database with ⟨answer,after⟩
  rcases executeSource env run with ⟨error,_,_,rfl⟩ | ⟨p,work,_,rfl,ended⟩
  · exact .inl rfl
  · cases answer with
    | error error => exact .inl (by rw [transactionError ended])
    | ok receipt =>
      rcases transactionOk ended with ⟨begun,session,began,ran,rfl⟩ | ⟨_,rfl⟩
      · exact .inr (notedBody env attempt.config notes played ran (by rw [began]; rfl))
      · exact .inl rfl

end McpMemory.Ingress
