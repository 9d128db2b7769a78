import McpMemory.Curation.Execute

/-! What an action leaves alone. A callback reaches a memory that was there before only
when the action locked it, and each statement changes the memories that it names. -/
namespace McpMemory.Curation
open Memory Text Transaction

variable (env : Env) (config : Config)

/- An invariant of the work that what the transaction does before its callback cannot break. -/
structure Still (inv : Work → Prop) : Prop where
  same : Closed port Eq inv
  ledger : ∀ (work : Work) (ledger : Ledger), ledger.receipts = work.database.curation.receipts → inv work →
    inv { work with database := { work.database with curation := ledger } }

/- Nor what it does after it. -/
structure Aside (inv : Work → Prop) : Prop where
  notes : Closed port Notes inv
  ledger : ∀ (work : Work) (ledger : Ledger), ledger.receipts = work.database.curation.receipts → inv work →
    inv { work with database := { work.database with curation := ledger } }

theorem Aside.still {inv : Work → Prop} (aside : Aside inv) : Still inv :=
  ⟨fun work after start same => aside.notes work after start (same ▸ notesRefl _),aside.ledger⟩

/- Nor can changes of the free memories; what the transaction lets a callback touch is free, and
what it lets a link point to is an end. -/
structure Frame (free ends : String → Prop) (inv : Work → Prop) : Prop extends Aside inv where
  guards : Closed port (Differs free ends) inv
  touched : ∀ (work : Work) touched, inv work → inv { work with touched := touched }
  newIds : ∀ (work : Work) memoryId, free memoryId → inv work →
    inv { work with newIds := work.newIds ++ [memoryId] }
  access : ∀ (work : Work) memoryId, inv work →
    locked memoryId work ∨ work.database.memory.has memoryId = false → free memoryId
  within : ∀ memoryId, free memoryId → ends memoryId
  external : ∀ memoryId, startsWith memoryId "ext:" → ends memoryId

/- What the commands of a callback keep. -/
structure Guarded (free ends : String → Prop) (inv : Work → Prop) : Prop where
  same : Closed port Eq inv
  guards : Closed port (Differs free ends) inv
  touched : ∀ (work : Work) touched, inv work → inv { work with touched := touched }
  newIds : ∀ (work : Work) memoryId, free memoryId → inv work →
    inv { work with newIds := work.newIds ++ [memoryId] }
  access : ∀ (work : Work) memoryId, inv work →
    locked memoryId work ∨ work.database.memory.has memoryId = false → free memoryId
  within : ∀ memoryId, free memoryId → ends memoryId
  external : ∀ memoryId, startsWith memoryId "ext:" → ends memoryId

theorem Frame.guarded {free ends : String → Prop} {inv : Work → Prop} (frame : Frame free ends inv) :
    Guarded free ends inv :=
  ⟨frame.toAside.still.same,frame.guards,frame.touched,frame.newIds,frame.access,frame.within,frame.external⟩

section
variable {inv : Work → Prop}

theorem framedNotes {α : Type} (query : Work → α) :
    Ensures inv (inspect query : Action α) fun _ => True := ensuresInspect fun _ _ => trivial

theorem framedFailStage (stage : String) : Ensures inv (failStage config stage) fun _ => True := by
  refine ensuresBind (ensuresSelect _) fun _ _ => ?_
  cases config.faultStage.map (replaceChar '-' '_') with
  | none => exact ensuresPure trivial
  | some fault =>
    dsimp only
    split
    · exact ensuresRaise _
    · exact ensuresPure trivial

theorem framedCheckRecordToken (records : Records) (p : Prepared) (memoryId : String) :
    Ensures inv (checkRecordToken env records p memoryId) fun _ => True := by
  unfold checkRecordToken
  split
  · exact ensuresPure trivial
  · split
    · exact ensuresRaise _
    · refine ensuresBind (ensuresLift _) fun actual _ => ?_
      split
      · exact ensuresPure trivial
      · exact ensuresRaise _

section
variable (still : Still inv)
include still

theorem framedRead {α : Type} (query : Tables → α) :
    Ensures inv (onTables port (read query)) fun _ => True := closedSelect still.same (fun _ => rfl) query

theorem framedCheckGraphToken (p : Prepared) (memoryId : String) :
    Ensures inv (checkGraphToken env p memoryId) fun _ => True := by
  unfold checkGraphToken
  split
  · exact ensuresPure trivial
  · refine ensuresBind (framedRead still _) fun _ _ => ensuresBind (ensuresLift _) fun actual _ => ?_
    split
    · exact ensuresPure trivial
    · exact ensuresRaise _

theorem framedCheckLinkToken (item : String × String) :
    Ensures inv (checkLinkToken env item) fun _ => True := by
  unfold checkLinkToken
  split
  · exact ensuresPure trivial
  · refine ensuresBind (ensuresLift _) fun _ _ => ensuresBind (framedRead still _) fun _ _ =>
      ensuresBind (ensuresLift _) fun actual _ => ?_
    split
    · exact ensuresPure trivial
    · exact ensuresRaise _

theorem framedCheckTokens (records : Records) (p : Prepared) :
    Ensures inv (checkTokens env records p) fun _ => True :=
  ensuresBind (ensuresEach fun memoryId _ => ensuresBind (framedCheckRecordToken env records p memoryId)
    fun _ _ => framedCheckGraphToken env still p memoryId) fun _ _ =>
  ensuresEach fun item _ => framedCheckLinkToken env still item

theorem framedCheckStatus (p : Prepared) (item : String × String) :
    Ensures inv (checkStatus env p item) fun _ => True := by
  unfold checkStatus
  dsimp only
  split
  · exact ensuresRaise _
  · refine ensuresBind (framedRead still _) fun row _ => ?_
    split
    · exact ensuresPure trivial
    · exact ensuresRaise _

theorem framedCheckLink (p : Prepared) (shouldExist : Bool) (link : LinkAssertion) :
    Ensures inv (checkLink env p shouldExist link) fun _ => True := by
  unfold checkLink
  dsimp only
  split
  · exact ensuresRaise _
  · refine ensuresBind (ensuresLift _) fun _ _ => ?_
    split
    · exact ensuresRaise _
    · refine ensuresBind (framedRead still _) fun row _ => ?_
      split
      · exact ensuresPure trivial
      · exact ensuresRaise _

theorem framedCheckPreconditions (p : Prepared) (asked : Option Preconditions) :
    Ensures inv (checkPreconditions env p asked) fun _ => True := by
  cases asked with
  | none => exact ensuresPure trivial
  | some asked =>
    exact ensuresBind (ensuresEach fun item _ => framedCheckStatus env still p item) fun _ _ =>
      ensuresBind (ensuresEach fun link _ => framedCheckLink env still p true link) fun _ _ =>
      ensuresEach fun link _ => framedCheckLink env still p false link

theorem framedRunFor (request : Request) : Ensures inv (runFor request) fun _ => True := by
  refine ensuresBind (ensuresSelect _) fun run _ => ?_
  split
  · exact ensuresPure trivial
  · exact ensuresPure trivial
  · refine ensuresBind ensuresObserve fun now _ =>
      ensuresBind (ensuresWrite fun work start => still.ledger work _ ?_ start) fun _ _ => ensuresSelect _
    unfold insertRun
    split <;> rfl

theorem framedLockTarget (memoryId : String) : Ensures inv (lockTarget memoryId) fun _ => True := by
  unfold lockTarget
  split
  · exact ensuresPure trivial
  · refine ensuresBind (framedRead still _) fun found _ => ?_
    cases found with
    | true => exact ensuresPure trivial
    | false => exact ensuresRaise _

end

theorem framedWriteHistory (aside : Aside inv) (eventId : String) (request : Request) (run : Option Run) (operation : String)
    (before after : Records) (beforeLinks afterLinks : List MemoryLink) :
    Ensures inv (writeHistory env eventId request run operation before after beforeLinks afterLinks)
      fun _ => True := by
  refine ensuresBind (ensuresLift _) fun _ _ => ensuresBind (ensuresLift _) fun _ _ =>
    ensuresBind ensuresObserve fun _ _ => ensuresBind (closedOnTables aside.notes (notesInsertEvent _)) fun _ _ =>
    ensuresBind (ensuresEach fun _ _ => closedWriteRecordRevision aside.notes notesInsertRecordRevision _ _ _ _ _) fun _ _ =>
    ensuresEach fun key _ => ?_
  unfold writeLinkRevision
  dsimp only
  split
  · exact ensuresPure trivial
  · exact closedOnTables aside.notes (notesInsertLinkRevision _)

/- The whole action keeps what its callback establishes. -/
theorem framedApplyAction {before : Work → Prop} (still : Still before) (aside : Aside inv) {request : Request} {p : Prepared} {callback : Callback}
    {oracle} (played : ∀ session result after, callback.play (perform env config) oracle session =
      (.ok result,after) → before session.data → inv after.data) {session receipt after}
    (run : applyAction env config request p callback oracle session = (.ok receipt,after))
    (start : before session.data) : inv after.data := by
  unfold applyAction at run
  obtain ⟨found,_,ran,run⟩ := bindOk.mp run
  have start := ((framedRunFor still request).kept ran start).1
  obtain ⟨_,_,ran,run⟩ := bindOk.mp run
  have start := ((ensuresLift _).kept ran start).1
  obtain ⟨_,_,ran,run⟩ := bindOk.mp run
  have start := ((ensuresEach fun memoryId _ => framedLockTarget still memoryId).kept ran start).1
  obtain ⟨records,_,ran,run⟩ := bindOk.mp run
  have start := ((framedRead still _).kept ran start).1
  obtain ⟨_,_,ran,run⟩ := bindOk.mp run
  have start := ((framedCheckTokens env still records p).kept ran start).1
  obtain ⟨_,_,ran,run⟩ := bindOk.mp run
  have start := ((framedCheckPreconditions env still p request.preconditions).kept ran start).1
  obtain ⟨beforeLinks,_,ran,run⟩ := bindOk.mp run
  have start := ((framedRead still _).kept ran start).1
  obtain ⟨result,_,ran,run⟩ := bindOk.mp run
  have start := played _ _ _ ran start
  refine (@Ensures.kept _ _ _ _ (fun _ => True) _ ?_ _ _ _ _ run start).1
  cases result with
  | none => exact ensuresRaise _
  | some result =>
    dsimp only
    split
    · exact ensuresRaise _
    · split
      · exact ensuresRaise _
      · exact ensuresBind (framedFailStage config _) fun _ _ => ensuresBind (framedNotes _) fun _ _ =>
          ensuresBind (ensuresLift _) fun _ _ => ensuresBind (framedRead aside.still _) fun _ _ =>
          ensuresBind (framedRead aside.still _) fun _ _ => ensuresBind ensuresObserve fun _ _ =>
          ensuresBind (ensuresLift _) fun _ _ => ensuresBind (ensuresLift _) fun _ _ =>
          ensuresBind (closedWriteRepairIntents aside.notes notesInsertRepairIntent _ _ _) fun _ _ =>
          ensuresBind (framedFailStage config _) fun _ _ =>
          ensuresBind (framedWriteHistory env aside _ _ _ _ _ _ _ _) fun _ _ =>
          ensuresBind (framedFailStage config _) fun _ _ => ensuresBind (ensuresLift _) fun _ _ =>
          ensuresBind (ensuresLift _) fun _ _ => ensuresBind (ensuresLift _) fun _ _ =>
          ensuresBind ensuresObserve fun _ _ => ensuresPure trivial

end

section
variable {free ends : String → Prop} {inv : Work → Prop} (frame : Guarded free ends inv)
include frame

theorem guardedRead {α : Type} (query : Tables → α) :
    Ensures inv (onTables port (read query)) fun _ => True := closedSelect frame.same (fun _ => rfl) query

theorem framedOnTables {α : Type} {sql : Statement α} (spares : Spares free ends sql) :
    Ensures inv (onTables port sql) fun _ => True := closedOnTables frame.guards spares

theorem framedTouch (memoryIds : List String) : Ensures inv (touch memoryIds) fun _ => True :=
  ensuresAdjust fun work => frame.touched work _

/- The post-condition of a look for a row: where none was found the id is free. -/
theorem framedAbsent (memoryId : String) :
    Ensures inv (onTables port (read fun t => t.has memoryId)) fun found => found = false → free memoryId :=
  closedRead frame.same (fun _ => rfl) fun work start absent => frame.access work memoryId start (.inr absent)

theorem framedLocked (memoryId : String) :
    Ensures inv (inspect (locked memoryId) : Action Bool) fun held => held = true → free memoryId :=
  ensuresInspect fun work start held => frame.access work memoryId start (.inl held)

theorem framedRequireAccess (memoryId : String) : Ensures inv (requireAccess env memoryId) free := by
  refine ensuresBind (framedLocked frame _) fun held grants => ?_
  cases held with
  | true => exact ensuresPure (grants rfl)
  | false =>
    refine ensuresBind (framedAbsent frame _) fun found absent => ?_
    cases found with
    | true => exact ensuresRaise _
    | false => exact ensuresPure (absent rfl)

theorem framedRequireEndpoint (memoryId : String) : Ensures inv (requireEndpoint env memoryId) ends := by
  unfold requireEndpoint
  dsimp only
  split
  · rename_i external
    exact ensuresPure (frame.external _ external)
  · refine ensuresBind (framedLocked frame _) fun held grants => ?_
    cases held with
    | true => exact ensuresPure (frame.within _ (grants rfl))
    | false =>
      refine ensuresBind (guardedRead frame _) fun found _ => ?_
      cases found <;> exact ensuresRaise _

theorem framedGetMemory (memoryId : String) : Ensures inv (getMemory env memoryId) fun _ => True :=
  ensuresBind (framedRequireAccess env frame _) fun _ _ => guardedRead frame _

theorem framedUpdateMemory (memoryId : String) (changes : UpdateValues) :
    Ensures inv (updateMemory env config memoryId changes) fun _ => True := by
  refine ensuresBind (framedRequireAccess env frame _) fun memoryId named =>
    ensuresBind (framedGetMemory env frame _) fun found _ => ?_
  cases found with
  | none => exact ensuresRaise _
  | some existing =>
    exact ensuresBind (ensuresLift _) fun prepared _ => ensuresBind ensuresObserve fun now _ =>
      ensuresBind (framedOnTables frame (sparesUpdateMemory named fun _ => rfl)) fun _ _ =>
      ensuresBind (closedReplaceWorkspaces frame.guards (mapsDiffers named) _) fun _ _ =>
      ensuresBind (closedReplaceTags frame.guards (mapsDiffers named) _) fun _ _ =>
      ensuresBind (framedTouch frame _) fun _ _ => ensuresBind (framedFailStage config _) fun _ _ =>
      ensuresBind (closedReplaceFts frame.guards toleratesDiffers _ _ _ _) fun _ _ =>
      ensuresBind (framedFailStage config _) fun _ _ => framedGetMemory env frame _

theorem framedCreateMemory (values : CreateValues) :
    Ensures inv (createMemory env config values) fun _ => True := by
  refine ensuresBind ensuresObserve fun now _ => ensuresBind (ensuresLift _) fun prepared _ =>
    ensuresBind (framedAbsent frame _) fun taken absent => ?_
  cases taken with
  | true => exact ensuresRaise _
  | false =>
    have named := absent rfl
    refine ensuresBind (guardedRead frame _) fun nextRef _ =>
      ensuresBind (framedOnTables frame (sparesInsertMemory named)) fun _ _ =>
      ensuresBind (closedReplaceWorkspaces frame.guards (mapsDiffers named) _) fun _ _ =>
      ensuresBind (closedReplaceTags frame.guards (mapsDiffers named) _) fun _ _ =>
      ensuresBind (framedTouch frame _) fun _ _ =>
      ensuresBind (ensuresAdjust fun work => frame.newIds work _ named) fun _ _ =>
      ensuresBind (framedFailStage config _) fun _ _ =>
      ensuresBind (closedReplaceFts frame.guards toleratesDiffers _ _ _ _) fun _ _ =>
      ensuresBind (framedFailStage config _) fun _ _ =>
      ensuresBind (framedGetMemory env frame _) fun made _ => ?_
    cases made with
    | none => exact ensuresRaise _
    | some record => exact ensuresPure trivial

theorem framedAddLink (sourceId targetId linkType context : String) :
    Ensures inv (addLink env config sourceId targetId linkType context) fun _ => True :=
  ensuresBind (framedRequireAccess env frame _) fun _ source =>
    ensuresBind (framedRequireEndpoint env frame _) fun _ target => ensuresBind (ensuresLift _) fun _ _ =>
    ensuresBind (framedOnTables frame (sparesUpsertLink source target)) fun _ _ =>
    ensuresBind (framedTouch frame _) fun _ _ => ensuresBind (framedFailStage config _) fun _ _ =>
    ensuresPure trivial

theorem framedRemoveLink (sourceId targetId linkType : String) :
    Ensures inv (removeLink env config sourceId targetId linkType) fun _ => True :=
  ensuresBind (framedRequireAccess env frame _) fun _ source =>
    ensuresBind (framedRequireEndpoint env frame _) fun _ target => ensuresBind (ensuresLift _) fun _ _ =>
    ensuresBind (framedOnTables frame (sparesDeleteLink source target)) fun _ _ =>
    ensuresBind (framedTouch frame _) fun _ _ => ensuresBind (framedFailStage config _) fun _ _ =>
    ensuresPure trivial

theorem framedSetLineage (memoryId : String) (lineage : Json.Object) :
    Ensures inv (setLineage env config memoryId lineage) fun _ => True := by
  refine ensuresBind (framedGetMemory env frame _) fun found _ => ?_
  cases found with
  | none => exact ensuresRaise _
  | some record => exact framedUpdateMemory env config frame _ _

theorem framedDeleteMemory (every : ∀ memoryId, ends memoryId) (memoryId : String) :
    Ensures inv (deleteMemory env config memoryId) fun _ => True := by
  refine ensuresBind (framedRequireAccess env frame _) fun _ named =>
    ensuresBind (framedGetMemory env frame _) fun found _ => ?_
  cases found with
  | none => exact ensuresRaise _
  | some existing =>
    exact ensuresBind (framedOnTables frame (sparesDeleteSearchDocuments _)) fun _ _ =>
      ensuresBind (framedOnTables frame (sparesDeleteMemory named every)) fun _ _ =>
      ensuresBind (framedTouch frame _) fun _ _ => ensuresBind (framedFailStage config _) fun _ _ =>
      ensuresPure trivial

def Command.deletes : Command → Prop
  | .deleteMemory _ => True
  | _ => False

theorem framedPerform (command : Command) (fine : ¬ command.deletes ∨ ∀ memoryId, ends memoryId) :
    Ensures inv (perform env config command) fun _ => True := by
  cases command with
  | getMemory memoryId => exact framedGetMemory env frame memoryId
  | getLinks memoryId incoming linkType =>
    exact ensuresBind (framedRequireAccess env frame _) fun _ _ => ensuresBind (ensuresLift _) fun _ _ =>
      guardedRead frame _
  | getProtections memoryId =>
    exact ensuresBind (framedRequireAccess env frame _) fun _ _ => ensuresSelect _
  | updateMemory memoryId changes => exact framedUpdateMemory env config frame memoryId changes
  | createMemory values => exact framedCreateMemory env config frame values
  | deleteMemory memoryId =>
    exact framedDeleteMemory env config frame (fine.resolve_left fun kept => kept trivial) memoryId
  | addLink sourceId targetId linkType context =>
    exact framedAddLink env config frame sourceId targetId linkType context
  | removeLink sourceId targetId linkType => exact framedRemoveLink env config frame sourceId targetId linkType
  | setLineage memoryId lineage => exact framedSetLineage env config frame memoryId lineage

end

end McpMemory.Curation
