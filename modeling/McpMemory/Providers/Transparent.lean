import McpMemory.Providers.Instrumented

/-! When an instrumented call ends as the provider's call does. -/
namespace McpMemory.Instrumented
open Transaction Attempts Providers

/- The next `n` statements raise nothing. -/
def Undisturbed (oracle : Oracle BookError) (moment n : Nat) : Prop := ∀ k < n, (oracle (moment + k)).fault = none

/- The attempt, where one is booked, can be finished. -/
def Accepted (p : InstrumentedAIProvider) (operation : Tracking → Operation) (books : Books) : Prop :=
  ∀ tracking, p.tracking = some tracking → ∃ row, (tracking.store (operation tracking) books.attempts).1 = .ok row

def finishes (p : InstrumentedAIProvider) : Nat := if p.tracking.isSome then 1 else 0

variable {ρ : Type}

def Parses (encoding : Encoding ρ) (parsed : ρ) : Prop :=
  encoding.isNone parsed ∨ encoding.isMapping parsed ∧ encoding.dumps parsed ≠ none

/- The response is dumped where the provider told of no text. -/
def Dumps (encoding : Encoding ρ) (last : Option Event) (response : ρ) : Prop :=
  (extractRawText last).filter (· != "") = none → encoding.dumps response ≠ none

section
variable (p : InstrumentedAIProvider) (requestId : String) (last : Option Event) (oracle : Oracle BookError)
  (session : Session Books)

def BookedCancelled : Prop := Undisturbed oracle session.moment (2 + finishes p) ∧
  Accepted p (finishing requestId "cancelled" (oracle session.moment).time (extractSubprocessPid last)
    (some "Command cancelled") (some "provider_cancelled")) session.data

def BookedFailed (unicode : Text.Unicode) (error : ProviderError) : Prop :=
  let status := extractStatus last .error
  let reason := classifyProviderFailure unicode error (some status) (extractRawText last)
  Undisturbed oracle session.moment (2 + (if shouldPersistAdmissionBackoff reason then 1 else 0) + finishes p) ∧
    Accepted p (finishing requestId (statusText status) (oracle session.moment).time (extractSubprocessPid last)
      (some reason.errorText) (some reason.reasonCode)) session.data

def BookedResponse (encoding : Encoding ρ) (response : ρ) : Prop :=
  Undisturbed oracle session.moment (3 + finishes p) ∧ Dumps encoding last response ∧ Parses encoding response ∧
    Accepted p (finishing requestId (statusText (extractStatus last .success)) (oracle (session.moment + 1)).time
      (extractSubprocessPid last) none none) session.data

def BookedResult (encoding : Encoding ρ) (result : AgenticRunResult ρ) : Prop :=
  Undisturbed oracle session.moment (3 + finishes p) ∧ (∀ parsed, result.parsed = some parsed → Parses encoding parsed) ∧
    Accepted p (finishing requestId (statusText (extractStatus last result.status)) (oracle (session.moment + 1)).time
      (extractSubprocessPid last) (if result.status = .success then none else result.summary)
      (if result.status = .success then none else some "agent_run_unsuccessful")) session.data

/- What the wrapper books after the provider's call can be booked. -/
def Booked (unicode : Text.Unicode) (encoding : Encoding ρ) : (shape : Shape) → Ending (Reply ρ shape) → Prop
  | .json,.returned response => BookedResponse p requestId last oracle session encoding response
  | .agent,.returned result => BookedResult p requestId last oracle session encoding result
  | .json,.raised error | .agent,.raised error => BookedFailed p requestId last oracle session unicode error
  | .json,.cancelled | .agent,.cancelled => BookedCancelled p requestId last oracle session
  | .session,_ => Undisturbed oracle session.moment 1

end

/- A provider that goes on after a failed observer as after any other. -/
def Call.Steady : Call ρ → Prop
  | .notifies _ next => (∀ reply, (next reply).alone = (next none).alone) ∧ ∀ reply, (next reply).Steady
  | _ => True

/- A program that ends without an exception. -/
def Ends {α : Type} (x : Booking α) (oracle : Oracle BookError) (session : Session Books) : Prop :=
  ∃ a, (x oracle session).1 = .ok a

section
variable {p : InstrumentedAIProvider} {requestId : String} {last : Option Event} {oracle : Oracle BookError}
  {session : Session Books} {α : Type} {books : Books} {moment : Nat}

theorem undisturbedZero : Undisturbed oracle moment 0 ↔ True := by simp [Undisturbed]

theorem undisturbedSucc {n : Nat} :
    Undisturbed oracle moment (n + 1) ↔ (oracle moment).fault = none ∧ Undisturbed oracle (moment + 1) n := by
  constructor
  · intro calm
    refine ⟨calm 0 (by omega),fun k bound => ?_⟩
    have here := calm (k + 1) (by omega)
    rwa [show moment + (k + 1) = moment + 1 + k by omega] at here
  · rintro ⟨here,calm⟩ k bound
    cases k with
    | zero => exact here
    | succ k => rw [show moment + (k + 1) = moment + 1 + k by omega]; exact calm k (by omega)

theorem endsPure (a : α) : Ends (pure a) oracle session ↔ True := iff_true_intro ⟨a,rfl⟩

theorem endsClock {next : Int → Booking α} : Ends (clock >>= next) oracle session ↔
    Ends (next (oracle session.moment).time) oracle session := Iff.rfl

theorem endsWrite {effect : Books → Books} {next : Unit → Booking α} :
    Ends (write effect >>= next) oracle ⟨books,moment⟩ ↔
      (oracle moment).fault = none ∧ Ends (next ()) oracle ⟨effect books,moment + 1⟩ := by
  unfold Ends
  rw [bindRuns]
  unfold write statement
  dsimp only
  cases (oracle moment).fault <;> simp

theorem endsWritten {effect : Books → Books} : Ends (write effect) oracle ⟨books,moment⟩ ↔ (oracle moment).fault = none := by
  unfold Ends write statement
  dsimp only
  cases (oracle moment).fault <;> simp

theorem endsAfter {β : Type} {x : Booking β} {next : β → Booking α} {b after} (done : x oracle session = (.ok b,after)) :
    Ends (x >>= next) oracle session ↔ Ends (next b) oracle after := by
  unfold Ends
  rw [bindRuns,done]

theorem endsNever {β : Type} {x : Booking β} {next : β → Booking α} {error after}
    (failed : x oracle session = (.error error,after)) : ¬ Ends (x >>= next) oracle session := by
  unfold Ends
  rw [bindRuns,failed]
  simp

theorem endsTracked {operation : Tracking → Operation} : Ends (tracked p operation) oracle ⟨books,moment⟩ ↔
    Undisturbed oracle moment (finishes p) ∧ Accepted p operation books := by
  unfold Ends tracked finishes Accepted
  cases p.tracking with
  | none => simp [pure,undisturbedZero]
  | some tracking =>
    simp only [Option.isSome_some,if_true,Option.some.injEq,forall_eq',undisturbedSucc,undisturbedZero,and_true,inAttempts,
      statement]
    cases (oracle moment).fault with
    | some error => simp
    | none =>
      simp only [true_and]
      rcases tracking.store (operation tracking) books.attempts with ⟨error | row,attempts⟩ <;> simp

theorem endsThen {β : Type} {x : Booking β} {next : β → Booking α} (rest : ∀ b after, Ends (next b) oracle after) :
    Ends (x >>= next) oracle session ↔ Ends x oracle session := by
  unfold Ends at *
  rw [bindRuns]
  rcases x oracle session with ⟨error | b,after⟩
  · simp
  · simp only [Except.ok.injEq,exists_eq',iff_true]
    exact rest b after

theorem responseTextRuns (encoding : Encoding ρ) (response : ρ) : ∀ after,
    (Dumps encoding last response ∧ ∃ text, responseText encoding last response oracle after = (.ok text,after)) ∨
    ¬ Dumps encoding last response ∧ ∃ error after', responseText encoding last response oracle after = (.error error,after') := by
  intro after
  unfold Dumps responseText dumpsText
  cases (extractRawText last).filter (· != "") with
  | some text => exact .inl ⟨by simp,text,rfl⟩
  | none =>
    cases encoding.dumps response with
    | some text => exact .inl ⟨by simp,text,rfl⟩
    | none => exact .inr ⟨by simp,_,_,rfl⟩

theorem encodeParsedRuns (encoding : Encoding ρ) (parsed : ρ) :
    (Parses encoding parsed ∧ ∃ b, encodeParsed encoding parsed oracle session = (.ok b,session)) ∨
    ¬ Parses encoding parsed ∧ ∃ error after, encodeParsed encoding parsed oracle session = (.error error,after) := by
  unfold Parses encodeParsed
  cases none_ : encoding.isNone parsed with
  | true => exact .inl ⟨by simp,(),rfl⟩
  | false =>
    cases mapping : encoding.isMapping parsed with
    | false => exact .inr ⟨by simp,_,_,rfl⟩
    | true =>
      unfold dumpsText
      cases encoding.dumps parsed with
      | some text => exact .inl ⟨by simp,(),rfl⟩
      | none => exact .inr ⟨by simp,_,_,rfl⟩

theorem endsCancelled : Ends (bookCancelled p requestId last) oracle session ↔
    BookedCancelled p requestId last oracle session := by
  unfold bookCancelled BookedCancelled
  rw [endsClock,recordCall,endsWrite,finalizeRunningConversation,endsWrite,finishAttempt,endsTracked,
    show 2 + finishes p = finishes p + 1 + 1 by omega,undisturbedSucc,undisturbedSucc]
  simp only [and_assoc]
  rfl

theorem endsFailed {unicode : Text.Unicode} {error : ProviderError} : Ends (bookFailed p unicode requestId error last) oracle session ↔
    BookedFailed p requestId last oracle session unicode error := by
  unfold bookFailed BookedFailed
  rw [endsClock]
  dsimp only
  rw [recordCall,endsWrite,finalizeRunningConversation,endsWrite,persistBackoff]
  cases shouldPersistAdmissionBackoff (classifyProviderFailure unicode error (some (extractStatus last .error))
    (extractRawText last)) with
  | true =>
    rw [if_pos rfl,if_pos rfl,upsertAdmissionState,endsWrite,finishAttempt,endsTracked,
      show 2 + 1 + finishes p = finishes p + 1 + 1 + 1 by omega,undisturbedSucc,undisturbedSucc,undisturbedSucc]
    simp only [and_assoc]
    rfl
  | false =>
    rw [if_neg Bool.false_ne_true,if_neg Bool.false_ne_true,
      show 2 + 0 + finishes p = finishes p + 1 + 1 by omega,undisturbedSucc,undisturbedSucc]
    simp only [and_assoc]
    exact and_congr_right fun _ => and_congr_right fun _ => endsTracked

theorem endsResponse {encoding : Encoding ρ} {response : ρ} :
    Ends (bookResponse p encoding requestId response last) oracle session ↔
      BookedResponse p requestId last oracle session encoding response := by
  obtain ⟨books,moment⟩ := session
  unfold bookResponse BookedResponse
  rw [clearAdmissionState,endsWrite,endsClock,show 3 + finishes p = finishes p + 1 + 1 + 1 by omega,undisturbedSucc,and_assoc]
  refine and_congr_right fun _ => ?_
  have text := fun after => @responseTextRuns _ last oracle encoding response after
  by_cases dumps : Dumps encoding last response
  · have reads : ∀ after, ∃ text, responseText encoding last response oracle after = (.ok text,after) :=
      fun after => ((text after).resolve_right fun failed => failed.1 dumps).2
    obtain ⟨_,first⟩ := reads _
    rw [endsAfter first]
    rcases encodeParsedRuns encoding response with ⟨parses,_,encoded⟩ | ⟨fails,_,_,failed⟩
    · rw [endsAfter encoded,finalizeRunningConversation,endsWrite,recordCall,endsWrite,endsThen]
      · rw [finishAttempt,endsTracked,undisturbedSucc,undisturbedSucc]
        simp only [dumps,parses,true_and,and_assoc]
        rfl
      · intro _ after
        obtain ⟨_,last⟩ := reads after
        rw [endsAfter last]
        exact (endsPure ()).mpr trivial
    · exact iff_of_false (endsNever failed) fun booked => fails booked.2.2.1
  · obtain ⟨_,_,failed⟩ := ((text _).resolve_left fun done => dumps done.1).2
    exact iff_of_false (endsNever failed) fun booked => dumps booked.2.1

theorem encodeResultRuns (encoding : Encoding ρ) (parsed : Option ρ) :
    ((∀ value, parsed = some value → Parses encoding value) ∧
      ∃ b, encodeResult encoding parsed oracle session = (.ok b,session)) ∨
    ¬ (∀ value, parsed = some value → Parses encoding value) ∧
      ∃ error after, encodeResult encoding parsed oracle session = (.error error,after) := by
  cases parsed with
  | none => exact .inl ⟨by simp,(),rfl⟩
  | some value => simpa [encodeResult] using encodeParsedRuns encoding value

theorem endsResult {encoding : Encoding ρ} {result : AgenticRunResult ρ} :
    Ends (bookResult p encoding requestId result last) oracle session ↔
      BookedResult p requestId last oracle session encoding result := by
  obtain ⟨books,moment⟩ := session
  unfold bookResult BookedResult
  rw [clearAdmissionState,endsWrite,endsClock,show 3 + finishes p = finishes p + 1 + 1 + 1 by omega,undisturbedSucc,and_assoc]
  refine and_congr_right fun _ => ?_
  dsimp only
  rcases encodeResultRuns encoding result.parsed with ⟨parses,_,encoded⟩ | ⟨fails,_,_,failed⟩
  · rw [endsAfter encoded,finalizeRunningConversation,endsWrite,recordCall,endsWrite,finishAttempt,endsTracked,
      undisturbedSucc,undisturbedSucc]
    have all : (∀ value, result.parsed = some value → Parses encoding value) ↔ True := iff_true_intro parses
    simp only [all,true_and,and_assoc]
    rfl
  · exact iff_of_false (endsNever failed) fun booked => fails booked.2.1

theorem endsSession {ending : Ending (AgenticRunResult ρ)} :
    Ends (settleSession p ending) oracle session ↔ Undisturbed oracle session.moment 1 := by
  have one (status : CallStatus) : Ends (clock >>= fun now => recordCall p (.ended status) now) oracle session ↔
      Undisturbed oracle session.moment 1 := by
    rw [endsClock,recordCall,endsWritten,undisturbedSucc]
    simp [undisturbedZero]
  cases ending with
  | returned result => exact one result.status
  | raised error => exact one .error
  | cancelled => exact one .cancelled

theorem endsSettled {unicode : Text.Unicode} {encoding : Encoding ρ} {shape : Shape} {ending : Ending (Reply ρ shape)} :
    Ends (settleShape p unicode encoding requestId shape last ending) oracle session ↔
      Booked p requestId last oracle session unicode encoding shape ending := by
  cases shape with
  | json =>
    cases ending with
    | returned response => exact endsResponse
    | raised error => exact endsFailed
    | cancelled => exact endsCancelled
  | agent =>
    cases ending with
    | returned result => exact endsResult
    | raised error => exact endsFailed
    | cancelled => exact endsCancelled
  | session => exact endsSession

end

theorem observedSteady {observer : Event → Booking Unit} {oracle : Oracle BookError} {call : Call ρ} (steady : call.Steady)
    (last : Option Event) (session : Session Books) : (call.observed observer oracle last session).1.1 = call.alone := by
  induction call generalizing last session with
  | returns response => rfl
  | raises error => rfl
  | cancelled => rfl
  | notifies event next ih =>
    unfold Call.observed Call.alone
    rcases observer event oracle session with ⟨error | _,after⟩
    · exact (ih (some error) (steady.2 _) _ _).trans (steady.1 _)
    · exact ih none (steady.2 _) _ _

theorem conductExact {settle : Option Event → Ending ρ → Booking Unit} {observer : Event → Booking Unit} {call : Call ρ}
    {oracle : Oracle BookError} {session : Session Books} :
    (conduct settle observer call oracle session).1 = (call.observed observer oracle none session).1.1.outcome ↔
      Ends (settle (call.observed observer oracle none session).1.2 (call.observed observer oracle none session).1.1) oracle
        (call.observed observer oracle none session).2 := by
  unfold conduct Ends
  dsimp only
  generalize (call.observed observer oracle none session).1.1 = ending
  rcases settle _ ending oracle _ with ⟨error | _,after⟩
  · cases ending <;> simp [Ending.outcome]
  · simp

/- An admitted call ends as the provider's call did just where it can be booked; and the provider's
call ends as it would unobserved where the provider goes on after a failed observer. -/
theorem instrumentedExact (p : InstrumentedAIProvider) (unicode : Text.Unicode) (encoding : Encoding ρ) (shape : Shape)
    (call : Call (Reply ρ shape)) (oracle : Oracle BookError) (session after : Session Books)
    (allowed : p.blockTestExecution = false)
    (admitted : enforceRateLimits p oracle ⟨session.data,session.moment + 1⟩ = (.ok none,after)) :
    let ran := call.observed (handleObserverEvent p (oracle session.moment).uuid) oracle none after
    ((instrumented p unicode encoding shape call oracle session).1 = ran.1.1.outcome ↔
      Booked p (oracle session.moment).uuid ran.1.2 oracle ran.2 unicode encoding shape ran.1.1) ∧
    (call.Steady → ran.1.1 = call.alone) := by
  refine ⟨?_,fun steady => observedSteady steady _ _⟩
  have conducted : instrumented p unicode encoding shape call oracle session =
      conduct (settleShape p unicode encoding (oracle session.moment).uuid shape)
        (handleObserverEvent p (oracle session.moment).uuid) call oracle after := by
    unfold instrumented
    simp only [allowed,Bool.false_eq_true,if_false,admitted]
  rw [conducted,conductExact]
  exact endsSettled

/- With the SQLite repository: the row of the attempt is there, and its ids can be bound. -/
theorem sqliteAccepted {p : InstrumentedAIProvider} (sqlite : p.store = some Sqlite.perform) {requestId status : String}
    {completedAt : Int} {subprocessPid : Option Int} {errorText terminationReason : Option String} {books : Books} :
    Accepted p (finishing requestId status completedAt subprocessPid errorText terminationReason) books ↔
      ∀ taskId executionEpoch, p.taskId = some taskId → p.executionEpoch = some executionEpoch →
        Sqlite.bindsCall executionEpoch subprocessPid ∧ books.attempts.countP (isAttempt taskId executionEpoch) = 1 := by
  have finished (f : Finish) : (∃ row, (Sqlite.perform (.finish f) books.attempts).1 = .ok row) ↔
      Sqlite.bindsCall f.executionEpoch f.subprocessPid ∧
        books.attempts.countP (isAttempt f.taskId f.executionEpoch) = 1 := by
    show (∃ row, (Sqlite.change f.taskId f.executionEpoch f.subprocessPid (Sqlite.finish f) books.attempts).1 = .ok row) ↔ _
    unfold Sqlite.change
    cases Sqlite.bindsCall f.executionEpoch f.subprocessPid with
    | false => simp
    | true =>
      simp only [if_true,true_and]
      by_cases one : books.attempts.countP (isAttempt f.taskId f.executionEpoch) = 1
      · have some_ : 0 < books.attempts.countP (isAttempt f.taskId f.executionEpoch) := by omega
        obtain ⟨row,member,here⟩ := List.countP_pos_iff.mp some_
        cases found : books.attempts.find? (isAttempt f.taskId f.executionEpoch) with
        | none => exact absurd (Table.findNone found row member) (by simp [here])
        | some first =>
          have still := @Table.findReplaced _ (isAttempt f.taskId f.executionEpoch) (Sqlite.finish f) _ _
            (fun _ here => here) found
          simp [one,getAttempt,still]
      · simp [one]
  unfold Accepted InstrumentedAIProvider.tracking
  rw [sqlite]
  cases p.taskId with
  | none => simp
  | some taskId =>
    cases p.executionEpoch with
    | none => simp
    | some executionEpoch => simpa [finishing] using finished _

/- A provider for a task, with the attempts in SQLite. -/
def copilot : InstrumentedAIProvider :=
  ⟨⟨none,"copilot",false,"model",none,none,none⟩,"Copilot",none,some "task",some 1,some Sqlite.perform,false,false⟩

def noBooks : Books := ⟨⟨0,[],[]⟩,[],[]⟩

def plainText : Encoding String := ⟨some,fun _ => false,fun _ => true⟩

def calm : Oracle BookError := fun _ => ⟨none,"request","",0⟩

/- A provider without an observer: the attempt that is to be finished was never begun. -/
theorem responseReplaced : (instrumented copilot Text.ascii plainText .json (.returns "answer") calm ⟨noBooks,0⟩).1 =
      .error (.bookkeeping (.attempt (.valueError "Task execution attempt task@1 was not found"))) ∧
    (Call.returns "answer").alone = .returned "answer" ∧
    ¬ ∀ (p : InstrumentedAIProvider) (unicode : Text.Unicode) (encoding : Encoding String) (call : Call String) oracle session
      after, p.blockTestExecution = false →
      enforceRateLimits p oracle ⟨session.data,session.moment + 1⟩ = (.ok none,after) → call.Steady →
      (instrumented p unicode encoding .json call oracle session).1 = call.alone.outcome := by
  have replaced : (instrumented copilot Text.ascii plainText .json (.returns "answer") calm ⟨noBooks,0⟩).1 =
      .error (.bookkeeping (.attempt (.valueError "Task execution attempt task@1 was not found"))) := rfl
  refine ⟨replaced,rfl,fun transparent => ?_⟩
  have kept := transparent copilot Text.ascii plainText (.returns "answer") calm ⟨noBooks,0⟩ _ rfl rfl trivial
  rw [replaced] at kept
  cases kept

/- A provider that tells of its start. -/
def observed : Call String := .notifies ⟨1,none,.started 0⟩ fun _ => .returns "answer"

theorem instrumentedSample :
    (instrumented copilot Text.ascii plainText .json observed calm ⟨noBooks,0⟩).1 = .ok "answer" := by
  have parses : Parses plainText "answer" := .inr ⟨rfl,fun absent => by cases absent⟩
  have steps := instrumentedExact copilot Text.ascii plainText .json observed calm ⟨noBooks,0⟩ _ rfl rfl
  exact steps.1.mpr ⟨fun _ _ => rfl,fun _ absent => (by cases absent),parses,sqliteAccepted rfl |>.mpr fun _ _ task epoch => by
    cases task
    cases epoch
    exact ⟨rfl,rfl⟩⟩

end McpMemory.Instrumented
