import McpMemory.Curation.Metadata

/-! `toolkit/bounded_tool_loop.py`: rounds of a provider that asks for tools. The provider, the
dispatch and the observer are given from outside, may raise and may answer by anything that came before;
`dumps` is `json.dumps` with sorted keys and the small separators. The bounds are numbers of rounds
and of calls, so not negative. -/
namespace McpMemory.Toolkit
open Values
open Curation.Support (strip)

structure ToolSpec where
  name : Str
  requiredFields : List Str

structure ToolCall where
  name : Str
  arguments : Dict

def key (name : String) : Key := .text (ofText name)

def ToolCall.value (call : ToolCall) : Value := .dict [(key "name",.str call.name),(key "arguments",.dict call.arguments)]

structure ToolResult where
  call : ToolCall
  result : Dict

def ToolResult.value (answer : ToolResult) : Value :=
  .dict [(key "name",.str answer.call.name),(key "arguments",.dict answer.call.arguments),(key "result",.dict answer.result)]

structure BoundedToolLoopResult where
  response : Dict
  toolCallsExecuted : Nat
  successfulToolCalls : Nat
  toolNamesUsed : List Str
  transcriptRounds : Nat

/- What the loop is given. `σ` is all that the provider, the dispatch and the observer know, `ε` is
what they raise. -/
structure Surroundings (σ ε : Type) where
  ask : Str → σ → Except ε Value × σ
  dispatch : Str → Dict → σ → Except ε Dict × σ
  onToolCallResult : ToolCall → Dict → σ → Except ε Unit × σ
  unsupportedNoToolResponseError : Option (Dict → Nat → Except ε (Option Str))
  dumps : Value → Except ε Str
  valueError : String → ε
  prompt : Str
  allowedTools : List (Str × ToolSpec)
  maxRounds : Nat
  maxToolCallsPerRound : Nat

def toolCall : Value → Option ToolCall
  | .dict item => match get item "name",(get item "arguments").getD (.dict []) with
    | some (.str name),.dict arguments => if (strip name).isEmpty then none else some ⟨strip name,arguments⟩
    | _,_ => none
  | _ => none

def normalizeToolCalls : Option Value → List ToolCall
  | some (.list items) => items.filterMap toolCall
  | _ => []

/- `isinstance(actions_taken, int)`, which a `bool` is and a float is not. -/
def reportedPositiveActionsTaken (response : Dict) : Bool := match get response "actions_taken" with
  | some (.int count) => 0 < count
  | some (.bool claimed) => claimed
  | _ => false

def noToolClaim : String := "Do not claim positive actions without first issuing tool_calls. " ++
  "If no tools were used, return actions_taken=0 and a no-op summary."

def defaultUnsupportedNoToolResponseError (response : Dict) (executedCalls : Nat) : Option Str :=
  if 0 < executedCalls then none
  else if reportedPositiveActionsTaken response then some (ofText noToolClaim)
  else none

/- The variables of the loop, and what is outside of it. -/
structure Loop (σ : Type) where
  world : σ
  transcript : List Value
  executedCalls : Nat
  successfulCalls : Nat
  toolNamesUsed : List Str
  lastInvalidPositiveResponse : Option Dict

/- History: what the provider said in a round, nothing where it raised, and the calls that were
dispatched, the last one also where it raised. -/
structure Round where
  reply : Option Value
  dispatched : List ToolCall

section
variable {σ ε : Type} (given : Surroundings σ ε)

def isAllowed (name : Str) : Bool := given.allowedTools.any (·.1 == name)

def toolSpecs : Value := .list (given.allowedTools.map fun entry =>
  .dict [(key "name",.str entry.2.name),(key "required_fields",.list (entry.2.requiredFields.map .str))])

def buildPrompt (transcript : List Value) : Except ε Str := do
  let specs ← given.dumps (toolSpecs given)
  let parts := [strip given.prompt,ofText "Available internal tools:",specs,
    ofText "Return `tool_calls` JSON or final JSON.",
    ofText ("Never claim positive actions without prior `tool_calls`; " ++
      "otherwise return `actions_taken: 0` and a no-op summary.")]
  if transcript.isEmpty then return [10,10].intercalate parts
  else
    let told ← given.dumps (.list transcript)
    return [10,10].intercalate (parts ++ [ofText "Previous tool interaction transcript:",told])

def notAllowed : Dict := [(key "status",.str (ofText "error")),(key "error",.str (ofText "tool_not_allowed"))]

def succeeded (result : Dict) : Bool := match get result "status" with
  | some (.str status) => status == ofText "ok"
  | _ => false

def counted (loop : Loop σ) (call : ToolCall) (result : Dict) (world : σ) : Loop σ := { loop with
  world
  executedCalls := loop.executedCalls + 1
  successfulCalls := loop.successfulCalls + if succeeded result then 1 else 0
  toolNamesUsed := loop.toolNamesUsed ++ [call.name] }

/- The calls of one round, with those that were dispatched. -/
def callTools : List ToolCall → Loop σ → Except ε (List ToolResult) × Loop σ × List ToolCall
  | [],loop => (.ok [],loop,[])
  | call::rest,loop =>
    if !isAllowed given call.name then
      let (results,after,dispatched) := callTools rest loop
      (results.map (⟨call,notAllowed⟩ :: ·),after,dispatched)
    else match given.dispatch call.name call.arguments loop.world with
      | (.error error,world) => (.error error,{ loop with world },[call])
      | (.ok result,world) => match given.onToolCallResult call result world with
        | (.error error,world) => (.error error,counted loop call result world,[call])
        | (.ok (),world) =>
          let (results,after,dispatched) := callTools rest (counted loop call result world)
          (results.map (⟨call,result⟩ :: ·),after,call::dispatched)

def resultOf (loop : Loop σ) (response : Dict) : BoundedToolLoopResult :=
  ⟨response,loop.executedCalls,loop.successfulCalls,loop.toolNamesUsed,loop.transcript.length⟩

def exhausted (loop : Loop σ) : BoundedToolLoopResult := match loop.lastInvalidPositiveResponse with
  | some response => if loop.executedCalls = 0 then resultOf loop response else resultOf loop (outOfRounds loop)
  | none => resultOf loop (outOfRounds loop)
where
  outOfRounds (loop : Loop σ) : Dict := [(key "status",.str (ofText "error")),(key "error",.str (ofText "tool_loop_exhausted")),
    (key "transcript_rounds",.int loop.transcript.length)]

def validationError (response : Dict) (executedCalls : Nat) : Except ε (Option Str) :=
  match defaultUnsupportedNoToolResponseError response executedCalls,given.unsupportedNoToolResponseError with
  | some error,_ => .ok (some error)
  | none,some check => check response executedCalls
  | none,none => .ok none

def refused (loop : Loop σ) (response : Dict) (error : Str) : Loop σ := { loop with
  transcript := loop.transcript ++ [.dict [(key "validation_error",.str error),(key "invalid_response",.dict response)]]
  lastInvalidPositiveResponse := some response }

def told (loop : Loop σ) (calls : List ToolCall) (results : List ToolResult) : Loop σ := { loop with
  transcript := loop.transcript ++ [.dict [(key "tool_calls",.list (calls.map (·.value))),
    (key "tool_results",.list (results.map (·.value)))]] }

/- What one round comes to: the loop goes on, or it is over. -/
def answered (loop : Loop σ) (response : Dict) : (Except ε BoundedToolLoopResult ⊕ Loop σ) × List ToolCall :=
  let toolCalls := normalizeToolCalls (get response "tool_calls")
  if toolCalls.isEmpty then match validationError given response loop.executedCalls with
    | .error error => (.inl (.error error),[])
    | .ok (some error) => (.inr (refused loop response error),[])
    | .ok none => (.inl (.ok (resultOf loop response)),[])
  else
    let roundCalls := toolCalls.take given.maxToolCallsPerRound
    match callTools given roundCalls loop with
    | (.error error,_,dispatched) => (.inl (.error error),dispatched)
    | (.ok results,after,dispatched) => (.inr (told after roundCalls results),dispatched)

def runRounds : Nat → Loop σ → List Round → Except ε BoundedToolLoopResult × List Round
  | 0,loop,log => (.ok (exhausted loop),log)
  | rounds + 1,loop,log => match buildPrompt given loop.transcript with
    | .error error => (.error error,log)
    | .ok prompt => match given.ask prompt loop.world with
      | (.error error,_) => (.error error,log ++ [⟨none,[]⟩])
      | (.ok (.dict response),world) => match answered given { loop with world } response with
        | (.inl outcome,dispatched) => (outcome,log ++ [⟨some (.dict response),dispatched⟩])
        | (.inr after,dispatched) => runRounds rounds after (log ++ [⟨some (.dict response),dispatched⟩])
      | (.ok other,_) => (.error (given.valueError "provider returned invalid response"),log ++ [⟨some other,[]⟩])

def runBoundedToolLoop (world : σ) : Except ε BoundedToolLoopResult × List Round :=
  runRounds given given.maxRounds ⟨world,[],0,0,[],none⟩ []

/- What holds of every end, and of the log also where something was raised. -/

def callsOf : Option Value → List ToolCall
  | some (.dict response) => normalizeToolCalls (get response "tool_calls")
  | _ => []

/- The calls that the round may make, in the order in which they were asked for. -/
def offered (round : Round) : List ToolCall :=
  ((callsOf round.reply).take given.maxToolCallsPerRound).filter (isAllowed given ·.name)

structure Bounded (outcome : Except ε BoundedToolLoopResult) (log : List Round) : Prop where
  asked : log.length ≤ given.maxRounds
  allowed : ∀ round ∈ log, ∀ call ∈ round.dispatched, isAllowed given call.name = true
  capped : ∀ round ∈ log, round.dispatched.length ≤ given.maxToolCallsPerRound
  ordered : ∀ round ∈ log, round.dispatched <+: offered given round
  counted : ∀ result, outcome = .ok result → result.toolCallsExecuted = (log.flatMap (·.dispatched)).length ∧
    result.toolNamesUsed = (log.flatMap (·.dispatched)).map (·.name)

/- A response without tool calls that the provider gave. -/
def Said (log : List Round) (response : Dict) : Prop :=
  ∃ round ∈ log, round.reply = some (.dict response) ∧ normalizeToolCalls (get response "tool_calls") = []

structure LoopLaw (outcome : Except ε BoundedToolLoopResult) (log : List Round) : Prop where
  bounded : Bounded given outcome log
  claimed : ∀ result, outcome = .ok result → result.toolCallsExecuted = 0 →
    reportedPositiveActionsTaken result.response = true → log.length = given.maxRounds ∧ Said log result.response

/- The variables as the log has them. -/
structure Kept (loop : Loop σ) (log : List Round) : Prop where
  executed : loop.executedCalls = (log.flatMap (·.dispatched)).length
  used : loop.toolNamesUsed = (log.flatMap (·.dispatched)).map (·.name)
  ordered : ∀ round ∈ log, round.dispatched <+: offered given round
  invalid : ∀ response ∈ loop.lastInvalidPositiveResponse, Said log response

theorem loggedBounded {outcome : Except ε BoundedToolLoopResult} {log : List Round} (asked : log.length ≤ given.maxRounds)
    (ordered : ∀ round ∈ log, round.dispatched <+: offered given round)
    (counted : ∀ result, outcome = .ok result → result.toolCallsExecuted = (log.flatMap (·.dispatched)).length ∧
      result.toolNamesUsed = (log.flatMap (·.dispatched)).map (·.name)) : Bounded given outcome log := by
  refine ⟨asked,fun round member call dispatched => ?_,fun round member => ?_,ordered,counted⟩
  · exact (List.mem_filter.mp ((ordered round member).subset dispatched)).2
  · have short := (ordered round member).length_le
    have taken := List.length_filter_le (isAllowed given ·.name) ((callsOf round.reply).take given.maxToolCallsPerRound)
    exact short.trans (taken.trans (List.length_take_le _ _))

theorem raisedLaw {error : ε} {log : List Round} (asked : log.length ≤ given.maxRounds)
    (ordered : ∀ round ∈ log, round.dispatched <+: offered given round) : LoopLaw given (.error error) log :=
  ⟨loggedBounded given asked ordered nofun,nofun⟩

theorem callToolsSource (calls : List ToolCall) (loop : Loop σ) :
    (callTools given calls loop).2.2 <+: calls.filter (isAllowed given ·.name) ∧
    ∀ results, (callTools given calls loop).1 = .ok results →
      (callTools given calls loop).2.1.executedCalls = loop.executedCalls + (callTools given calls loop).2.2.length ∧
      (callTools given calls loop).2.1.toolNamesUsed = loop.toolNamesUsed ++ (callTools given calls loop).2.2.map (·.name) ∧
      (callTools given calls loop).2.1.lastInvalidPositiveResponse = loop.lastInvalidPositiveResponse := by
  induction calls generalizing loop with
  | nil => simp [callTools]
  | cons call rest ih =>
    unfold callTools
    cases allowed : isAllowed given call.name with
    | false =>
      obtain ⟨ordered,counts⟩ := ih loop
      rw [if_pos (by simp),List.filter_cons_of_neg (by simp [allowed])]
      refine ⟨ordered,fun results done => ?_⟩
      cases later : (callTools given rest loop).1 with
      | error error => simp [later,Except.map] at done
      | ok answers => exact counts answers later
    | true =>
      rw [if_neg (by simp),List.filter_cons_of_pos (by simp [allowed])]
      have one : [call] <+: call :: rest.filter (isAllowed given ·.name) := ⟨_,rfl⟩
      split
      · exact ⟨one,nofun⟩
      · rename_i result world _
        split
        · exact ⟨one,nofun⟩
        · rename_i world _
          obtain ⟨ordered,counts⟩ := ih (counted loop call result world)
          refine ⟨List.cons_prefix_cons.mpr ⟨rfl,ordered⟩,fun results done => ?_⟩
          cases later : (callTools given rest (counted loop call result world)).1 with
          | error error => simp [later,Except.map] at done
          | ok answers =>
            obtain ⟨executed,used,invalid⟩ := counts answers later
            refine ⟨executed.trans ?_,used.trans ?_,invalid⟩
            · rw [List.length_cons,Nat.add_comm _ 1,← Nat.add_assoc]
              rfl
            · rw [List.map_cons,← List.singleton_append,← List.append_assoc]
              rfl

/- What the end of a round, or the loop after it, has of the loop before. -/
structure Answer (loop : Loop σ) (response : Dict) (next : Except ε BoundedToolLoopResult ⊕ Loop σ)
    (dispatched : List ToolCall) : Prop where
  ordered : dispatched <+: offered given ⟨some (.dict response),dispatched⟩
  accepted : ∀ result, next = .inl (.ok result) → dispatched = [] ∧ result = resultOf loop response ∧
    (loop.executedCalls = 0 → reportedPositiveActionsTaken response = false)
  goes : ∀ after, next = .inr after → after.executedCalls = loop.executedCalls + dispatched.length ∧
    after.toolNamesUsed = loop.toolNamesUsed ++ dispatched.map (·.name) ∧
    ∀ said ∈ after.lastInvalidPositiveResponse, said ∈ loop.lastInvalidPositiveResponse ∨
      said = response ∧ normalizeToolCalls (get response "tool_calls") = []

theorem validatedUnclaimed {response : Dict} {executedCalls : Nat}
    (passed : validationError given response executedCalls = .ok none) (unused : executedCalls = 0) :
    reportedPositiveActionsTaken response = false := by
  cases claims : reportedPositiveActionsTaken response with
  | false => rfl
  | true => simp [validationError,defaultUnsupportedNoToolResponseError,unused,claims] at passed

theorem answerSource (loop : Loop σ) (response : Dict) :
    Answer given loop response (answered given loop response).1 (answered given loop response).2 := by
  unfold answered
  dsimp only
  split
  · rename_i empty
    rw [List.isEmpty_iff] at empty
    split
    · exact ⟨List.nil_prefix,nofun,nofun⟩
    · rename_i error _
      refine ⟨List.nil_prefix,nofun,fun after same => ?_⟩
      cases same
      exact ⟨rfl,by simp [refused],fun said member => .inr ⟨(Option.mem_some_iff.mp member).symm,empty⟩⟩
    · rename_i passed
      refine ⟨List.nil_prefix,fun result same => ?_,nofun⟩
      cases same
      exact ⟨rfl,rfl,validatedUnclaimed given passed⟩
  · have source := callToolsSource given ((normalizeToolCalls (get response "tool_calls")).take given.maxToolCallsPerRound) loop
    obtain ⟨ordered,counts⟩ := source
    split
    · rename_i called
      rw [called] at ordered
      exact ⟨ordered,nofun,nofun⟩
    · rename_i results after dispatched called
      rw [called] at ordered counts
      obtain ⟨executed,used,invalid⟩ := counts results rfl
      refine ⟨ordered,nofun,fun next same => ?_⟩
      cases same
      exact ⟨executed,used,fun said member => .inl (invalid ▸ member)⟩

theorem keptNext {loop after : Loop σ} {log : List Round} {response : Dict} {dispatched : List ToolCall} {world : σ}
    (kept : Kept given loop log) (answer : Answer given { loop with world } response (.inr after) dispatched) :
    Kept given after (log ++ [⟨some (.dict response),dispatched⟩]) := by
  obtain ⟨executed,used,invalid⟩ := answer.goes after rfl
  refine ⟨?_,?_,fun round member => ?_,fun said member => ?_⟩
  · simp [executed,kept.executed]
  · simp [used,kept.used]
  · rcases List.mem_append.mp member with before | last
    · exact kept.ordered round before
    · rw [List.mem_singleton.mp last]
      exact answer.ordered
  · rcases invalid said member with before | ⟨rfl,empty⟩
    · obtain ⟨round,there,source⟩ := kept.invalid said before
      exact ⟨round,List.mem_append_left _ there,source⟩
    · exact ⟨_,List.mem_append_right _ (List.mem_singleton.mpr rfl),rfl,empty⟩

theorem exhaustedLaw {loop : Loop σ} {log : List Round} (kept : Kept given loop log) (all : log.length = given.maxRounds) :
    LoopLaw given (.ok (exhausted loop)) log := by
  have unclaimed : reportedPositiveActionsTaken (exhausted.outOfRounds loop) = false := rfl
  refine ⟨loggedBounded given all.le kept.ordered fun result same => ?_,fun result same none claims => ?_⟩
  · cases same
    unfold exhausted
    split
    · split <;> exact ⟨kept.executed,kept.used⟩
    · exact ⟨kept.executed,kept.used⟩
  · cases same
    refine ⟨all,?_⟩
    unfold exhausted at claims ⊢
    split at claims
    · rename_i response last
      split at claims
      · rename_i unused
        rw [if_pos unused]
        exact kept.invalid response last
      · exact absurd claims (by simp [resultOf,unclaimed])
    · exact absurd claims (by simp [resultOf,unclaimed])

theorem acceptedLaw {loop : Loop σ} {log : List Round} {response : Dict} {dispatched : List ToolCall} {world : σ}
    {result : BoundedToolLoopResult} (kept : Kept given loop log) (asked : log.length + 1 ≤ given.maxRounds)
    (answer : Answer given { loop with world } response (.inl (.ok result)) dispatched) :
    LoopLaw given (.ok result) (log ++ [⟨some (.dict response),dispatched⟩]) := by
  obtain ⟨rfl,rfl,unclaimed⟩ := answer.accepted result rfl
  refine ⟨loggedBounded given (by simpa using asked) (fun round member => ?_) fun other same => ?_,fun other same none claims => ?_⟩
  · rcases List.mem_append.mp member with before | last
    · exact kept.ordered round before
    · rw [List.mem_singleton.mp last]
      exact List.nil_prefix
  · cases same
    rw [List.flatMap_append]
    exact ⟨kept.executed.trans (by simp),kept.used.trans (by simp)⟩
  · cases same
    rw [resultOf,unclaimed none] at claims
    cases claims

theorem roundsLaw (rounds : Nat) (loop : Loop σ) (log : List Round) (kept : Kept given loop log)
    (left : log.length + rounds = given.maxRounds) :
    LoopLaw given (runRounds given rounds loop log).1 (runRounds given rounds loop log).2 := by
  induction rounds generalizing loop log with
  | zero => exact exhaustedLaw given kept left
  | succ rounds ih =>
    have silent (reply : Option Value) : ∀ round ∈ log ++ [⟨reply,[]⟩], round.dispatched <+: offered given round := by
      intro round member
      rcases List.mem_append.mp member with before | last
      · exact kept.ordered round before
      · rw [List.mem_singleton.mp last]
        exact List.nil_prefix
    have asked (round : Round) : (log ++ [round]).length ≤ given.maxRounds := by
      rw [List.length_append,List.length_singleton]
      omega
    unfold runRounds
    split
    · exact raisedLaw given ((Nat.le_add_right _ _).trans left.le) kept.ordered
    · split
      · exact raisedLaw given (asked _) (silent _)
      · rename_i response world _
        have answer := answerSource given { loop with world } response
        split
        · rename_i outcome dispatched ended
          rw [ended] at answer
          cases outcome with
          | ok result => exact acceptedLaw given kept (by omega) answer
          | error error =>
            refine raisedLaw given (asked _) fun round member => ?_
            rcases List.mem_append.mp member with before | last
            · exact kept.ordered round before
            · rw [List.mem_singleton.mp last]
              exact answer.ordered
        · rename_i after dispatched goes
          rw [goes] at answer
          refine ih after _ (keptNext given kept answer) ?_
          rw [List.length_append,List.length_singleton]
          omega
      · exact raisedLaw given (asked _) (silent _)

theorem toolLoopLaw (world : σ) :
    LoopLaw given (runBoundedToolLoop given world).1 (runBoundedToolLoop given world).2 :=
  roundsLaw given given.maxRounds ⟨world,[],0,0,[],none⟩ [] ⟨rfl,rfl,nofun,nofun⟩ (Nat.zero_add _)

/- A claim of actions of any kind of number. -/

def isPositiveLiteral : Str → Bool
  | 0x2D::_ => false
  | literal => literal == ofText "Infinity" ||
    (literal.takeWhile fun c => c != 0x65 && c != 0x45).any fun c => 0x31 ≤ c && c ≤ 0x39

def claimsActions (response : Dict) : Bool := match get response "actions_taken" with
  | some (.float literal) => isPositiveLiteral literal
  | _ => reportedPositiveActionsTaken response

structure Guarded (outcome : Except ε BoundedToolLoopResult) (log : List Round) : Prop where
  bounded : Bounded given outcome log
  unclaimed : ∀ result, outcome = .ok result → result.toolCallsExecuted = 0 → claimsActions result.response = false

end

/- A provider that always gives the same response, without tools, in two rounds. -/
def insisting (response : Dict) : Surroundings Unit String where
  ask _ world := (.ok (.dict response),world)
  dispatch _ _ world := (.ok [],world)
  onToolCallResult _ _ world := (.ok (),world)
  unsupportedNoToolResponseError := none
  dumps _ := .ok []
  valueError message := message
  prompt := []
  allowedTools := []
  maxRounds := 2
  maxToolCallsPerRound := 5

/- The last round takes what the first refused, and a float is not looked at. -/
theorem claimReturned :
    ¬ Guarded (insisting [(key "actions_taken",.int 5)])
        (runBoundedToolLoop (insisting [(key "actions_taken",.int 5)]) ()).1
        (runBoundedToolLoop (insisting [(key "actions_taken",.int 5)]) ()).2 ∧
      ¬ Guarded (insisting [(key "actions_taken",.float (ofText "3.0"))])
        (runBoundedToolLoop (insisting [(key "actions_taken",.float (ofText "3.0"))]) ()).1
        (runBoundedToolLoop (insisting [(key "actions_taken",.float (ofText "3.0"))]) ()).2 :=
  ⟨fun guarded => absurd (guarded.unclaimed _ rfl rfl) (by decide),
    fun guarded => absurd (guarded.unclaimed _ rfl rfl) (by decide)⟩

end McpMemory.Toolkit
