import McpMemory.Curation.Execute
import McpMemory.Curation.Services

/-! `mcp/curator_action_adapter.py`: a mutation tool call of a curator execution becomes one
curation action. The run of the execution, the evidence of the call and the action store
are there; without them the dispatcher calls the service on the plain repository. -/
namespace McpMemory.Curation
open Memory Text Transaction

variable (env : ToolEnv)

inductive Tool where
  | updateMemoryRecord
  | archiveMemoryRecord
  | mergeMemoryIntoCanonical
  | splitMemoryRecord
  | createMemoryLink
  | deleteMemoryLink
  deriving DecidableEq, Repr

structure ToolCall where
  tool : Tool
  arguments : Json.Object
  runId : String
  evidenceId : String
  idempotencyKey : String
  splitGroupId : String

def operation (call : ToolCall) : String :=
  match call.tool with
  | .updateMemoryRecord => if given call.arguments "content" then "rewrite_memory" else "normalize_memory"
  | .archiveMemoryRecord => "archive_memory"
  | .createMemoryLink => "create_link"
  | .deleteMemoryLink => "remove_link"
  | .mergeMemoryIntoCanonical => "merge_memories"
  | .splitMemoryRecord => "split_memory"

def targetKeys : Tool → List String
  | .archiveMemoryRecord | .splitMemoryRecord | .updateMemoryRecord => ["memory_id"]
  | .createMemoryLink | .deleteMemoryLink => ["source_id","target_id"]
  | .mergeMemoryIntoCanonical => ["canonical_memory_id","source_memory_id"]

/- The texts as they were given, each once. -/
def targetIds (call : ToolCall) : List String :=
  ((targetKeys call.tool).filterMap fun key => (Json.get call.arguments key).bind asText).eraseDups

def ownId (fields : Json.Object) : List String := ((Json.get fields "id").bind asText).toList

mutual

def visit : Json → List String
  | .obj fields => ownId fields ++ visitFields fields
  | .arr items => visitItems items
  | _ => []

def visitItems : List Json → List String
  | [] => []
  | item::rest => visit item ++ visitItems rest

def visitFields : List (String × Json) → List String
  | [] => []
  | (_,value)::rest => visit value ++ visitFields rest

end

def affectedIds (answer : Answer) (targets : List String) : List String :=
  ((targets ++ visit (.obj answer)).eraseDups).filter fun memoryId => !startsWith memoryId "ext:"

/- `(?:mem-)?([1-9][0-9]*)`, in any letter case. -/
def parseMemoryRef (value : String) : Except ActionError (Option Nat) :=
  let text := (strip value).toList
  let digits := if "mem-".toList.isPrefixOf (text.map Char.toLower) then text.drop 4 else text
  if !digits.isEmpty && digits.head? != some '0' && digits.all Char.isDigit then
    match parseInt (String.ofList digits) with
    | some memoryRef => .ok (some memoryRef)
    | none => .error (.valueError "Exceeds the limit (4300 digits) for integer string conversion")
  else .ok none

/- A number that no INTEGER column can hold is refused before the query. -/
def idByRef (t : Tables) (memoryRef : Nat) : Except ActionError (Option String) :=
  if 9223372036854775807 < memoryRef then
    .error (.other "OverflowError: Python int too large to convert to SQLite INTEGER")
  else .ok ((t.memories.find? (·.memoryRef == some (memoryRef : Int))).map (·.id))

def resolveMemoryId (t : Tables) (memoryId : String) : Except ActionError (Option String) :=
  if t.has memoryId then .ok (some memoryId)
  else do
    match ← parseMemoryRef memoryId with
    | none => .ok none
    | some memoryRef => idByRef t memoryRef

/- `get_memory` of the repository, which reads memory references as well. -/
def repositoryMemory (t : Tables) (memoryId : String) : Except ActionError (Option MemoryRecord) :=
  (resolveMemoryId t memoryId).map fun resolved => resolved.bind (recordById · t)

theorem repositoryOwn {t : Tables} {memoryId : String} (there : t.has memoryId) :
    repositoryMemory t memoryId = .ok (recordById memoryId t) := by
  unfold repositoryMemory resolveMemoryId
  rw [if_pos there]
  rfl

theorem repositoryResolved {t : Tables} {memoryId : String} {record : MemoryRecord}
    (found : repositoryMemory t memoryId = .ok (some record)) :
    ∃ resolved, resolveMemoryId t memoryId = .ok (some resolved) ∧ recordById resolved t = some record := by
  obtain ⟨resolved,read,here⟩ := mappedOk.mp found
  obtain ⟨resolved,rfl,here⟩ := Option.bind_eq_some_iff.mp here
  exact ⟨resolved,read,here⟩

/- The text is the id itself, or it spells the number of a row. -/
theorem resolvedSource {t : Tables} {memoryId resolved : String}
    (read : resolveMemoryId t memoryId = .ok (some resolved)) :
    t.has memoryId ∧ resolved = memoryId ∨ ∃ number : Nat, parseMemoryRef memoryId = .ok (some number) ∧
      ∃ row ∈ t.memories, row.memoryRef = some (number : Int) ∧ row.id = resolved := by
  unfold resolveMemoryId at read
  split at read
  · exact .inl ⟨by assumption,(Option.some.inj (Except.ok.inj read)).symm⟩
  · obtain ⟨memoryRef,parsed,last⟩ := checkedOk.mp read
    cases memoryRef with
    | none => cases last
    | some number =>
      unfold idByRef at last
      dsimp only at last
      split at last
      · cases last
      · obtain ⟨row,found,same⟩ := Option.map_eq_some_iff.mp (Except.ok.inj last)
        obtain ⟨member,numbered⟩ := Table.findSome found
        exact .inr ⟨number,parsed,row,member,beq_iff_eq.mp numbered,same⟩

def expectedTokens (t : Tables) : List String → Except ActionError (List (String × String))
  | [] => .ok []
  | memoryId::rest =>
    if startsWith memoryId "ext:" then expectedTokens t rest
    else do
      match ← repositoryMemory t memoryId with
      | none => expectedTokens t rest
      | some record => do
        let here ← token port env.toEnv record
        .ok ((memoryId,here) :: (← expectedTokens t rest))

def service (call : ToolCall) : Service Answer :=
  match call.tool with
  | .updateMemoryRecord => updateMemoryRecord env call.arguments
  | .archiveMemoryRecord => archiveMemoryRecord call.arguments
  | .mergeMemoryIntoCanonical => mergeMemoryIntoCanonical env call.arguments
  | .splitMemoryRecord => splitMemoryRecord env call.splitGroupId call.arguments
  | .createMemoryLink => createMemoryLink call.arguments
  | .deleteMemoryLink => deleteMemoryLink call.arguments

def textField (answer : Answer) (field : String) : Option String := (Json.get answer field).bind asText

def apply (call : ToolCall) : Callback := do
  let answer ← service env call
  if textField answer "status" = some "error" then
    let error := (textField answer "error").getD "mutation_rejected"
    .fail (.contract error ((textField answer "detail").getD error))
  else pure (some ⟨operation call,affectedIds answer (targetIds call),none⟩)

def actionId (call : ToolCall) : String := env.directActionId call.evidenceId

def requestOf (call : ToolCall) (tokens : List (String × String)) : Request :=
  ⟨call.runId,actionId env call,targetIds call,tokens,none,some (operation call),.obj call.arguments,none,
    "maintenance",none,some call.idempotencyKey⟩

def attemptOf (config : Config) (oracle : Oracle ActionError) (call : ToolCall)
    (tokens : List (String × String)) : Attempt :=
  ⟨config,requestOf env call tokens,apply env call,oracle⟩

/- The reads of the adapter and of the first look happen in `seen`, the transaction in
`database`; others may commit between them. -/
def executeCuratorMutation (config : Config) (oracle : Oracle ActionError) (call : ToolCall)
    (seen database : Database) : Except ActionError ActionReceipt × Database :=
  match getReceipt call.runId (actionId env call) seen.curation with
  | some existing =>
    if existing.operation ≠ operation call then
      (.error (.contract "action_identity_collision" "curation action identity collision"),database)
    else (.ok existing,database)
  | none => match expectedTokens env seen.memory (targetIds call) with
    | .error error => (.error error,database)
    | .ok tokens =>
      let attempt := attemptOf env config oracle call tokens
      match prepare env.actions attempt.request with
      | .error error => (.error error,database)
      | .ok p => match fastPath env.actions attempt p seen with
        | some answer => (answer,database)
        | none => runTransaction env.actions attempt p database

end McpMemory.Curation
