import McpMemory.Lib.Values

/-! One request of `daemon_transport.py`, from the bytes of its frame to its response. What comes
from outside: how deep the stack may get where JSON is read and written, the parts of `urllib` that need
tables or change between versions, and the measured times. The handlers of the routes are outside too. -/
namespace McpMemory.Transport
open Values

inductive Kind where
  | valueError
  | timeoutError
  | recursionError
  | attributeError
  | cancelledError
  | other
  deriving DecidableEq, Repr

structure Raised where
  kind : Kind
  text : Str
  deriving DecidableEq, Repr

/- `bracketedNetloc` is the text of the ValueError of `_check_bracketed_netloc`, `parseQs` is
`parse_qs(…, keep_blank_values=True)` and `dumps` the text of a value that `json.dumps` encodes. -/
structure Env where
  digits : Nat
  pathDepth : Nat
  dispatchDepth : Nat
  attachDepth : Nat
  dumpsDepth : Nat
  room : 0 < dumpsDepth
  nfkc : Str → Str
  bracketedNetloc : Str → Option Str
  parseQs : Str → List (Str × List Str)
  dumps : Value → Str

variable (env : Env)

def Fault.raised : Fault → Raised
  | .tooDeep => ⟨.recursionError,ofText "maximum recursion depth exceeded"⟩
  | _ => ⟨.valueError,ofText "Exceeds the limit for integer string conversion"⟩

def isUnsafe (c : Nat) : Bool := c == 0x09 || c == 0x0A || c == 0x0D

def isLetter (c : Nat) : Bool := 0x41 ≤ c && c ≤ 0x5A || 0x61 ≤ c && c ≤ 0x7A

def isSchemeChar (c : Nat) : Bool := isLetter c || isDigit c || c == 0x2B || c == 0x2D || c == 0x2E

/- What follows the scheme. -/
def afterScheme (url : Str) : Str :=
  let scheme := url.takeWhile (· != 0x3A)
  if scheme.length < url.length && (scheme.head?.any isLetter && scheme.all isSchemeChar) then url.drop (scheme.length + 1)
  else url

def isNetlocEnd (c : Nat) : Bool := c == 0x2F || c == 0x3F || c == 0x23

/- `_checknetloc` -/
def checkNetloc (netloc : Str) : Except Raised Unit :=
  let plain := netloc.filter fun c => !(c == 0x40 || c == 0x3A || c == 0x23 || c == 0x3F)
  if netloc.all (· < 0x80) || plain == env.nfkc plain then .ok ()
  else if (env.nfkc plain).any fun c => isNetlocEnd c || c == 0x40 || c == 0x3A then
    .error ⟨.valueError,ofText "netloc '" ++ netloc ++ ofText "' contains invalid characters under NFKC normalization"⟩
  else .ok ()

def checkBrackets (netloc : Str) : Except Raised Unit :=
  if netloc.contains 0x5B != netloc.contains 0x5D then .error ⟨.valueError,ofText "Invalid IPv6 URL"⟩
  else if !netloc.contains 0x5B then .ok ()
  else match env.bracketedNetloc netloc with
    | none => .ok ()
    | some text => .error ⟨.valueError,text⟩

/- The network location and what follows it. -/
def splitNetloc : Str → Str × Str
  | 0x2F::0x2F::rest => (rest.takeWhile (!isNetlocEnd ·),rest.dropWhile (!isNetlocEnd ·))
  | url => ([],url)

/- `urlsplit`: the path and the query. -/
def urlsplit (path : Str) : Except Raised (Str × Str) := do
  let url := afterScheme ((path.dropWhile (· ≤ 0x20)).filter (!isUnsafe ·))
  let located := splitNetloc url
  checkBrackets env located.1
  let plain := located.2.takeWhile (· != 0x23)
  checkNetloc env located.1
  return (plain.takeWhile (· != 0x3F),(plain.dropWhile (· != 0x3F)).drop 1)

def queryValue : List Str → Value
  | [value] => .str value
  | values => .list (values.map .str)

/- What the payload gives has precedence over the query. -/
def addQuery (payload : Dict) (query : Str) : Dict :=
  (env.parseQs query).foldl (fun payload entry =>
    if payload.any (·.1 == .text entry.1) then payload else payload ++ [(.text entry.1,queryValue entry.2)]) payload

def normalizeRequest (path : Str) (payload : Dict) : Except Raised (Str × Dict) := do
  let split ← urlsplit env path
  return (if split.1.isEmpty then path else split.1,if split.2.isEmpty then payload else addQuery env payload split.2)

def decode (frame : ByteArray) : Option Str := (String.fromUTF8? frame).map ofText

/- A request, or the error text that `_dispatch` answers. -/
def readRequest (decoded : Value) : Except String (Str × Dict) := match decoded with
  | .dict fields => match get fields "path" with
    | some (.str (c::path)) => match get fields "payload" with
      | none | some .null => .ok (c::path,[])
      | some (.dict payload) => .ok (c::path,payload)
      | some _ => .error "transport_payload_must_be_object"
    | _ => .error "transport_path_required"
  | _ => .error "invalid_transport_payload"

/- `none` is a frame whose path cannot be told. -/
def normalizedTransportPath (frame : ByteArray) : Except Raised (Option Str) := match decode frame with
  | none => .ok none
  | some text => match loads ⟨env.digits,env.pathDepth⟩ text with
    | .error .malformed => .ok none
    | .error fault => .error (Fault.raised fault)
    | .ok decoded => match readRequest decoded with
      | .error _ => .ok none
      | .ok (path,payload) => (normalizeRequest env path payload).map fun request => some request.1

def field (key : String) (value : Value) : Key × Value := (.text (ofText key),value)

def errorPayload (text : Str) : Dict := [field "status" (.str (ofText "error")),field "error" (.str text)]

/- How a handler ends, or the deadline of `wait_for` before it. -/
inductive Outcome where
  | answered (response : Value)
  | raised (error : Raised)
  | timedOut

abbrev Handler := Str → Dict → Outcome

/- The `except` clauses of `_dispatch`. -/
def handled : Outcome → Outcome
  | .raised error => if error.kind = .valueError ∨ error.kind = .timeoutError then .answered (.dict (errorPayload error.text))
    else .raised error
  | outcome => outcome

def dispatch (frame : ByteArray) (handler : Handler) : Outcome := match decode frame with
  | none => .answered (.dict (errorPayload (ofText "invalid_transport_payload")))
  | some text => match loads ⟨env.digits,env.dispatchDepth⟩ text with
    | .error .malformed => .answered (.dict (errorPayload (ofText "invalid_transport_payload")))
    | .error fault => .raised (Fault.raised fault)
    | .ok decoded => match readRequest decoded with
      | .error text => .answered (.dict (errorPayload (ofText text)))
      | .ok (path,payload) => match normalizeRequest env path payload with
        | .error error => .raised error
        | .ok (path,payload) => handled (handler path payload)

structure Times where
  queueWaitMs : Str
  executionMs : Str
  daemonTotalMs : Str

def daemonTransportTiming (requestId : Nat) (times : Times) : Dict :=
  [field "request_id" (.int requestId),field "queue_wait_ms" (.float times.queueWaitMs),
    field "execution_ms" (.float times.executionMs),field "daemon_total_ms" (.float times.daemonTotalMs)]

/- The `contents` of a response, the texts of which may be responses themselves; `none` where
nothing is added. -/
def attachContents (attach : Dict → Except Raised (Option Dict)) : List Value → Except Raised (Option (List Value))
  | [] => .ok none
  | content::rest => do
    let enriched ← match content with
      | .dict fields => match get fields "text" with
        | some (.str text) => match loads ⟨env.digits,env.attachDepth⟩ text with
          | .error .malformed => pure none
          | .error fault => .error (Fault.raised fault)
          | .ok (.dict payload) => do
            match ← attach payload with
            | none => pure none
            | some payload =>
              if (Value.dict payload).encodes env.digits env.dumpsDepth then
                pure (some (.dict (set fields (.text (ofText "text")) (.str (env.dumps (.dict payload))))))
              else .error ⟨.other,ofText "TypeError"⟩
          | .ok _ => pure none
        | _ => pure none
      | _ => pure none
    match enriched with
    | some content => return some (content::rest)
    | none => (attachContents attach rest).map fun found => found.map (content :: ·)

/- `_attach_transport_diagnostics`, with what is left of the stack. -/
def attachTransportDiagnostics (timing : Dict) : Nat → Dict → Except Raised (Option Dict)
  | 0,_ => .error ⟨.recursionError,ofText "maximum recursion depth exceeded"⟩
  | depth + 1,response => match get response "search_diagnostics" with
    | some (.dict diagnostics) => .ok (some (set response (.text (ofText "search_diagnostics"))
        (.dict (set diagnostics (.text (ofText "transport")) (.dict timing)))))
    | _ => match get response "contents" with
      | some (.list contents) => (attachContents env (attachTransportDiagnostics timing depth) contents).map fun found =>
          found.map fun contents => set response (.text (ofText "contents")) (.list contents)
      | _ => .ok none

def timeoutPathPrefixes : List String := ["/api/memories/search","/api/admin/search/repair","/api/memories/",
  "/api/mutation-history/","/api/record-thought","/internal/tools","/internal/maintenance/tools"]

def requestTimeoutSeconds (path : Str) : String :=
  if timeoutPathPrefixes.any fun start => (ofText start).isPrefixOf path then "60.0" else "5.0"

def dispatchTimeoutPayload (path : Str) : Dict := errorPayload (ofText "daemon_request_timed_out") ++
  [field "path" (.str path),field "timeout_seconds" (.float (ofText (requestTimeoutSeconds path)))]

def dispatchFailurePayload : Dict := errorPayload (ofText "daemon_request_failed")

/- What `_dispatch_request` makes of the end of `_dispatch`. -/
def respond (path : Str) (timing : Dict) : Outcome → Except Raised Dict
  | .answered (.dict response) => match attachTransportDiagnostics env timing env.attachDepth response with
    | .ok attached => .ok (attached.getD response)
    | .error _ => .ok dispatchFailurePayload
  | .answered _ => .ok dispatchFailurePayload
  | .timedOut => .ok (dispatchTimeoutPayload path)
  | .raised error => match error.kind with
    | .timeoutError => .ok (dispatchTimeoutPayload path)
    | .cancelledError => .error error
    | _ => .ok dispatchFailurePayload

def dispatchRequest (frame : ByteArray) (handler : Handler) (path : Str) (timing : Dict) : Except Raised Dict :=
  respond env path timing (dispatch env frame handler)

end McpMemory.Transport
