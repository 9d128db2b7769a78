import Mathlib.Data.List.Sort
import McpMemory.Lib.Json
import McpMemory.Lib.Text

/-! `utils/canonical_identity.py`: a JSON value is normalised, written with sorted keys
and hashed. SHA-256 is given from outside. Values hold no floats, so the only refusal
left is a key that two fields share after normalisation; the error names it. -/
namespace McpMemory.Canonical
open Text

structure Env where
  unicode : Unicode
  sha256 : String → String

variable (env : Env)

/- `normalize_text`; with `collapse` the ends are stripped too. -/
def normalizeText (value : String) : String :=
  String.ofList (lineEndings (env.unicode.nfc value).toList)

def collapseText (value : String) : String := strip (normalizeText env value)

mutual

def normalize : Json → Except String Json
  | .str value => .ok (.str (normalizeText env value))
  | .arr items => (normalizeItems items).map .arr
  | .obj fields => (normalizeFields [] fields).map .obj
  | value => .ok value

def normalizeItems : List Json → Except String (List Json)
  | [] => .ok []
  | item::rest => do
    let item ← normalize item
    let rest ← normalizeItems rest
    .ok (item::rest)

def normalizeFields (seen : List String) : List (String × Json) → Except String (List (String × Json))
  | [] => .ok []
  | (key,value)::rest =>
    let key := normalizeText env key
    if seen.contains key then .error key
    else do
      let value ← normalize value
      let rest ← normalizeFields (key::seen) rest
      .ok ((key,value)::rest)

end

def hexDigit (n : Nat) : Char := if n < 10 then Char.ofNat (48 + n) else Char.ofNat (87 + n)

def quote : Char := Char.ofNat 34

def backslash : Char := Char.ofNat 92

/- The letter that stands for a control character after the backslash. -/
def escapeLetter (c : Char) : Option Char :=
  match c.toNat with
  | 8 => some 'b'
  | 9 => some 't'
  | 10 => some 'n'
  | 12 => some 'f'
  | 13 => some 'r'
  | _ => none

def escapeChar (c : Char) : List Char :=
  if c = quote ∨ c = backslash then [backslash,c]
  else match escapeLetter c with
  | some letter => [backslash,letter]
  | none =>
    if c.toNat < 32 then [backslash, 'u', '0', '0',hexDigit (c.toNat / 16),hexDigit (c.toNat % 16)]
    else [c]

def dumpText (text : String) : List Char := quote :: text.toList.flatMap escapeChar ++ [quote]

/- The `separators` of `json.dumps`. -/
structure Separators where
  item : List Char
  key : List Char

def compact : Separators := ⟨[','],[':']⟩

def spaced : Separators := ⟨[',', ' '],[':', ' ']⟩

def joined (marks : Separators) (parts : List (List Char)) : List Char :=
  (parts.intersperse marks.item).flatten

def byKey (fields : List (String × List Char)) : List (String × List Char) :=
  fields.insertionSort fun a b => a.1 ≤ b.1

mutual

/- `json.dumps(ensure_ascii=False, sort_keys=True)`. -/
def dump (marks : Separators) : Json → List Char
  | .null => "null".toList
  | .bool value => (if value then "true" else "false").toList
  | .int value => (toString value).toList
  | .str value => dumpText value
  | .arr items => '[' :: joined marks (dumpItems marks items) ++ [']']
  | .obj fields => Char.ofNat 0x7b :: joined marks ((byKey (dumpFields marks fields)).map fun field =>
      dumpText field.1 ++ marks.key ++ field.2) ++ [Char.ofNat 0x7d]

def dumpItems (marks : Separators) : List Json → List (List Char)
  | [] => []
  | item::rest => dump marks item :: dumpItems marks rest

def dumpFields (marks : Separators) : List (String × Json) → List (String × List Char)
  | [] => []
  | (key,value)::rest => (key,dump marks value) :: dumpFields marks rest

end

def canonicalize (value : Json) : Except String String :=
  (normalize env value).map fun value => String.ofList (dump compact value)

def stableHash (value : Json) : Except String String :=
  (canonicalize env value).map fun text => "v1:" ++ env.sha256 text

example : String.ofList (dump compact (.obj [("b",.arr [.null,.int (-2)]),("a",.str "x\n")])) =
    "\x7b\"a\":\"x\\n\",\"b\":[null,-2]\x7d" := by decide

end McpMemory.Canonical
