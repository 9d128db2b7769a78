import Mathlib

/-! JSON text as `json.loads` and `json.dumps` treat it, with every way in which they raise.
A `str` is its code points, since an escape can name half of a surrogate pair. A float keeps the
literal it came from. -/
namespace McpMemory.Values

abbrev Str := List Nat

def ofText (text : String) : Str := text.toList.map Char.toNat

/- A key of a dictionary. `object` is what `json.dumps` has no text for. -/
inductive Key where
  | text (value : Str)
  | number (literal : Str)
  | none
  | object
  deriving DecidableEq, Repr

inductive Value where
  | null
  | bool (value : Bool)
  | int (value : Int)
  | float (literal : Str)
  | str (value : Str)
  | list (items : List Value)
  | dict (entries : List (Key × Value))
  | object

abbrev Dict := List (Key × Value)

def get (entries : Dict) (key : String) : Option Value := entries.lookup (.text (ofText key))

def set (entries : Dict) (key : Key) (value : Value) : Dict :=
  if entries.any (·.1 == key) then entries.map fun entry => if entry.1 == key then (key,value) else entry
  else entries ++ [(key,value)]

/- `sys.get_int_max_str_digits`, and how much deeper the stack may get. -/
structure Limits where
  digits : Nat
  depth : Nat

/- JSONDecodeError, the ValueError of a long integer, RecursionError. `unfinished` is no exception:
the scanner had too little fuel, which `loads` never has. -/
inductive Fault where
  | malformed
  | tooLong
  | tooDeep
  | unfinished
  deriving DecidableEq, Repr

def isWhitespace (c : Nat) : Bool := c == 0x20 || c == 0x09 || c == 0x0A || c == 0x0D

def skip (text : Str) : Str := text.dropWhile isWhitespace

def isDigit (c : Nat) : Bool := 0x30 ≤ c && c ≤ 0x39

def hexDigit (c : Nat) : Option Nat :=
  if isDigit c then some (c - 0x30)
  else if 0x41 ≤ c && c ≤ 0x46 then some (c - 0x37)
  else if 0x61 ≤ c && c ≤ 0x66 then some (c - 0x57)
  else none

def hexUnit (a b c d : Nat) : Option Nat := do
  return ((← hexDigit a) * 16 + (← hexDigit b)) * 256 + (← hexDigit c) * 16 + (← hexDigit d)

def escaped (c : Nat) : Option Nat :=
  [(0x22,0x22),(0x5C,0x5C),(0x2F,0x2F),(0x62,0x08),(0x66,0x0C),(0x6E,0x0A),(0x72,0x0D),(0x74,0x09)].lookup c

/- Two escapes of one character outside the basic plane become that character. -/
def joinSurrogate (unit : Nat) : Str → Str
  | low::rest =>
    if 0xD800 ≤ unit && unit ≤ 0xDBFF && 0xDC00 ≤ low && low ≤ 0xDFFF then
      (0x10000 + (unit - 0xD800) * 0x400 + (low - 0xDC00)) :: rest
    else unit::low::rest
  | [] => [unit]

/- After the opening quote. The text of a frame is UTF-8, so a half of a pair stands there only as an escape. -/
def scanString : Str → Except Fault (Str × Str)
  | [] => .error .malformed
  | 0x22::rest => .ok ([],rest)
  | 0x5C::0x75::a::b::c::d::rest => match hexUnit a b c d with
    | none => .error .malformed
    | some unit => (scanString rest).map fun (value,rest) => (joinSurrogate unit value,rest)
  | 0x5C::c::rest => match escaped c with
    | none => .error .malformed
    | some unit => (scanString rest).map fun (value,rest) => (unit::value,rest)
  | c::rest => if c < 0x20 || c == 0x5C then .error .malformed
    else (scanString rest).map fun (value,rest) => (c::value,rest)

def decimal (digits : Str) : Nat := digits.foldl (fun value c => value * 10 + (c - 0x30)) 0

/- The part from the dot on, where digits follow it. -/
def fraction (text : Str) : Str × Str := match text with
  | 0x2E::rest => if (rest.takeWhile isDigit).isEmpty then ([],text)
    else (0x2E :: rest.takeWhile isDigit,rest.dropWhile isDigit)
  | _ => ([],text)

def signOf : Str → Str × Str
  | 0x2B::rest => ([0x2B],rest)
  | 0x2D::rest => ([0x2D],rest)
  | text => ([],text)

def exponent (text : Str) : Str × Str := match text with
  | [] => ([],text)
  | c::rest =>
    let signed := signOf rest
    if (c == 0x65 || c == 0x45) && !(signed.2.takeWhile isDigit).isEmpty then
      (c :: signed.1 ++ signed.2.takeWhile isDigit,signed.2.dropWhile isDigit)
    else ([],text)

/- The digits before the dot: no zero before another digit. -/
def whole : Str → Option (Str × Str)
  | 0x30::rest => some ([0x30],rest)
  | text => if (text.takeWhile isDigit).isEmpty then none else some (text.takeWhile isDigit,text.dropWhile isDigit)

def scanNumber (limits : Limits) (negative : Bool) (text : Str) : Except Fault (Value × Str) := match whole text with
  | none => .error .malformed
  | some (digits,rest) =>
    let fractional := fraction rest
    let scaled := exponent fractional.2
    let sign := if negative then [0x2D] else []
    if !(fractional.1.isEmpty && scaled.1.isEmpty) then .ok (.float (sign ++ digits ++ fractional.1 ++ scaled.1),scaled.2)
    else if limits.digits < digits.length then .error .tooLong
    else .ok (.int (if negative then -(decimal digits) else decimal digits),rest)

def literals : List (Str × Value) :=
  [(ofText "null",.null),(ofText "true",.bool true),(ofText "false",.bool false),(ofText "NaN",.float (ofText "NaN")),
    (ofText "Infinity",.float (ofText "Infinity")),(ofText "-Infinity",.float (ofText "-Infinity"))]

def scanLiteral (text : Str) : Option (Value × Str) :=
  (literals.find? fun literal => literal.1.isPrefixOf text).map fun literal => (literal.2,text.drop literal.1.length)

def scanScalar (limits : Limits) (text : Str) : Except Fault (Value × Str) := match scanLiteral text with
  | some found => .ok found
  | none => match text with
    | 0x2D::rest => scanNumber limits true rest
    | _ => scanNumber limits false text

/- `:` and the white space around it -/
def scanColon (text : Str) : Except Fault Str := match skip text with
  | 0x3A::rest => .ok (skip rest)
  | _ => .error .malformed

def scanName : Str → Except Fault (Str × Str)
  | 0x22::rest => do
    let (name,rest) ← scanString rest
    return (name,← scanColon rest)
  | _ => .error .malformed

mutual

/- `scan_once` -/
def scanOnce (limits : Limits) : Nat → Nat → Str → Except Fault (Value × Str)
  | 0,_,_ => .error .unfinished
  | fuel + 1,depth,text => match text with
    | 0x22::rest => (scanString rest).map fun (value,rest) => (.str value,rest)
    | 0x5B::rest => match depth with
      | 0 => .error .tooDeep
      | depth + 1 => match skip rest with
        | 0x5D::rest => .ok (.list [],rest)
        | rest => (scanItems limits fuel depth rest).map fun (items,rest) => (.list items,rest)
    | 0x7B::rest => match depth with
      | 0 => .error .tooDeep
      | depth + 1 => match skip rest with
        | 0x7D::rest => .ok (.dict [],rest)
        | rest => (scanMembers limits fuel depth [] rest).map fun (entries,rest) => (.dict entries,rest)
    | _ => scanScalar limits text

def scanItems (limits : Limits) : Nat → Nat → Str → Except Fault (List Value × Str)
  | 0,_,_ => .error .unfinished
  | fuel + 1,depth,text => do
    let (item,rest) ← scanOnce limits fuel depth text
    match skip rest with
    | 0x5D::rest => return ([item],rest)
    | 0x2C::rest => (scanItems limits fuel depth (skip rest)).map fun (items,rest) => (item::items,rest)
    | _ => .error .malformed

/- A later field of the same name takes the place of the earlier one. -/
def scanMembers (limits : Limits) : Nat → Nat → Dict → Str → Except Fault (Dict × Str)
  | 0,_,_,_ => .error .unfinished
  | fuel + 1,depth,entries,text => do
    let (name,rest) ← scanName text
    let (value,rest) ← scanOnce limits fuel depth rest
    match skip rest with
    | 0x7D::rest => return (set entries (.text name) value,rest)
    | 0x2C::rest => scanMembers limits fuel depth (set entries (.text name) value) (skip rest)
    | _ => .error .malformed

end

def fuelFor (text : Str) : Nat := 2 * text.length + 2

/- `json.loads` of a `str`: no byte order mark, and nothing after the value. -/
def loads (limits : Limits) (text : Str) : Except Fault Value :=
  if text.head? = some 0xFEFF then .error .malformed
  else do
    let (value,rest) ← scanOnce limits (fuelFor text) limits.depth (skip text)
    if (skip rest).isEmpty then return value else .error .malformed

/- How far the scanner reads, and what each fault says of the text. -/

section
variable {α β : Type} {limits : Limits}

/- `need` is the fuel that would have been enough. -/
def Scanned (limits : Limits) (need fuel depth : Nat) (text : Str) : Except Fault (α × Str) → Prop
  | .ok found => found.2.length < text.length
  | .error .malformed => True
  | .error .tooLong => limits.digits < text.length
  | .error .tooDeep => depth < text.length
  | .error .unfinished => fuel < need

theorem scannedMap {need fuel depth text} {x : Except Fault (α × Str)} {f : α × Str → β × Str} (rests : ∀ found, (f found).2 = found.2)
    (scanned : Scanned limits need fuel depth text x) : Scanned limits need fuel depth text (x.map f) := by
  rcases x with (_ | _ | _ | _) | found
  · exact scanned
  · exact scanned
  · exact scanned
  · exact scanned
  · simpa only [Except.map,Scanned,rests] using scanned

theorem scannedRaised {need fuel depth text error} (scanned : Scanned limits need fuel depth text (.error error : Except Fault (α × Str))) :
    Scanned limits need fuel depth text (.error error : Except Fault (β × Str)) := by
  cases error <;> exact scanned

/- A part of the text, read with some of the fuel. -/
theorem scannedPart {need fuel depth text need' fuel' depth' text'} {x : Except Fault (α × Str)}
    (scanned : Scanned limits need fuel depth text x) (shorter : text.length ≤ text'.length)
    (enough : need' ≤ fuel' → need ≤ fuel) (deeper : depth' + text.length ≤ depth + text'.length) :
    Scanned limits need' fuel' depth' text' x := by
  rcases x with (_ | _ | _ | _) | found <;> simp only [Scanned] at * <;> omega

theorem skipShort (text : Str) : (skip text).length ≤ text.length := (List.dropWhile_sublist _).length_le

theorem skipCons {text rest : Str} {c} (skipped : skip text = c::rest) : rest.length < text.length := by
  have short := skipShort text
  rw [skipped,List.length_cons] at short
  omega

theorem restShort (text : Str) : (text.dropWhile isDigit).length ≤ text.length := (List.dropWhile_sublist _).length_le

theorem stringScanned {fuel depth} (text : Str) : Scanned limits 0 fuel depth text (scanString text) := by
  fun_induction scanString text with
  | case1 => trivial
  | case2 rest => simp [Scanned]
  | case3 => trivial
  | case4 a b c d rest unit named ih => exact scannedPart (scannedMap (fun _ => rfl) ih) (by simp; omega) (by omega) (by simp; omega)
  | case5 => trivial
  | case6 c rest other unit named ih => exact scannedPart (scannedMap (fun _ => rfl) ih) (by simp; omega) (by omega) (by simp; omega)
  | case7 => trivial
  | case8 c rest other another printed plain ih => exact scannedPart (scannedMap (fun _ => rfl) ih) (by simp) (by omega) (by simp)

theorem fractionShort (text : Str) : (fraction text).2.length ≤ text.length := by
  unfold fraction
  split
  · rename_i rest
    have short := restShort rest
    split <;> simp only [List.length_cons] at * <;> omega
  · exact Nat.le_refl _

theorem signShort (text : Str) : (signOf text).2.length ≤ text.length := by
  unfold signOf
  split <;> simp

theorem exponentShort (text : Str) : (exponent text).2.length ≤ text.length := by
  unfold exponent
  split
  · exact Nat.le_refl _
  · rename_i c rest
    have short := restShort (signOf rest).2
    have signed := signShort rest
    dsimp only
    split <;> simp only [List.length_cons] <;> omega

theorem wholeShort {text digits rest : Str} (read : whole text = some (digits,rest)) :
    digits.length + rest.length = text.length ∧ 0 < digits.length := by
  unfold whole at read
  split at read
  · cases read
    simp; omega
  · split at read
    · cases read
    · rename_i some_
      cases read
      refine ⟨?_,List.length_pos_iff.mpr fun empty => some_ (by rw [empty]; rfl)⟩
      rw [← List.length_append,List.takeWhile_append_dropWhile]

theorem numberScanned {fuel depth} (negative : Bool) (text : Str) :
    Scanned limits 0 fuel depth text (scanNumber limits negative text) := by
  unfold scanNumber
  cases read : whole text with
  | none => trivial
  | some parts =>
    obtain ⟨digits,rest⟩ := parts
    obtain ⟨total,some_⟩ := wholeShort read
    have fractional := fractionShort rest
    have scaled := exponentShort (fraction rest).2
    dsimp only
    split
    · simp only [Scanned]; omega
    · split <;> simp only [Scanned] <;> omega

theorem literalShort {text rest : Str} {value} (read : scanLiteral text = some (value,rest)) : rest.length < text.length := by
  obtain ⟨literal,found,same⟩ := Option.map_eq_some_iff.mp read
  have starts := List.find?_some found
  have member := List.mem_of_find?_eq_some found
  have each : ∀ literal ∈ literals, 0 < literal.1.length := by simp [literals,ofText]
  have long := each literal member
  have within := (List.isPrefixOf_iff_prefix.mp starts).length_le
  cases same
  rw [List.length_drop]
  omega

theorem scalarScanned {fuel depth} (text : Str) : Scanned limits 0 fuel depth text (scanScalar limits text) := by
  unfold scanScalar
  cases read : scanLiteral text with
  | some found => exact literalShort read
  | none =>
    dsimp only
    split
    · exact scannedPart (@numberScanned limits fuel depth true _) (by simp) (by omega) (by simp)
    · exact numberScanned false text

theorem nameScanned {fuel depth} (text : Str) : Scanned limits 0 fuel depth text (scanName text) := by
  unfold scanName
  split
  · rename_i rest
    have inner := @stringScanned limits fuel depth rest
    generalize scanString rest = read at *
    rcases read with error | found
    · exact scannedPart (scannedRaised inner) (by simp) (by omega) (by simp)
    · simp only [bind,Except.bind,scanColon]
      cases colon : skip found.2 with
      | nil => trivial
      | cons c after =>
        have short := skipCons colon
        have last := skipShort after
        simp only [Scanned] at inner
        by_cases same : c = 0x3A
        · subst same
          simp only [pure,Except.pure,Scanned,List.length_cons]
          omega
        · simp [same,Scanned]
  · trivial

/- By recursion on the fuel: a value needs two units for each character, a list of them one more. -/
theorem scanned (fuel : Nat) :
    (∀ depth text, Scanned limits (2 * text.length + 1) fuel depth text (scanOnce limits fuel depth text)) ∧
    (∀ depth text, Scanned limits (2 * text.length + 2) fuel depth text (scanItems limits fuel depth text)) ∧
    ∀ depth entries text, Scanned limits (2 * text.length + 2) fuel depth text (scanMembers limits fuel depth entries text) := by
  induction fuel with
  | zero => simp [scanOnce,scanItems,scanMembers,Scanned]
  | succ fuel ih =>
    obtain ⟨value,items,members⟩ := ih
    refine ⟨fun depth text => ?_,fun depth text => ?_,fun depth entries text => ?_⟩
    · unfold scanOnce
      split
      · exact scannedPart (scannedMap (fun _ => rfl) (@stringScanned limits fuel depth _)) (by simp) (by omega) (by simp)
      · rename_i rest
        cases depth with
        | zero => simp [Scanned]
        | succ depth =>
          dsimp only
          have short := skipShort rest
          split
          · rename_i after opened
            have last := skipCons opened
            simp only [Scanned,List.length_cons]
            omega
          · exact scannedPart (scannedMap (fun _ => rfl) (items depth (skip rest))) (by simp; omega) (by simp; omega)
              (by simp; omega)
      · rename_i rest
        cases depth with
        | zero => simp [Scanned]
        | succ depth =>
          dsimp only
          have short := skipShort rest
          split
          · rename_i after opened
            have last := skipCons opened
            simp only [Scanned,List.length_cons]
            omega
          · exact scannedPart (scannedMap (fun _ => rfl) (members depth [] (skip rest))) (by simp; omega) (by simp; omega)
              (by simp; omega)
      · exact scannedPart (@scalarScanned limits fuel depth _) (Nat.le_refl _) (by omega) (Nat.le_refl _)
    · unfold scanItems
      have first := value depth text
      generalize scanOnce limits fuel depth text = read at *
      rcases read with error | ⟨item,rest⟩
      · exact scannedPart (scannedRaised first) (Nat.le_refl _) (by omega) (Nat.le_refl _)
      · simp only [bind,Except.bind]
        simp only [Scanned] at first
        split
        · rename_i after closed
          have last := skipCons closed
          simp only [pure,Except.pure,Scanned]
          omega
        · rename_i after comma
          have short := skipCons comma
          have next := skipShort after
          exact scannedPart (scannedMap (fun _ => rfl) (items depth (skip after))) (by omega) (by omega) (by omega)
        · trivial
    · unfold scanMembers
      have named := @nameScanned limits fuel depth text
      generalize scanName text = read at *
      rcases read with error | ⟨name,rest⟩
      · exact scannedPart (scannedRaised named) (Nat.le_refl _) (by omega) (Nat.le_refl _)
      · simp only [bind,Except.bind]
        have first := value depth rest
        simp only [Scanned] at named
        generalize scanOnce limits fuel depth rest = read at *
        rcases read with error | ⟨entry,rest⟩
        · exact scannedPart (scannedRaised first) (by omega) (by omega) (by omega)
        · dsimp only
          simp only [Scanned] at first
          split
          · rename_i after closed
            have last := skipCons closed
            simp only [pure,Except.pure,Scanned]
            omega
          · rename_i after comma
            have short := skipCons comma
            have next := skipShort after
            exact scannedPart (members depth (set entries (.text name) entry) (skip after)) (by omega) (by omega) (by omega)
          · trivial

/- What a fault of `loads` says of the text. -/
theorem loadsFault {text : Str} {fault} (raised : loads limits text = .error fault) :
    fault = .malformed ∨ fault = .tooLong ∧ limits.digits < text.length ∨ fault = .tooDeep ∧ limits.depth < text.length := by
  unfold loads at raised
  split at raised
  · cases raised
    exact .inl rfl
  · have short := skipShort text
    have read := (@scanned limits (fuelFor text)).1 limits.depth (skip text)
    generalize scanOnce limits (fuelFor text) limits.depth (skip text) = found at *
    rcases found with error | ⟨value,rest⟩
    · cases raised
      cases fault with
      | malformed => exact .inl rfl
      | tooLong => exact .inr (.inl ⟨rfl,Nat.lt_of_lt_of_le read short⟩)
      | tooDeep => exact .inr (.inr ⟨rfl,Nat.lt_of_lt_of_le read short⟩)
      | unfinished =>
        simp only [Scanned,fuelFor] at read
        omega
    · simp only [bind,Except.bind] at raised
      split at raised
      · cases raised
      · cases raised
        exact .inl rfl

end

/- Whether `json.dumps(…, sort_keys=True)` gives a text, with what is left of the stack. -/

def Key.isText : Key → Bool
  | .text _ => true
  | _ => false

def Key.isNumber : Key → Bool
  | .number _ => true
  | _ => false

def sortable (keys : List Key) : Bool := keys.length ≤ 1 || keys.all Key.isText || keys.all Key.isNumber

def Value.encodes (digits : Nat) : Nat → Value → Bool
  | _,.object => false
  | _,.int value => decide (value.natAbs < 10 ^ digits)
  | 0,.list _ => false
  | depth + 1,.list items => items.all (Value.encodes digits depth)
  | 0,.dict _ => false
  | depth + 1,.dict entries => sortable (entries.map (·.1)) && !(entries.map (·.1)).contains .object &&
      entries.all fun entry => Value.encodes digits depth entry.2
  | _,_ => true

end McpMemory.Values
