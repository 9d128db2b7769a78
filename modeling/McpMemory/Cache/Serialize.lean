import McpMemory.Memory.Loads

/-! `json.dumps(value, sort_keys=True, separators=(",", ":"))` with its own `ensure_ascii`: what the
keys and the tokens of the cache are hashes of. Flat objects that are written alike hold the same
fields. -/
namespace McpMemory.Cache
open Canonical

def hexUnit (n : Nat) : List Char :=
  [backslash, 'u',hexDigit (n / 4096),hexDigit (n / 256 % 16),hexDigit (n / 16 % 16),hexDigit (n % 16)]

/- A character beyond the basic plane is two UTF-16 units. -/
def asciiChar (c : Char) : List Char :=
  if c = quote ∨ c = backslash then [backslash,c]
  else match escapeLetter c with
  | some letter => [backslash,letter]
  | none =>
    if 32 ≤ c.toNat ∧ c.toNat < 127 then [c]
    else if c.toNat < 65536 then hexUnit c.toNat
    else hexUnit (55296 + (c.toNat - 65536) / 1024) ++ hexUnit (56320 + (c.toNat - 65536) % 1024)

def asciiText (text : String) : List Char := quote :: text.toList.flatMap asciiChar ++ [quote]

mutual

def asciiDump : Json → List Char
  | .null => "null".toList
  | .bool value => (if value then "true" else "false").toList
  | .int value => (toString value).toList
  | .str value => asciiText value
  | .arr items => '[' :: joined compact (asciiItems items) ++ [']']
  | .obj fields => Char.ofNat 0x7b :: joined compact ((byKey (asciiFields fields)).map fun field =>
      asciiText field.1 ++ compact.key ++ field.2) ++ [Char.ofNat 0x7d]

def asciiItems : List Json → List (List Char)
  | [] => []
  | item::rest => asciiDump item :: asciiItems rest

def asciiFields : List (String × Json) → List (String × List Char)
  | [] => []
  | (key,value)::rest => (key,asciiDump value) :: asciiFields rest

end

def serializeJson (value : Json) : String := String.ofList (asciiDump value)

/- One character back, from inside a text. -/

def unit (a b c d : Char) : Option Nat := do
  some (4096 * (← hexValue a) + 256 * (← hexValue b) + 16 * (← hexValue c) + (← hexValue d))

def readAscii : List Char → Option (Char × List Char)
  | [] => none
  | c::rest =>
    if c = quote then none
    else if c = backslash then
      match rest with
      | 'u'::a::b::c::d::rest => do
        let high ← unit a b c d
        if high < 55296 ∨ 56320 ≤ high then some (Char.ofNat high,rest)
        else match rest with
        | _::_::a::b::c::d::rest => do
          let low ← unit a b c d
          some (Char.ofNat (65536 + (high - 55296) * 1024 + (low - 56320)),rest)
        | _ => none
      | letter::rest => (unescape letter).map fun c => (c,rest)
      | [] => none
    else some (c,rest)

attribute [local simp] readAscii

theorem unitDigits {n : Nat} (small : n < 65536) :
    unit (hexDigit (n / 4096)) (hexDigit (n / 256 % 16)) (hexDigit (n / 16 % 16)) (hexDigit (n % 16)) = some n := by
  have first := hexValueDigit (n / 4096) (by omega)
  have second := hexValueDigit (n / 256 % 16) (by omega)
  have third := hexValueDigit (n / 16 % 16) (by omega)
  have fourth := hexValueDigit (n % 16) (by omega)
  have whole : 4096 * (n / 4096) + 256 * (n / 256 % 16) + 16 * (n / 16 % 16) + n % 16 = n := by omega
  simp [unit,first,second,third,fourth,whole]

theorem readUnit {n : Nat} (small : n < 65536) (basic : n < 55296 ∨ 56320 ≤ n) (rest : List Char) :
    readAscii (hexUnit n ++ rest) = some (Char.ofNat n,rest) := by
  have slash : backslash ≠ quote := by decide
  simp only [hexUnit,List.cons_append,List.nil_append,readAscii,slash,if_false,if_true,unitDigits small,basic,
    Option.bind_eq_bind,Option.bind_some]

theorem readPair {high low : Nat} (first : 55296 ≤ high ∧ high < 56320) (second : low < 65536) (rest : List Char) :
    readAscii (hexUnit high ++ hexUnit low ++ rest) =
      some (Char.ofNat (65536 + (high - 55296) * 1024 + (low - 56320)),rest) := by
  have slash : backslash ≠ quote := by decide
  have paired : ¬ (high < 55296 ∨ 56320 ≤ high) := by omega
  have small : high < 65536 := by omega
  simp only [hexUnit,List.cons_append,List.nil_append,readAscii,slash,if_false,if_true,unitDigits small,
    unitDigits second,paired,Option.bind_eq_bind,Option.bind_some]

theorem readAsciiChar (c : Char) (rest : List Char) : readAscii (asciiChar c ++ rest) = some (c,rest) := by
  have code := c.ofNat_toNat
  unfold asciiChar
  split
  · rename_i special
    rcases special with rfl | rfl <;> rfl
  · rename_i plain
    rw [not_or] at plain
    split
    · rename_i letter named
      unfold escapeLetter at named
      split at named
      all_goals cases named
      all_goals rename_i same
      all_goals rw [← code,same]
      all_goals rfl
    · split
      · simp [readAscii,plain.1,plain.2]
      · have valid : c.toNat < 55296 ∨ 57343 < c.toNat ∧ c.toNat < 1114112 := c.valid
        split
        · rw [readUnit (by omega) (by omega),code]
        · have whole : 65536 + (55296 + (c.toNat - 65536) / 1024 - 55296) * 1024 +
              (56320 + (c.toNat - 65536) % 1024 - 56320) = c.toNat := by omega
          rw [readPair (by omega) (by omega),whole,code]

theorem textApart {first second : List Char} {rest later}
    (same : first.flatMap asciiChar ++ quote::rest = second.flatMap asciiChar ++ quote::later) :
    first = second ∧ rest = later := by
  have ended : ∀ text, readAscii (quote::text) = none := fun text => by simp [readAscii]
  induction first generalizing second with
  | nil =>
    cases second with
    | nil => exact ⟨rfl,(List.cons.inj same).2⟩
    | cons c second =>
      have read := congrArg readAscii same
      rw [List.flatMap_cons,List.append_assoc,readAsciiChar,List.flatMap_nil,List.nil_append,ended] at read
      cases read
  | cons c first ih =>
    have read := congrArg readAscii same
    rw [List.flatMap_cons,List.append_assoc,readAsciiChar] at read
    cases second with
    | nil =>
      rw [List.flatMap_nil,List.nil_append,ended] at read
      cases read
    | cons d second =>
      rw [List.flatMap_cons,List.append_assoc,readAsciiChar] at read
      simp only [Option.some.injEq,Prod.mk.injEq] at read
      obtain ⟨texts,tails⟩ := ih read.2
      exact ⟨by rw [read.1,texts],tails⟩

theorem asciiTextApart {first second : String} {rest later}
    (same : asciiText first ++ rest = asciiText second ++ later) : first = second ∧ rest = later := by
  simp only [asciiText,List.cons_append,List.append_assoc,List.nil_append,List.cons.injEq,true_and] at same
  obtain ⟨texts,tails⟩ := textApart same
  exact ⟨String.ext texts,tails⟩

inductive Scalar : Json → Prop
  | null : Scalar .null
  | bool (value : Bool) : Scalar (.bool value)
  | int (value : Int) : Scalar (.int value)
  | str (value : String) : Scalar (.str value)

/- A value that is no text is read by its first character. -/
theorem readScalar {value : Json} (scalar : Scalar value) (other : ∀ text, value ≠ .str text) {rest : List Char}
    (closed : Closed rest) : readWord (asciiDump value ++ rest) = some (value,rest) := by
  cases scalar with
  | null => simp [asciiDump,readWord]
  | bool value => cases value <;> simp [asciiDump,readWord]
  | str text => exact absurd rfl (other text)
  | int n =>
    obtain ⟨c,text,shown,numeral⟩ := numberHead n
    have apart : ∀ d, (d.isDigit || d == '-') = false → c ≠ d := fun d => numeralOther numeral
    have letters : c ≠ 'n' ∧ c ≠ 't' ∧ c ≠ 'f' := ⟨apart _ (by decide),apart _ (by decide),apart _ (by decide)⟩
    have read := readNumber n closed
    unfold readWord
    rw [asciiDump,read,shown]
    simp [letters.1.symm,letters.2.1.symm,letters.2.2.symm]

theorem readQuoted (text : List Char) : readWord (quote::text) = none := by
  simp [readWord,readInt,readNat,quote]

/- Two values that are written alike, before anything that does not continue a number. -/
theorem scalarApart {value other : Json} (scalar : Scalar value) (scalar' : Scalar other) {rest later : List Char}
    (closed : Closed rest) (closed' : Closed later) (same : asciiDump value ++ rest = asciiDump other ++ later) :
    value = other ∧ rest = later := by
  have quoted : ∀ {value : Json} {text rest later}, Scalar value → (∀ text, value ≠ .str text) → Closed rest →
      asciiDump value ++ rest ≠ asciiText text ++ later := by
    intro value text rest later scalar other closed same
    have read := readScalar scalar other closed
    rw [same] at read
    simp only [asciiText,List.cons_append,readQuoted] at read
    cases read
  by_cases text : ∃ text, value = .str text
  · obtain ⟨text,rfl⟩ := text
    by_cases text' : ∃ text, other = .str text
    · obtain ⟨text',rfl⟩ := text'
      obtain ⟨rfl,tails⟩ := asciiTextApart same
      exact ⟨rfl,tails⟩
    · exact absurd same.symm (quoted scalar' (fun text is => text' ⟨text,is⟩) closed')
  · have plain : ∀ text, value ≠ .str text := fun given is => text ⟨given,is⟩
    by_cases text' : ∃ text, other = .str text
    · obtain ⟨text',rfl⟩ := text'
      exact absurd same (quoted scalar plain closed)
    · have read := congrArg readWord same
      rw [readScalar scalar plain closed,readScalar scalar' (fun text is => text' ⟨text,is⟩) closed'] at read
      simpa using read

def asciiField (field : String × Json) : List Char := asciiText field.1 ++ compact.key ++ asciiDump field.2

theorem fieldApart {field other : String × Json} (scalar : Scalar field.2) (scalar' : Scalar other.2) {rest later}
    (closed : Closed rest) (closed' : Closed later) (same : asciiField field ++ rest = asciiField other ++ later) :
    field = other ∧ rest = later := by
  simp only [asciiField,List.append_assoc] at same
  obtain ⟨keys,values⟩ := asciiTextApart same
  obtain ⟨values,tails⟩ := scalarApart scalar scalar' closed closed' (List.append_cancel_left values)
  exact ⟨Prod.ext keys values,tails⟩

def close : Char := Char.ofNat 0x7d

/- What follows the first field. -/
def fieldsTail : List (String × Json) → List Char
  | [] => [close]
  | field::rest => ',' :: joined compact ((field::rest).map asciiField) ++ [close]

theorem fieldsFirst (field : String × Json) (rest : List (String × Json)) :
    joined compact ((field::rest).map asciiField) ++ [close] = asciiField field ++ fieldsTail rest := by
  cases rest with
  | nil => simp [joined,fieldsTail]
  | cons next rest =>
    rw [List.map_cons,List.map_cons,joinedMore]
    simp [fieldsTail,compact]

theorem tailClosed (fields : List (String × Json)) : Closed (fieldsTail fields) := by
  cases fields with
  | nil => exact closedMark (by decide) _
  | cons field rest => exact closedMark (by decide) _

theorem fieldsApart {fields others : List (String × Json)} (scalars : ∀ field ∈ fields, Scalar field.2)
    (scalars' : ∀ field ∈ others, Scalar field.2)
    (same : joined compact (fields.map asciiField) ++ [close] = joined compact (others.map asciiField) ++ [close]) :
    fields = others := by
  have opened : ∀ field rest, [close] ≠ asciiField field ++ rest := by
    intro field rest same
    simp only [asciiField,asciiText,List.cons_append,List.append_assoc] at same
    exact absurd (List.cons.inj same).1 (by decide)
  induction fields generalizing others with
  | nil =>
    cases others with
    | nil => rfl
    | cons other others =>
      rw [fieldsFirst] at same
      exact absurd same (opened other _)
  | cons field fields ih =>
    cases others with
    | nil =>
      rw [fieldsFirst] at same
      exact absurd same.symm (opened field _)
    | cons other others =>
      rw [fieldsFirst,fieldsFirst] at same
      obtain ⟨rfl,tails⟩ := fieldApart (scalars _ List.mem_cons_self) (scalars' _ List.mem_cons_self)
        (tailClosed fields) (tailClosed others) same
      have apart : close ≠ ',' := by decide
      cases fields with
      | nil =>
        cases others with
        | nil => rfl
        | cons next others => exact absurd (List.cons.inj tails).1 apart
      | cons next fields =>
        cases others with
        | nil => exact absurd (List.cons.inj tails).1.symm apart
        | cons later others =>
          rw [ih (fun field member => scalars field (List.mem_cons_of_mem _ member))
            (fun field member => scalars' field (List.mem_cons_of_mem _ member)) (List.cons.inj tails).2]

/- Flat objects that are written alike hold the same fields, in whatever order. -/
theorem objectApart {fields others : List (String × Json)} (scalars : ∀ field ∈ fields, Scalar field.2)
    (scalars' : ∀ field ∈ others, Scalar field.2) (same : serializeJson (.obj fields) = serializeJson (.obj others)) :
    fields.Perm others := by
  have written : ∀ fields : List (String × Json),
      asciiDump (.obj fields) = Char.ofNat 0x7b :: (joined compact ((sortKeys fields).map asciiField) ++ [close]) := by
    intro fields
    have mapped : asciiFields fields = fields.map fun field => (field.1,asciiDump field.2) := by
      induction fields with
      | nil => rfl
      | cons field rest ih => rw [asciiFields,ih,List.map_cons]
    have texts : (byKey (asciiFields fields)).map (fun field => asciiText field.1 ++ compact.key ++ field.2) =
        (sortKeys fields).map asciiField := by
      rw [mapped]
      show List.map _ (sortKeys _) = _
      rw [sortKeysMap,List.map_map]
      rfl
    rw [asciiDump,texts]
    rfl
  have ordered : ∀ fields : List (String × Json), (sortKeys fields).Perm fields := fun fields =>
    List.perm_insertionSort _ fields
  have dumps := String.ofList_injective same
  rw [written,written] at dumps
  have fields_ := fieldsApart (fun field member => scalars field ((ordered fields).mem_iff.mp member))
    (fun field member => scalars' field ((ordered others).mem_iff.mp member)) (List.cons.inj dumps).2
  exact (ordered fields).symm.trans (fields_ ▸ ordered others)

end McpMemory.Cache
