import Mathlib.Data.List.Sort
import McpMemory.Memory.Canonical

/-! `json.loads`, for texts with whole numbers and without surrogates, and that it reads what
`json.dumps` writes. -/
namespace McpMemory.Canonical

def isBlank (c : Char) : Bool := c = ' ' || c = '\t' || c = '\n' || c = '\r'

def skip (text : List Char) : List Char := text.dropWhile isBlank

def hexValue (c : Char) : Option Nat :=
  if c.isDigit then some (c.toNat - 48)
  else if 'a' ≤ c && c ≤ 'f' then some (c.toNat - 87)
  else if 'A' ≤ c && c ≤ 'F' then some (c.toNat - 55)
  else none

def hexChar (a b c d : Char) : Option Char := do
  let code := 4096 * (← hexValue a) + 256 * (← hexValue b) + 16 * (← hexValue c) + (← hexValue d)
  if code.isValidChar then some (Char.ofNat code) else none

def unescape (letter : Char) : Option Char :=
  if letter = quote ∨ letter = backslash ∨ letter = '/' then some letter
  else match letter with
  | 'b' => some (Char.ofNat 8)
  | 't' => some (Char.ofNat 9)
  | 'n' => some (Char.ofNat 10)
  | 'f' => some (Char.ofNat 12)
  | 'r' => some (Char.ofNat 13)
  | _ => none

/- From behind the opening quote. -/
def readText : List Char → Option (List Char × List Char)
  | [] => none
  | c::rest =>
    if c = quote then some ([],rest)
    else if c = backslash then
      match rest with
      | 'u'::a::b::c::d::rest => do
        let here ← hexChar a b c d
        let (text,rest) ← readText rest
        some (here::text,rest)
      | letter::rest => do
        let here ← unescape letter
        let (text,rest) ← readText rest
        some (here::text,rest)
      | [] => none
    else if c.toNat < 32 then none
    else do
      let (text,rest) ← readText rest
      some (c::text,rest)

def readNat (text : List Char) : Option (Nat × List Char) :=
  let digits := text.takeWhile Char.isDigit
  if digits = [] ∨ digits.head? = some '0' ∧ digits ≠ ['0'] then none
  else some (Nat.ofDigitChars 10 digits 0,text.dropWhile Char.isDigit)

def readInt : List Char → Option (Int × List Char)
  | '-'::text => (readNat text).map fun read => (-(read.1 : Int),read.2)
  | text => (readNat text).map fun read => ((read.1 : Int),read.2)

def readWord (text : List Char) : Option (Json × List Char) :=
  if "null".toList.isPrefixOf text then some (.null,text.drop 4)
  else if "true".toList.isPrefixOf text then some (.bool true,text.drop 4)
  else if "false".toList.isPrefixOf text then some (.bool false,text.drop 5)
  else (readInt text).map fun read => (.int read.1,read.2)

/- A key that comes again keeps its place and takes the last value. -/
def assemble (fields : List (String × Json)) : Json.Object :=
  fields.foldl (fun object field => Json.set object field.1 field.2) []

mutual

def readValue : Nat → List Char → Option (Json × List Char)
  | 0,_ => none
  | fuel + 1,text =>
    match skip text with
    | [] => none
    | c::rest =>
      if c = quote then (readText rest).map fun read => (.str (String.ofList read.1),read.2)
      else if c = '[' then
        if (skip rest).head? = some ']' then some (.arr [],(skip rest).tail)
        else (readItems fuel rest).map fun read => (.arr read.1,read.2)
      else if c = Char.ofNat 0x7b then
        if (skip rest).head? = some (Char.ofNat 0x7d) then some (.obj [],(skip rest).tail)
        else (readFields fuel rest).map fun read => (.obj (assemble read.1),read.2)
      else readWord (c::rest)

def readItems : Nat → List Char → Option (List Json × List Char)
  | 0,_ => none
  | fuel + 1,text => do
    let (item,rest) ← readValue fuel text
    match skip rest with
    | ']'::rest => some ([item],rest)
    | ','::rest => do
      let (items,rest) ← readItems fuel rest
      some (item::items,rest)
    | _ => none

def readFields : Nat → List Char → Option (List (String × Json) × List Char)
  | 0,_ => none
  | fuel + 1,text =>
    match skip text with
    | [] => none
    | c::rest =>
      if c = quote then do
        let (key,rest) ← readText rest
        match skip rest with
        | ':'::rest => do
          let (value,rest) ← readValue fuel rest
          let rest := skip rest
          if rest.head? = some (Char.ofNat 0x7d) then some ([(String.ofList key,value)],rest.tail)
          else if rest.head? = some ',' then do
            let (fields,rest) ← readFields fuel rest.tail
            some ((String.ofList key,value)::fields,rest)
          else none
        | _ => none
      else none

end

/- No text holds more values than twice its characters. -/
def loads (text : String) : Option Json :=
  match readValue (2 * text.toList.length) text.toList with
  | some (value,rest) => if skip rest = [] then some value else none
  | none => none

example : (loads "\x7b\"b\": [null, -20], \"a\" : \"x\\n\\u0041\"\x7d\n").map (dump compact) =
    some "\x7b\"a\":\"x\\nA\",\"b\":[null,-20]\x7d".toList := by decide +kernel

attribute [local simp] dump

/- What is read back: the fields come in the order of their keys. -/

def sortKeys {α : Type} (fields : List (String × α)) : List (String × α) :=
  fields.insertionSort fun a b => a.1 ≤ b.1

mutual

def arranged : Json → Json
  | .arr items => .arr (arrangedItems items)
  | .obj fields => .obj (assemble (sortKeys (arrangedFields fields)))
  | value => value

def arrangedItems : List Json → List Json
  | [] => []
  | item::rest => arranged item :: arrangedItems rest

def arrangedFields : List (String × Json) → List (String × Json)
  | [] => []
  | (key,value)::rest => (key,arranged value) :: arrangedFields rest

end

/- The separators of `json.dumps` are a mark and blanks. -/
structure Separators.Marked (marks : Separators) where
  item : ∃ pad, marks.item = ',' :: pad ∧ ∀ c ∈ pad, isBlank c
  key : ∃ pad, marks.key = ':' :: pad ∧ ∀ c ∈ pad, isBlank c

theorem oneBlank : ∀ c ∈ [' '], isBlank c := fun _ member => List.mem_singleton.mp member ▸ rfl

theorem spacedMarked : spaced.Marked := ⟨⟨[' '],rfl,oneBlank⟩,⟨[' '],rfl,oneBlank⟩⟩

theorem dumpItemsMap (marks : Separators) (items : List Json) : dumpItems marks items = items.map (dump marks) := by
  induction items with
  | nil => rfl
  | cons item rest ih => simp [dumpItems,ih]

theorem dumpFieldsMap (marks : Separators) (fields : List (String × Json)) :
    dumpFields marks fields = fields.map fun field => (field.1,dump marks field.2) := by
  induction fields with
  | nil => rfl
  | cons field rest ih => simp [dumpFields,ih]

theorem arrangedItemsMap (items : List Json) : arrangedItems items = items.map arranged := by
  induction items with
  | nil => rfl
  | cons item rest ih => simp [arrangedItems,ih]

theorem arrangedFieldsMap (fields : List (String × Json)) :
    arrangedFields fields = fields.map fun field => (field.1,arranged field.2) := by
  induction fields with
  | nil => rfl
  | cons field rest ih => simp [arrangedFields,ih]

theorem sortKeysMap {α β : Type} (f : α → β) (fields : List (String × α)) :
    sortKeys (fields.map fun field => (field.1,f field.2)) =
      (sortKeys fields).map fun field => (field.1,f field.2) :=
  (List.map_insertionSort (fun a b : String × α => a.1 ≤ b.1) (fun a b : String × β => a.1 ≤ b.1)
    (fun field => (field.1,f field.2)) fields fun _ _ _ _ => Iff.rfl).symm

theorem skipBlank {pad : List Char} (blank : ∀ c ∈ pad, isBlank c) (text : List Char) :
    skip (pad ++ text) = skip text := by
  induction pad with
  | nil => rfl
  | cons c pad ih =>
    have here := blank c List.mem_cons_self
    simp [skip,here]
    exact ih fun d member => blank d (List.mem_cons_of_mem _ member)

theorem skipShown {c : Char} (shown : isBlank c = false) (rest : List Char) : skip (c::rest) = c::rest := by
  simp [skip,shown]

theorem valueBlank {pad : List Char} (blank : ∀ c ∈ pad, isBlank c) (fuel : Nat) (text : List Char) :
    readValue fuel (pad ++ text) = readValue fuel text := by
  cases fuel with
  | zero => simp [readValue]
  | succ fuel => rw [readValue,readValue,skipBlank blank]

theorem itemsBlank {pad : List Char} (blank : ∀ c ∈ pad, isBlank c) (fuel : Nat) (text : List Char) :
    readItems fuel (pad ++ text) = readItems fuel text := by
  cases fuel with
  | zero => simp [readItems]
  | succ fuel => rw [readItems,readItems,valueBlank blank]

theorem fieldsBlank {pad : List Char} (blank : ∀ c ∈ pad, isBlank c) (fuel : Nat) (text : List Char) :
    readFields fuel (pad ++ text) = readFields fuel text := by
  cases fuel with
  | zero => simp [readFields]
  | succ fuel => rw [readFields,readFields,skipBlank blank]

theorem hexValueDigit : ∀ n, n < 16 → hexValue (hexDigit n) = some n := by decide

theorem hexCharControl {c : Char} (control : c.toNat < 32) :
    hexChar '0' '0' (hexDigit (c.toNat / 16)) (hexDigit (c.toNat % 16)) = some c := by
  have high := hexValueDigit (c.toNat / 16) (by omega)
  have low := hexValueDigit (c.toNat % 16) (by omega)
  have zero : hexValue '0' = some 0 := rfl
  have whole : 16 * (c.toNat / 16) + c.toNat % 16 = c.toNat := by omega
  have valid : c.toNat.isValidChar := .inl (by omega)
  simp [hexChar,zero,high,low,whole,valid]

theorem readLetter {letter : Char} (other : letter ≠ 'u') (rest : List Char) :
    readText (backslash::letter::rest) = (unescape letter).bind fun here =>
      (readText rest).map fun read => (here::read.1,read.2) := by
  have slash : backslash ≠ quote := by decide
  rw [readText.eq_def]
  simp only [slash,if_false,if_true]
  split
  · rename_i same
    cases same
    exact absurd rfl other
  · rename_i same
    cases same
    cases unescape letter <;> cases readText rest <;> rfl
  · rename_i same
    cases same

theorem readEscaped (c : Char) (rest : List Char) :
    readText (escapeChar c ++ rest) = (readText rest).map fun read => (c::read.1,read.2) := by
  have slash : backslash ≠ quote := by decide
  unfold escapeChar
  split
  · rename_i special
    have letter : unescape c = some c := by
      rcases special with rfl | rfl <;> rfl
    have other : c ≠ 'u' := by
      rcases special with rfl | rfl <;> decide
    rw [List.cons_append,List.cons_append,List.nil_append,readLetter other,letter]
    rfl
  · rename_i plain
    rw [not_or] at plain
    split
    · rename_i letter named
      have back : unescape letter = some c ∧ letter ≠ 'u' := by
        have code := c.ofNat_toNat
        unfold escapeLetter at named
        split at named
        all_goals cases named
        all_goals rename_i same
        all_goals rw [← code,same]
        all_goals decide
      rw [List.cons_append,List.cons_append,List.nil_append,readLetter back.2,back.1]
      rfl
    · split
      · rename_i control
        rw [readText.eq_def]
        simp only [List.cons_append,List.nil_append,slash,if_false,if_true,hexCharControl control]
        cases readText rest <;> rfl
      · rename_i shown
        rw [List.cons_append,List.nil_append,readText.eq_def]
        simp only [plain.1,plain.2,shown,if_false]
        cases readText rest <;> rfl

theorem readWritten (text rest : List Char) :
    readText (text.flatMap escapeChar ++ quote::rest) = some (text,rest) := by
  induction text with
  | nil => rw [List.flatMap_nil,List.nil_append,readText.eq_def]; simp
  | cons c text ih => rw [List.flatMap_cons,List.append_assoc,readEscaped,ih]; rfl

/- Nothing that continues a number. -/
def Closed (rest : List Char) : Prop := ∀ c, rest.head? = some c → c.isDigit = false

theorem digitsLead {n : Nat} (positive : 0 < n) : (Nat.toDigits 10 n).head? ≠ some '0' := by
  induction n using Nat.strongRecOn with
  | ind n ih =>
    by_cases small : n < 10
    · rw [Nat.toDigits_of_lt_base small]
      have digits : ∀ d, d < 10 → 0 < d → d.digitChar ≠ '0' := by decide
      simpa using digits n small positive
    · rw [Nat.toDigits_of_base_le (by omega) (by omega),List.head?_append]
      have lead := ih (n / 10) (by omega) (by omega)
      cases first : (Nat.toDigits 10 (n / 10)).head? with
      | none => exact absurd (List.head?_eq_none_iff.mp first) Nat.toDigits_ne_nil
      | some c => rwa [first] at lead

theorem readDigits (n : Nat) {rest : List Char} (closed : Closed rest) :
    readNat (Nat.toDigits 10 n ++ rest) = some (n,rest) := by
  have digits : ∀ c ∈ Nat.toDigits 10 n, c.isDigit = true := fun c member =>
    Nat.isDigit_of_mem_toDigits (by omega) (by omega) member
  have ended : rest.takeWhile Char.isDigit = [] ∧ rest.dropWhile Char.isDigit = rest := by
    cases rest with
    | nil => exact ⟨rfl,rfl⟩
    | cons c rest =>
      have here := closed c rfl
      simp [here]
  have taken : (Nat.toDigits 10 n ++ rest).takeWhile Char.isDigit = Nat.toDigits 10 n := by
    rw [List.takeWhile_append_of_pos digits,ended.1,List.append_nil]
  have left : (Nat.toDigits 10 n ++ rest).dropWhile Char.isDigit = rest := by
    rw [List.dropWhile_append_of_pos digits,ended.2]
  have fine : ¬ (Nat.toDigits 10 n = [] ∨ (Nat.toDigits 10 n).head? = some '0' ∧ Nat.toDigits 10 n ≠ ['0']) := by
    rintro (none | ⟨zero,more⟩)
    · exact Nat.toDigits_ne_nil none
    · rcases Nat.eq_zero_or_pos n with rfl | positive
      · exact more (Nat.toDigits_zero 10)
      · exact digitsLead positive zero
  unfold readNat
  dsimp only
  rw [taken,left,if_neg fine,Nat.ofDigitChars_ten_toDigits]

theorem readNumber (n : Int) {rest : List Char} (closed : Closed rest) :
    readInt ((toString n).toList ++ rest) = some (n,rest) := by
  rw [Int.toString_eq_repr,Int.repr_eq_if]
  split
  · rename_i positive
    have magnitude : (n.toNat : Int) = n := by omega
    rw [Nat.toList_repr]
    unfold readInt
    split
    · rename_i text same
      -- A number that is not negative starts with a digit.
      cases first : Nat.toDigits 10 n.toNat with
      | nil => exact absurd first Nat.toDigits_ne_nil
      | cons c digits =>
        rw [first,List.cons_append] at same
        have digit := Nat.isDigit_of_mem_toDigits (by omega) (by omega) (first ▸ List.mem_cons_self)
        rw [(List.cons.inj same).1] at digit
        cases digit
    · simp only [readDigits _ closed,Option.map_some,magnitude]
  · rename_i negative
    have magnitude : -((-n).toNat : Int) = n := by omega
    rw [String.toList_append,Nat.toList_repr]
    show readInt ('-' :: (Nat.toDigits 10 (-n).toNat ++ rest)) = some (n,rest)
    simp only [readInt,readDigits _ closed,Option.map_some,magnitude]

/- What a value is read as, whatever follows it. -/
def Reads (marks : Separators) (value : Json) : Prop := ∀ fuel rest, 2 * (dump marks value).length ≤ fuel →
  Closed rest → readValue fuel (dump marks value ++ rest) = some (arranged value,rest)

theorem joinedOne (marks : Separators) (part : List Char) : joined marks [part] = part := by simp [joined]

theorem joinedMore (marks : Separators) (part next : List Char) (parts : List (List Char)) :
    joined marks (part::next::parts) = part ++ marks.item ++ joined marks (next::parts) := by
  simp [joined,List.intersperse]

theorem closedMark {c : Char} (mark : c.isDigit = false) (rest : List Char) : Closed (c::rest) := by
  intro d first
  cases first
  exact mark

theorem readsItems {marks : Separators} (marked : marks.Marked) {item : Json} {items : List Json}
    (each : ∀ value ∈ item::items, Reads marks value) (fuel : Nat) (rest : List Char)
    (enough : 2 * (joined marks ((item::items).map (dump marks))).length < fuel) :
    readItems fuel (joined marks ((item::items).map (dump marks)) ++ ']'::rest) =
      some ((item::items).map arranged,rest) := by
  have shown : isBlank ']' = false ∧ isBlank ',' = false := by decide
  induction items generalizing item fuel with
  | nil =>
    rw [List.map_singleton,joinedOne] at enough ⊢
    cases fuel with
    | zero => omega
    | succ fuel =>
      rw [readItems,each item List.mem_cons_self fuel (']'::rest) (by omega) (closedMark rfl rest)]
      simp [skipShown shown.1]
  | cons next items ih =>
    obtain ⟨pad,separator,blank⟩ := marked.item
    rw [List.map_cons,List.map_cons,joinedMore,← List.map_cons] at enough ⊢
    rw [separator] at enough ⊢
    simp only [List.length_append,List.length_cons] at enough
    cases fuel with
    | zero => omega
    | succ fuel =>
      have first := each item List.mem_cons_self fuel
        (',' :: (pad ++ (joined marks ((next::items).map (dump marks)) ++ ']'::rest))) (by omega) (closedMark rfl _)
      have others := ih (fun value member => each value (List.mem_cons_of_mem _ member)) fuel (by omega)
      simp only [List.append_assoc,List.cons_append] at first others ⊢
      rw [readItems,first]
      simp only [Option.bind_eq_bind,Option.bind_some,skipShown shown.2,itemsBlank blank,others]
      rfl

/- The text of a field. -/
def dumpField (marks : Separators) (field : String × Json) : List Char :=
  dumpText field.1 ++ marks.key ++ dump marks field.2

theorem readsFields {marks : Separators} (marked : marks.Marked) {field : String × Json}
    {fields : List (String × Json)} (each : ∀ other ∈ field::fields, Reads marks other.2) (fuel : Nat)
    (rest : List Char) (enough : 2 * (joined marks ((field::fields).map (dumpField marks))).length < fuel) :
    readFields fuel (joined marks ((field::fields).map (dumpField marks)) ++ Char.ofNat 0x7d :: rest) =
      some ((field::fields).map fun other => (other.1,arranged other.2),rest) := by
  have shown : isBlank (Char.ofNat 0x7d) = false ∧ isBlank ',' = false ∧ isBlank ':' = false ∧
    isBlank quote = false := by decide
  obtain ⟨keyPad,colon,keyBlank⟩ := marked.key
  induction fields generalizing field fuel with
  | nil =>
    rw [List.map_singleton,joinedOne,dumpField,colon] at enough ⊢
    simp only [List.length_append,List.length_cons] at enough
    cases fuel with
    | zero => omega
    | succ fuel =>
      have value := each field List.mem_cons_self fuel (Char.ofNat 0x7d :: rest) (by omega) (closedMark rfl rest)
      simp only [dumpText,List.append_assoc,List.cons_append,List.nil_append]
      rw [readFields,skipShown shown.2.2.2]
      simp only [if_true,readWritten,Option.bind_eq_bind,Option.bind_some,skipShown shown.2.2.1,
        valueBlank keyBlank,value,skipShown shown.1,List.head?_cons]
      simp
  | cons next fields ih =>
    obtain ⟨pad,separator,blank⟩ := marked.item
    rw [List.map_cons,List.map_cons,joinedMore,← List.map_cons,dumpField,colon] at enough ⊢
    rw [separator] at enough ⊢
    simp only [List.length_append,List.length_cons] at enough
    cases fuel with
    | zero => omega
    | succ fuel =>
      have value := each field List.mem_cons_self fuel
        (',' :: (pad ++ (joined marks ((next::fields).map (dumpField marks)) ++ Char.ofNat 0x7d :: rest))) (by omega)
        (closedMark rfl _)
      have others := ih (fun other member => each other (List.mem_cons_of_mem _ member)) fuel (by omega)
      simp only [dumpText,List.append_assoc,List.cons_append,List.nil_append] at value others ⊢
      rw [readFields,skipShown shown.2.2.2]
      simp only [if_true,readWritten,Option.bind_eq_bind,Option.bind_some,skipShown shown.2.2.1,
        valueBlank keyBlank,value,skipShown shown.2.1,List.head?_cons]
      rw [if_neg (by decide),List.tail_cons,fieldsBlank blank,others]
      simp

theorem dumpObject (marks : Separators) (fields : List (String × Json)) : dump marks (.obj fields) =
    Char.ofNat 0x7b :: joined marks ((sortKeys fields).map (dumpField marks)) ++ [Char.ofNat 0x7d] := by
  have texts : (byKey (dumpFields marks fields)).map (fun field => dumpText field.1 ++ marks.key ++ field.2) =
      (sortKeys fields).map (dumpField marks) := by
    rw [dumpFieldsMap]
    show List.map _ (sortKeys _) = _
    rw [sortKeysMap,List.map_map]
    rfl
  rw [dump,texts]

/- The first character of a number, and that of any value. -/

theorem numberHead (n : Int) : ∃ c text, (toString n).toList = c::text ∧ (c.isDigit = true ∨ c = '-') := by
  rw [Int.toString_eq_repr,Int.repr_eq_if]
  split
  · rw [Nat.toList_repr]
    cases first : Nat.toDigits 10 n.toNat with
    | nil => exact absurd first Nat.toDigits_ne_nil
    | cons c digits =>
      exact ⟨c,digits,rfl,.inl (Nat.isDigit_of_mem_toDigits (by omega) (by omega) (first ▸ List.mem_cons_self))⟩
  · exact ⟨'-',_,by rw [String.toList_append]; rfl,.inr rfl⟩

theorem numeralOther {c d : Char} (numeral : c.isDigit = true ∨ c = '-') (other : (d.isDigit || d == '-') = false) :
    c ≠ d := by
  rintro rfl
  simp only [Bool.or_eq_false_iff,beq_eq_false_iff_ne] at other
  rcases numeral with digit | dash
  · exact absurd digit (by simp [other.1])
  · exact other.2 dash

theorem numeralShown {c : Char} (numeral : c.isDigit = true ∨ c = '-') : isBlank c = false := by
  have apart {d} := @numeralOther c d numeral
  simp only [isBlank,Bool.or_eq_false_iff,decide_eq_false_iff_not]
  exact ⟨⟨⟨apart (by decide),apart (by decide)⟩,apart (by decide)⟩,apart (by decide)⟩

theorem valueHead (marks : Separators) (value : Json) : ∃ c text, dump marks value = c::text ∧ isBlank c = false ∧
    c ≠ ']' := by
  cases value with
  | null => exact ⟨_,_,rfl,by decide,by decide⟩
  | bool value => cases value <;> exact ⟨_,_,rfl,by decide,by decide⟩
  | int n =>
    obtain ⟨c,text,shape,numeral⟩ := numberHead n
    exact ⟨c,text,shape,numeralShown numeral,numeralOther numeral (by decide)⟩
  | str text => exact ⟨_,_,rfl,by decide,by decide⟩
  | arr items => exact ⟨_,_,rfl,by decide,by decide⟩
  | obj fields => exact ⟨_,_,rfl,by decide,by decide⟩

/- Neither a text nor an array nor an object. -/
theorem readsWord {c : Char} (shown : isBlank c = false) (text : c ≠ quote) (array : c ≠ '[')
    (object : c ≠ Char.ofNat 0x7b) (fuel : Nat) (rest : List Char) :
    readValue (fuel + 1) (c::rest) = readWord (c::rest) := by
  rw [readValue,skipShown shown]
  simp only [text,array,object,if_false]

theorem readsNull (marks : Separators) : Reads marks .null := by
  intro fuel rest enough _
  cases fuel with
  | zero => exact absurd enough (by simp [dump])
  | succ fuel => exact readsWord (c := 'n') (by decide) (by decide) (by decide) (by decide) fuel _

theorem readsBool (marks : Separators) (value : Bool) : Reads marks (.bool value) := by
  intro fuel rest enough _
  cases fuel with
  | zero => exact absurd enough (by cases value <;> simp [dump])
  | succ fuel =>
    cases value with
    | true => exact readsWord (c := 't') (by decide) (by decide) (by decide) (by decide) fuel _
    | false => exact readsWord (c := 'f') (by decide) (by decide) (by decide) (by decide) fuel _

theorem readsText (marks : Separators) (text : String) : Reads marks (.str text) := by
  intro fuel rest enough _
  have shown : isBlank quote = false := by decide
  simp only [dump,dumpText,List.cons_append,List.append_assoc,List.nil_append] at enough ⊢
  cases fuel with
  | zero => simp at enough
  | succ fuel =>
    rw [readValue,skipShown shown]
    dsimp only
    rw [if_pos rfl,readWritten]
    simp [arranged]

theorem readsInt (marks : Separators) (n : Int) : Reads marks (.int n) := by
  intro fuel rest enough closed
  obtain ⟨c,text,shape,numeral⟩ := numberHead n
  have apart {d} := @numeralOther c d numeral
  have number := readNumber n closed
  simp only [dump] at enough ⊢
  rw [shape] at number enough ⊢
  cases fuel with
  | zero => simp at enough
  | succ fuel =>
    have other {d : Char} (away : (d.isDigit || d == '-') = false) (word : List Char) :
        (d::word).isPrefixOf (c :: (text ++ rest)) = false := by
      have differs : (d == c) = false := beq_eq_false_iff_ne.mpr (apart away).symm
      simp [List.isPrefixOf,differs]
    rw [List.cons_append,readsWord (numeralShown numeral) (apart (by decide)) (apart (by decide)) (apart (by decide)),
      readWord,if_neg (by simp [other]),if_neg (by simp [other]),if_neg (by simp [other])]
    rw [List.cons_append] at number
    rw [number]
    rfl

theorem readsArray {marks : Separators} (marked : marks.Marked) {items : List Json}
    (each : ∀ item ∈ items, Reads marks item) : Reads marks (.arr items) := by
  intro fuel rest enough closed
  have shown : isBlank '[' = false ∧ isBlank ']' = false := by decide
  rw [dump,dumpItemsMap] at enough ⊢
  simp only [List.length_append,List.length_cons] at enough
  cases fuel with
  | zero => omega
  | succ fuel =>
    simp only [List.append_assoc,List.cons_append,List.nil_append]
    rw [readValue,skipShown shown.1,arranged,arrangedItemsMap]
    dsimp only
    rw [if_neg (by decide),if_pos rfl]
    cases items with
    | nil => simp [joined,skipShown shown.2]
    | cons item items =>
      have read := readsItems marked each fuel rest (by omega)
      have first : ∃ c text, joined marks ((item::items).map (dump marks)) = c::text ∧ isBlank c = false ∧ c ≠ ']' := by
        obtain ⟨c,text,shape,blank,other⟩ := valueHead marks item
        cases items with
        | nil => exact ⟨c,text,by rw [List.map_singleton,joinedOne,shape],blank,other⟩
        | cons next items => exact ⟨c,_,by rw [List.map_cons,List.map_cons,joinedMore,shape]; rfl,blank,other⟩
      obtain ⟨c,text,shape,blank,other⟩ := first
      have open' : ¬ (skip (joined marks ((item::items).map (dump marks)) ++ ']'::rest)).head? = some ']' := by
        rw [shape,List.cons_append,skipShown blank]
        simpa using other
      rw [if_neg open',read]
      rfl

theorem readsObject {marks : Separators} (marked : marks.Marked) {fields : List (String × Json)}
    (each : ∀ field ∈ fields, Reads marks field.2) : Reads marks (.obj fields) := by
  intro fuel rest enough closed
  have shown : isBlank (Char.ofNat 0x7b) = false ∧ isBlank (Char.ofNat 0x7d) = false ∧ isBlank quote = false := by
    decide
  rw [dumpObject] at enough ⊢
  simp only [List.length_append,List.length_cons] at enough
  cases fuel with
  | zero => omega
  | succ fuel =>
    simp only [List.append_assoc,List.cons_append,List.nil_append]
    rw [readValue,skipShown shown.1,arranged,arrangedFieldsMap,sortKeysMap]
    dsimp only
    rw [if_neg (by decide),if_neg (by decide),if_pos rfl]
    have members : ∀ field ∈ sortKeys fields, Reads marks field.2 := fun field member =>
      each field ((List.mem_insertionSort _).mp member)
    generalize sortKeys fields = fields at enough members ⊢
    cases fields with
    | nil => simp [joined,skipShown shown.2.1,assemble]
    | cons field fields =>
      have read := readsFields marked members fuel rest (by omega)
      have first : ∃ text, joined marks ((field::fields).map (dumpField marks)) = quote::text := by
        cases fields with
        | nil => exact ⟨_,by rw [List.map_singleton,joinedOne]; rfl⟩
        | cons next fields => exact ⟨_,by rw [List.map_cons,List.map_cons,joinedMore]; rfl⟩
      obtain ⟨text,shape⟩ := first
      have open' : ¬ (skip (joined marks ((field::fields).map (dumpField marks)) ++ Char.ofNat 0x7d :: rest)).head? =
          some (Char.ofNat 0x7d) := by
        have other : quote ≠ Char.ofNat 0x7d := by decide
        rw [shape,List.cons_append,skipShown shown.2.2]
        simpa using other
      rw [if_neg open',read]
      rfl

mutual

theorem reads {marks : Separators} (marked : marks.Marked) : ∀ value, Reads marks value
  | .null => readsNull marks
  | .bool value => readsBool marks value
  | .int n => readsInt marks n
  | .str text => readsText marks text
  | .arr items => readsArray marked (readsEach marked items)
  | .obj fields => readsObject marked (readsField marked fields)

theorem readsEach {marks : Separators} (marked : marks.Marked) : ∀ items : List Json, ∀ item ∈ items, Reads marks item
  | [] => nofun
  | first::items => List.forall_mem_cons.mpr ⟨reads marked first,readsEach marked items⟩

theorem readsField {marks : Separators} (marked : marks.Marked) :
    ∀ fields : List (String × Json), ∀ field ∈ fields, Reads marks field.2
  | [] => nofun
  | (_,value)::fields => List.forall_mem_cons.mpr ⟨reads marked value,readsField marked fields⟩

end

theorem loadsDump {marks : Separators} (marked : marks.Marked) (value : Json) :
    loads (String.ofList (dump marks value)) = some (arranged value) := by
  have read := reads marked value (2 * (dump marks value).length) [] (by omega) fun _ none => by cases none
  rw [List.append_nil] at read
  rw [loads,String.toList_ofList,read]
  rfl

end McpMemory.Canonical
