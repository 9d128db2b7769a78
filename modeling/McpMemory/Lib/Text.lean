import Mathlib.Data.List.DropRight
import Mathlib.Data.List.Infix

/-! Text as Python's `str` treats it. `strip` takes Unicode white space off both ends;
`isDigitText` and `parseInt` are `isdigit` and `int` on unsigned numerals, whose digits
may come from any script. NFC and the letter cases need the whole character database, so
they are given from outside. -/
namespace McpMemory.Text

def isSpace (c : Char) : Bool :=
  let n := c.toNat
  (9 ≤ n && n ≤ 13) || (28 ≤ n && n ≤ 32) || n == 0x85 || n == 0xA0 || n == 0x1680 ||
    (0x2000 ≤ n && n ≤ 0x200A) || n == 0x2028 || n == 0x2029 || n == 0x202F || n == 0x205F || n == 0x3000

def stripList (text : List Char) : List Char :=
  ((text.dropWhile isSpace).reverse.dropWhile isSpace).reverse

def strip (text : String) : String := String.ofList (stripList text.toList)

example : strip " \u2003sweeper\n" = "sweeper" := by decide

def rstrip (text : String) : String :=
  String.ofList (text.toList.reverse.dropWhile isSpace).reverse

def contains (text part : String) : Bool := part.toList <:+: text.toList

def startsWith (text start : String) : Bool := start.toList.isPrefixOf text.toList

def replaceChar (old new : Char) (text : String) : String :=
  String.ofList (text.toList.map fun c => if c = old then new else c)

/- `replace("\r\n", "\n").replace("\r", "\n")`. -/
def lineEndings : List Char → List Char
  | '\r' :: '\n' :: rest => '\n' :: lineEndings rest
  | '\r' :: rest => '\n' :: lineEndings rest
  | c::rest => c :: lineEndings rest
  | [] => []

/- The code points of the zeros of the decimal scripts. -/
def decimalZeros : List Nat := [
  0x30,0x660,0x6F0,0x7C0,0x966,0x9E6,0xA66,0xAE6,0xB66,0xBE6,0xC66,0xCE6,0xD66,0xDE6,0xE50,0xED0,
  0xF20,0x1040,0x1090,0x17E0,0x1810,0x1946,0x19D0,0x1A80,0x1A90,0x1B50,0x1BB0,0x1C40,0x1C50,0xA620,
  0xA8D0,0xA900,0xA9D0,0xA9F0,0xAA50,0xABF0,0xFF10,0x104A0,0x10D30,0x11066,0x110F0,0x11136,0x111D0,
  0x112F0,0x11450,0x114D0,0x11650,0x116C0,0x11730,0x118E0,0x11950,0x11C50,0x11D50,0x11DA0,0x11F50,
  0x16A60,0x16AC0,0x16B50,0x1D7CE,0x1D7D8,0x1D7E2,0x1D7EC,0x1D7F6,0x1E140,0x1E2F0,0x1E4F0,0x1E950,
  0x1FBF0]

/- Digits to `isdigit` that `int` does not read, such as superscripts. -/
def otherDigits : List (Nat × Nat) := [
  (0xB2,0xB3),(0xB9,0xB9),(0x1369,0x1371),(0x19DA,0x19DA),(0x2070,0x2070),(0x2074,0x2079),
  (0x2080,0x2089),(0x2460,0x2468),(0x2474,0x247C),(0x2488,0x2490),(0x24EA,0x24EA),(0x24F5,0x24FD),
  (0x24FF,0x24FF),(0x2776,0x277E),(0x2780,0x2788),(0x278A,0x2792),(0x10A40,0x10A43),
  (0x10E60,0x10E68),(0x11052,0x1105A),(0x1F100,0x1F10A)]

def decimalValue (c : Char) : Option Nat :=
  (decimalZeros.find? fun first => first ≤ c.toNat && c.toNat ≤ first + 9).map (c.toNat - ·)

def isDigit (c : Char) : Bool :=
  (decimalValue c).isSome || otherDigits.any fun (low,high) => low ≤ c.toNat && c.toNat ≤ high

def isDigitText (text : String) : Bool := !text.toList.isEmpty && text.toList.all isDigit

def readDigits (read : Nat) : List Char → Option Nat
  | [] => some read
  | c::rest => match decimalValue c with
    | some digit => readDigits (10 * read + digit) rest
    | none => none

/- Python reads no numeral of more than 4300 digits. -/
def parseInt (text : String) : Option Nat :=
  if text.toList.length ≤ 4300 then readDigits 0 text.toList else none

example : parseInt "٠42" = some 42 := by decide

/- `unicodedata.normalize` to NFC, `str.lower` and `str.upper`. Any part of a normalised
text is normalised. -/
structure Unicode where
  nfc : String → String
  lower : String → String
  upper : String → String
  nfcPart : ∀ text part : String, part.toList <:+: (nfc text).toList → nfc part = part

theorem idParts (text part : String) (_ : part.toList <:+: (id text).toList) : id part = part := rfl

/- On ASCII text. -/
def ascii : Unicode := ⟨id,String.toLower,String.toUpper,idParts⟩

/- Plain text: ASCII, without a carriage return. -/
def isPlain (text : String) : Bool := text.toList.all fun c => c.toNat < 128 && c != '\r'

def isSmall (text : String) : Bool := isPlain text && text.toList.all fun c => c.toNat < 65 || 90 < c.toNat

/- Normal forms and lower case as they are on plain text. -/
structure Unicode.Plain (unicode : Unicode) : Prop where
  nfc : ∀ text, isPlain text → unicode.nfc text = text
  lower : ∀ text, isSmall text → unicode.lower text = text

theorem lineEndingsPlain {text : List Char} (plain : '\r' ∉ text) : lineEndings text = text := by
  fun_induction lineEndings text with
  | case1 rest ih => simp at plain
  | case2 rest _ ih => simp at plain
  | case3 c rest _ _ ih => rw [ih (fun member => plain (List.mem_cons_of_mem _ member))]
  | case4 => rfl

theorem stripListInfix (text : List Char) : stripList text <:+: text :=
  (List.rdropWhile_prefix isSpace (text.dropWhile isSpace)).isInfix.trans
    (List.dropWhile_suffix isSpace).isInfix

/- No white space at either end. -/
structure Tight (text : List Char) : Prop where
  front : text.dropWhile isSpace = text
  back : text.reverse.dropWhile isSpace = text.reverse

def AllSpace (text : List Char) : Prop := ∀ c ∈ text, isSpace c = true

theorem stripListTight (text : List Char) : Tight (stripList text) where
  front := by
    -- Taking off the back leaves the first character where it was.
    rw [List.dropWhile_eq_self_iff]
    intro nonempty
    have kept := (List.rdropWhile_prefix isSpace (text.dropWhile isSpace)).getElem nonempty
    have head := List.dropWhile_eq_self_iff.mp (List.dropWhile_idempotent isSpace text)
    exact fun space => head _ (kept ▸ space)
  back := by
    unfold stripList
    rw [List.reverse_reverse]
    exact List.dropWhile_idempotent isSpace _

theorem dropFront {first : List Char} (head : first.dropWhile isSpace = first) (solid : first ≠ []) (rest : List Char) :
    (first ++ rest).dropWhile isSpace = first ++ rest := by
  rw [List.dropWhile_append,head,if_neg (by simpa using solid)]

theorem dropAll {spaces : List Char} (blank : AllSpace spaces) : spaces.dropWhile isSpace = [] :=
  List.dropWhile_eq_nil_iff.mpr blank

theorem stripListOf {front middle back : List Char} (before : AllSpace front) (after : AllSpace back) (tight : Tight middle) :
    stripList (front ++ (middle ++ back)) = middle := by
  have after : AllSpace back.reverse := fun c member => after c (List.mem_reverse.mp member)
  unfold stripList
  rw [List.dropWhile_append_of_pos before]
  by_cases empty : middle = []
  · rw [empty,List.nil_append,dropAll fun c member => after c (List.mem_reverse.mpr member)]
    rfl
  · rw [dropFront tight.front empty,List.reverse_append,List.dropWhile_append_of_pos after,tight.back,List.reverse_reverse]

theorem stripListParts (text : List Char) : ∃ front back, AllSpace front ∧ AllSpace back ∧
    text = front ++ (stripList text ++ back) := by
  refine ⟨text.takeWhile isSpace,((text.dropWhile isSpace).reverse.takeWhile isSpace).reverse,
    fun c member => List.mem_takeWhile_imp member,fun c member => List.mem_takeWhile_imp (List.mem_reverse.mp member),?_⟩
  rw [stripList,← List.reverse_append,List.takeWhile_append_dropWhile,List.reverse_reverse,List.takeWhile_append_dropWhile]

def rstripList (text : List Char) : List Char := (text.reverse.dropWhile isSpace).reverse

theorem rstripBlank {text : List Char} (blank : stripList text = []) : rstripList text = [] := by
  obtain ⟨front,back,before,after,parts⟩ := stripListParts text
  have spaces : AllSpace text.reverse := fun c member => by
    rw [List.mem_reverse,parts,blank,List.nil_append] at member
    exact (List.mem_append.mp member).elim (before c) (after c)
  rw [rstripList,dropAll spaces]
  rfl

theorem rstripSolid {text : List Char} (solid : stripList text ≠ []) :
    ∃ front, AllSpace front ∧ rstripList text = front ++ stripList text := by
  obtain ⟨front,back,before,after,parts⟩ := stripListParts text
  have after : AllSpace back.reverse := fun c member => after c (List.mem_reverse.mp member)
  refine ⟨front,before,?_⟩
  unfold rstripList
  have turned : text.reverse = back.reverse ++ ((stripList text).reverse ++ front.reverse) := by
    rw [← List.reverse_append,← List.reverse_append,List.append_assoc]
    exact congrArg List.reverse parts
  rw [turned,List.dropWhile_append_of_pos after,dropFront (stripListTight text).back (by simpa using solid),
    List.reverse_append,List.reverse_reverse,List.reverse_reverse]

theorem tightJoin {first last : List Char} (head : Tight first) (tail : Tight last) (solid : first ≠ []) (full : last ≠ [])
    (between : List Char) : Tight (first ++ (between ++ last)) where
  front := dropFront head.front solid _
  back := by
    rw [List.reverse_append,List.reverse_append,List.append_assoc]
    exact dropFront tail.back (by simpa using full) _

theorem stripListJoin {text last between : List Char} (blank : AllSpace between) (tight : Tight last) (full : last ≠ []) :
    stripList (rstripList text ++ (between ++ last)) =
      if stripList text = [] then last else stripList text ++ (between ++ last) := by
  split
  · rename_i empty
    rw [rstripBlank empty,List.nil_append]
    have alone := @stripListOf between last [] blank nofun tight
    rwa [List.append_nil] at alone
  · rename_i solid
    obtain ⟨front,before,same⟩ := rstripSolid solid
    have joined := @stripListOf front _ [] before nofun (tightJoin (stripListTight text) tight solid full between)
    rw [same,List.append_assoc]
    rwa [List.append_nil] at joined

theorem stripListIdem (text : List Char) : stripList (stripList text) = stripList text := by
  have same := @stripListOf [] (stripList text) [] nofun nofun (stripListTight text)
  rwa [List.nil_append,List.append_nil] at same

theorem stripClear {text : String} (clear : ∀ c ∈ text.toList, isSpace c = false) : strip text = text := by
  have front {rest : List Char} (clear : ∀ c ∈ rest, isSpace c = false) : rest.dropWhile isSpace = rest := by
    cases rest with
    | nil => rfl
    | cons c rest => rw [List.dropWhile_cons_of_neg (by simp [clear c List.mem_cons_self])]
  unfold strip stripList
  rw [front clear,front (by simpa using clear),List.reverse_reverse,String.ofList_toList]

theorem stripInfix (text : String) : (strip text).toList <:+: text.toList := by
  rw [strip,String.toList_ofList]
  exact stripListInfix text.toList

/- A part without white space at its ends survives a strip. -/
theorem dropKeeps {part text : List Char} (tight : part.dropWhile isSpace = part) (inside : part <:+: text) :
    part <:+: text.dropWhile isSpace := by
  induction text with
  | nil => exact inside
  | cons c rest ih =>
    cases space : isSpace c with
    | false => rwa [List.dropWhile_cons_of_neg (by simp [space])]
    | true =>
      rw [List.dropWhile_cons_of_pos space]
      rcases List.infix_cons_iff.mp inside with first | later
      · cases part with
        | nil => exact List.nil_infix
        | cons d tail =>
          obtain ⟨rfl,_⟩ := List.cons_prefix_cons.mp first
          rw [List.dropWhile_cons_of_pos space] at tight
          exact absurd (congrArg List.length tight) (by
            have shorter := (List.dropWhile_suffix isSpace (l := tail)).length_le
            simp only [List.length_cons]
            omega)
      · exact ih later

theorem stripListKeeps {part text : List Char} (tight : stripList part = part) (inside : part <:+: text) :
    part <:+: stripList text := by
  have front : part.dropWhile isSpace = part := by
    refine (List.dropWhile_suffix isSpace).eq_of_length_le ?_
    have shorter : (stripList part).length ≤ (part.dropWhile isSpace).length := by
      have back := (List.dropWhile_suffix isSpace (l := (part.dropWhile isSpace).reverse)).length_le
      simpa [stripList] using back
    rwa [tight] at shorter
  have back : part.reverse.dropWhile isSpace = part.reverse := by
    have same : (part.reverse.dropWhile isSpace).reverse = part := by
      unfold stripList at tight
      rwa [front] at tight
    exact List.reverse_injective (by rw [same,List.reverse_reverse])
  have first := dropKeeps front inside
  have last := dropKeeps back (List.reverse_infix.mpr first)
  exact List.reverse_infix.mp (by simpa [stripList] using last)

theorem stripContains {text part : String} (inside : contains text (strip part) = true) :
    contains (strip text) (strip part) = true := by
  simp only [contains,strip,String.toList_ofList,decide_eq_true_eq] at inside ⊢
  exact stripListKeeps (stripListIdem _) inside

/- Only white space goes. -/
theorem stripKeeps {text : String} {c : Char} (member : c ∈ text.toList) (solid : isSpace c = false) :
    c ∈ (strip text).toList := by
  have kept : ∀ rest : List Char, c ∈ rest → c ∈ rest.dropWhile isSpace := by
    intro rest inside
    rw [← rest.takeWhile_append_dropWhile (p := isSpace)] at inside
    rcases List.mem_append.mp inside with dropped | left
    · rw [List.mem_takeWhile_imp dropped] at solid
      cases solid
    · exact left
  simpa [strip,stripList] using kept _ (List.mem_reverse.mpr (kept _ member))

theorem stripJoin (text : String) {last : String} (solid : strip last ≠ "") :
    strip (rstrip text ++ "\n\n" ++ strip last) = if strip text = "" then strip last else strip text ++ "\n\n" ++ strip last := by
  have full : stripList last.toList ≠ [] := fun empty => solid (by rw [strip,empty])
  have blank : AllSpace ['\n','\n'] := by
    intro c member
    rw [show c = '\n' by simpa using member]
    rfl
  have joined := @stripListJoin text.toList _ _ blank (stripListTight last.toList) full
  have empty : strip text = "" ↔ stripList text.toList = [] := by
    rw [← String.toList_inj,strip,String.toList_ofList]
    rfl
  rw [← String.toList_inj,strip,String.toList_ofList,String.toList_append,String.toList_append,rstrip,String.toList_ofList]
  refine Eq.trans (congrArg stripList ?_) (joined.trans ?_)
  · rw [strip,String.toList_ofList,String.toList_ofList,List.append_assoc]
    rfl
  · simp only [empty]
    split <;> simp [strip]

theorem stripIdem (text : String) : strip (strip text) = strip text := by
  unfold strip
  rw [String.toList_ofList,stripListIdem]

end McpMemory.Text
