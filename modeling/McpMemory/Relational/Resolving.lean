import Mathlib.Algebra.Group.Nat.Defs
import McpMemory.Curation.Adapter
import McpMemory.Memory.Archival
import McpMemory.Memory.Loads

/-! The texts that name a memory: the reference that is written for a number, and what
`resolve_memory_id` makes of any text. Python writes and reads no numeral of more than 4300
digits, and no parameter of an SQLite statement is above 2^63-1. -/
namespace McpMemory.Relational
open Memory Text Transaction
open Curation (ActionError parseMemoryRef formatMemoryRef resolveMemoryId idByRef)

def digitLimit : ActionError := .valueError "Exceeds the limit (4300 digits) for integer string conversion"

/- `str` of a number. -/
def numeral (number : Nat) : Except ActionError String :=
  if (Nat.toDigits 10 number).length ≤ 4300 then .ok (toString number) else .error digitLimit

/- `format_memory_ref` of any number; `formatMemoryRef` has the numbers that a column can hold. -/
def formatReference : Option Int → Except ActionError (Option String)
  | none => .ok none
  | some memoryRef =>
    if memoryRef < 1 then .error (.valueError "memory_ref must be a positive integer")
    else (numeral memoryRef.toNat).map fun digits => some ("mem-" ++ digits)

def Short (number : Nat) : Prop := (Nat.toDigits 10 number).length ≤ 4300

instance {number} : Decidable (Short number) := inferInstanceAs (Decidable (_ ≤ _))

/- What follows the optional prefix. -/
def referenceDigits (value : String) : List Char :=
  let text := (strip value).toList
  if "mem-".toList.isPrefixOf (text.map Char.toLower) then text.drop 4 else text

def isNumeral (digits : List Char) : Bool := !digits.isEmpty && digits.head? != some '0' && digits.all Char.isDigit

/- The number that a text spells, however long. -/
def spelled (value : String) : Option Nat :=
  if isNumeral (referenceDigits value) then some (Nat.ofDigitChars 10 (referenceDigits value) 0) else none

theorem digitValue {c : Char} (digit : c.isDigit = true) : decimalValue c = some (c.toNat - '0'.toNat) := by
  have range : 48 ≤ c.toNat ∧ c.toNat ≤ 57 := by
    simp only [Char.isDigit,Bool.and_eq_true,decide_eq_true_eq] at digit
    exact ⟨digit.1,digit.2⟩
  have first : decimalZeros.find? (fun least => least ≤ c.toNat && c.toNat ≤ least + 9) = some 0x30 := by
    unfold decimalZeros
    exact List.find?_cons_of_pos (by simpa using range)
  rw [decimalValue,first]
  rfl

theorem readAll {digits : List Char} (all : ∀ c ∈ digits, c.isDigit = true) (read : Nat) :
    Text.readDigits read digits = some (Nat.ofDigitChars 10 digits read) := by
  induction digits generalizing read with
  | nil => rfl
  | cons c rest ih =>
    rw [Text.readDigits,digitValue (all c List.mem_cons_self),Nat.ofDigitChars_cons]
    exact ih (fun d member => all d (List.mem_cons_of_mem _ member)) _

theorem numeralDigits {digits : List Char} (numeral : isNumeral digits = true) :
    digits ≠ [] ∧ digits.head? ≠ some '0' ∧ ∀ c ∈ digits, c.isDigit = true := by
  simp only [isNumeral,Bool.and_eq_true,Bool.not_eq_true',List.isEmpty_eq_false_iff,bne_iff_ne,List.all_eq_true] at numeral
  exact ⟨numeral.1.1,numeral.1.2,numeral.2⟩

/- The parser reads the number that is spelled, unless its numeral is too long. -/
theorem parseSpelled (value : String) : parseMemoryRef value =
    match spelled value with
    | none => .ok none
    | some number => if (referenceDigits value).length ≤ 4300 then .ok (some number) else .error digitLimit := by
  unfold spelled parseMemoryRef referenceDigits
  dsimp only
  generalize (if "mem-".toList.isPrefixOf ((strip value).toList.map Char.toLower) then (strip value).toList.drop 4
    else (strip value).toList) = digits
  by_cases numeral : isNumeral digits = true
  · have here : (!digits.isEmpty && digits.head? != some '0' && digits.all Char.isDigit) = true := numeral
    rw [if_pos numeral,if_pos here,parseInt,String.toList_ofList]
    by_cases short : digits.length ≤ 4300
    · rw [if_pos short,readAll (numeralDigits numeral).2.2]
      exact (if_pos short).symm
    · rw [if_neg short]
      exact (if_neg short).symm
  · rw [if_neg numeral]
    exact if_neg numeral

theorem spelledParsed {value : String} {number : Nat} (parsed : parseMemoryRef value = .ok (some number)) :
    spelled value = some number := by
  rw [parseSpelled] at parsed
  cases read : spelled value with
  | none =>
    rw [read] at parsed
    cases parsed
  | some spelt =>
    rw [read] at parsed
    dsimp only at parsed
    split at parsed
    · exact Except.ok.inj parsed
    · cases parsed

/- A numeral without a leading zero is at least as large as its length says. -/
theorem digitsBelow (digits : List Char) (read : Nat) : read * 10 ^ digits.length ≤ Nat.ofDigitChars 10 digits read := by
  induction digits generalizing read with
  | nil => simp
  | cons c rest ih =>
    rw [Nat.ofDigitChars_cons,List.length_cons]
    calc read * 10 ^ (rest.length + 1) = 10 * read * 10 ^ rest.length := by rw [Nat.pow_succ,Nat.mul_comm 10,Nat.mul_assoc,Nat.mul_comm 10]
      _ ≤ (10 * read + (c.toNat - '0'.toNat)) * 10 ^ rest.length := Nat.mul_le_mul_right _ (Nat.le_add_right _ _)
      _ ≤ _ := ih _

theorem longNumeral {digits : List Char} (numeral : isNumeral digits = true) (long : ¬ digits.length ≤ 4300) :
    9223372036854775807 < Nat.ofDigitChars 10 digits 0 := by
  obtain ⟨full,lead,all⟩ := numeralDigits numeral
  cases digits with
  | nil => exact absurd rfl full
  | cons c rest =>
    have digit := all c List.mem_cons_self
    simp only [Char.isDigit,Bool.and_eq_true,decide_eq_true_eq] at digit
    have low : 48 ≤ c.toNat := digit.1
    have apart : c.toNat ≠ 48 := fun same => lead (congrArg some (Char.toNat_inj.mp same))
    have positive : 1 ≤ c.toNat - '0'.toNat := by
      show 1 ≤ c.toNat - 48
      omega
    have tail : 20 ≤ rest.length := by
      rw [List.length_cons] at long
      omega
    calc 9223372036854775807 < 10 ^ 20 := by decide
      _ ≤ 10 ^ rest.length := Nat.pow_le_pow_right (by decide) tail
      _ ≤ (c.toNat - '0'.toNat) * 10 ^ rest.length := Nat.le_mul_of_pos_left _ positive
      _ ≤ Nat.ofDigitChars 10 rest (c.toNat - '0'.toNat) := digitsBelow rest _
      _ = Nat.ofDigitChars 10 (c::rest) 0 := by rw [Nat.ofDigitChars_cons,Nat.mul_zero,Nat.zero_add]

/- Parsing what is written for a number gives the number back. -/
def RoundTrips (number : Nat) : Prop :=
  ∃ text, formatReference (some (number : Int)) = .ok (some text) ∧ parseMemoryRef text = .ok (some number)

def Answers (t : Tables) (value : String) : Prop :=
  ∃ found, resolveMemoryId t value = .ok found ∧ ∀ memoryId ∈ found, t.has memoryId

/- Texts that name one memory are its id or spell one number. -/
def Alike (t : Tables) (a b : String) : Prop := ∀ memoryId, resolveMemoryId t a = .ok (some memoryId) →
  resolveMemoryId t b = .ok (some memoryId) →
  ∃ number, (a = memoryId ∨ spelled a = some number) ∧ (b = memoryId ∨ spelled b = some number)

def Within (t : Tables) (value : String) : Prop :=
  t.has value ∨ ∀ number, spelled value = some number → number ≤ 9223372036854775807

theorem writtenDigits (number : Nat) : referenceDigits ("mem-" ++ toString number) = Nat.toDigits 10 number := by
  have digits : (toString number).toList = Nat.toDigits 10 number := by rw [Nat.toString_eq_repr,Nat.toList_repr]
  have chars : ("mem-" ++ toString number).toList = 'm' :: 'e' :: 'm' :: '-' :: Nat.toDigits 10 number := by
    rw [String.toList_append,digits]
    rfl
  have clear : ∀ c ∈ ("mem-" ++ toString number).toList, isSpace c = false := by
    intro c member
    rw [chars] at member
    simp only [List.mem_cons] at member
    rcases member with rfl | rfl | rfl | rfl | member
    any_goals decide
    have digit := Nat.isDigit_of_mem_toDigits (by omega) (by omega) member
    simp only [Char.isDigit,Bool.and_eq_true,decide_eq_true_eq] at digit
    have low : 48 ≤ c.toNat := digit.1
    have high : c.toNat ≤ 57 := digit.2
    simp only [isSpace,Bool.or_eq_false_iff,Bool.and_eq_false_iff,decide_eq_false_iff_not,beq_eq_false_iff_ne]
    omega
  unfold referenceDigits
  rw [stripClear clear,chars]
  rfl

theorem roundTrips {number : Nat} (positive : 0 < number) : RoundTrips number ↔ Short number := by
  have least : ¬ (number : Int) < 1 := by omega
  unfold RoundTrips formatReference numeral
  dsimp only
  rw [if_neg least,Int.toNat_natCast]
  by_cases short : (Nat.toDigits 10 number).length ≤ 4300
  · rw [if_pos short]
    refine ⟨fun _ => short,fun _ => ⟨_,rfl,?_⟩⟩
    have numeral : isNumeral (Nat.toDigits 10 number) = true := by
      simp only [isNumeral,Bool.and_eq_true,Bool.not_eq_true',List.isEmpty_eq_false_iff,bne_iff_ne,List.all_eq_true]
      exact ⟨⟨Nat.toDigits_ne_nil,Canonical.digitsLead positive⟩,fun c => Nat.isDigit_of_mem_toDigits (by omega) (by omega)⟩
    rw [parseSpelled,spelled,writtenDigits,if_pos numeral,Nat.ofDigitChars_ten_toDigits]
    exact if_pos short
  · rw [if_neg short]
    refine ⟨?_,fun here => absurd here short⟩
    rintro ⟨text,written,_⟩
    cases written

/- The numbers that a column holds are written as `formatMemoryRef` has it. -/
theorem formatShort {memoryRef : Int} (short : Short memoryRef.toNat) :
    formatMemoryRef (some memoryRef) = (formatReference (some memoryRef)).map Memory.optional := by
  unfold formatMemoryRef formatReference
  dsimp only
  split
  · rfl
  · rename_i least
    have positive : (memoryRef.toNat : Int) = memoryRef := Int.toNat_of_nonneg (by omega)
    unfold Short at short
    rw [numeral,if_pos short]
    show Except.ok (Json.str ("mem-" ++ toString memoryRef)) = Except.ok (Json.str ("mem-" ++ toString memoryRef.toNat))
    nth_rewrite 1 [← positive]
    rfl

theorem resolvedHere {t : Tables} {value memoryId : String} (read : resolveMemoryId t value = .ok (some memoryId)) :
    t.has memoryId := by
  rcases Curation.resolvedSource read with ⟨there,rfl⟩ | ⟨_,_,row,member,_,rfl⟩
  · exact there
  · exact List.any_eq_true.mpr ⟨row,member,beq_self_eq_true _⟩

theorem answersWithin {t : Tables} {value : String} : Answers t value ↔ Within t value := by
  have here : ∀ {found}, resolveMemoryId t value = .ok found → Answers t value := fun {found} read =>
    ⟨found,read,fun memoryId given => resolvedHere (Option.mem_def.mp given ▸ read)⟩
  unfold Within
  by_cases there : t.has value
  · refine ⟨fun _ => .inl there,fun _ => here (if_pos there)⟩
  · have unfolded : resolveMemoryId t value = parseMemoryRef value >>= fun memoryRef => match memoryRef with
      | none => .ok none
      | some memoryRef => idByRef t memoryRef := if_neg there
    rw [parseSpelled] at unfolded
    cases read : spelled value with
    | none =>
      rw [read] at unfolded
      exact ⟨fun _ => .inr nofun,fun _ => here unfolded⟩
    | some number =>
      rw [read] at unfolded
      by_cases large : 9223372036854775807 < number
      · have refused : ∃ error, resolveMemoryId t value = .error error := by
          by_cases short : (referenceDigits value).length ≤ 4300
          · rw [unfolded]
            exact ⟨_,(congrArg (· >>= _) (if_pos short)).trans (if_pos large)⟩
          · rw [unfolded]
            exact ⟨_,congrArg (· >>= _) (if_neg short)⟩
        refine ⟨?_,?_⟩
        · rintro ⟨found,answered,_⟩
          obtain ⟨error,failed⟩ := refused
          cases failed.symm.trans answered
        · rintro (has | bound)
          · exact absurd has there
          · exact absurd (bound number rfl) (Nat.not_le.mpr large)
      · have short : (referenceDigits value).length ≤ 4300 := by
          by_contra long
          unfold spelled at read
          split at read
          · exact large (Option.some.inj read ▸ longNumeral (by assumption) long)
          · cases read
        refine ⟨fun _ => .inr fun other same => Option.some.inj same ▸ Nat.not_lt.mp large,fun _ => ?_⟩
        exact here (unfolded.trans ((congrArg (· >>= _) (if_pos short)).trans (if_neg large)))

theorem alike {t : Tables} (keyed : Table.UniqueBy (·.id) t.memories) (a b : String) : Alike t a b := by
  intro memoryId first second
  rcases Curation.resolvedSource first with ⟨_,same⟩ | ⟨number,parsed,row,member,numbered,named⟩
  · rcases Curation.resolvedSource second with ⟨_,same'⟩ | ⟨number,parsed,_⟩
    · exact ⟨0,.inl same.symm,.inl same'.symm⟩
    · exact ⟨number,.inl same.symm,.inr (spelledParsed parsed)⟩
  · rcases Curation.resolvedSource second with ⟨_,same⟩ | ⟨number',parsed',row',member',numbered',named'⟩
    · exact ⟨number,.inr (spelledParsed parsed),.inl same.symm⟩
    · have one : row = row' := Table.equalOfKey keyed member member' (named.trans named'.symm)
      subst one
      cases Int.ofNat.inj (Option.some.inj (numbered.symm.trans numbered'))
      exact ⟨number,.inr (spelledParsed parsed),.inr (spelledParsed parsed')⟩

/- One memory, by its id and by its number. -/
def numbered : Tables := { Memory.empty with
  memories := [⟨"a",some 7,"note","kept",none,"fact","active","t0","t0",none,[]⟩] }

/- 2^63 is the first number that raises. -/
def tooLarge : String := "mem-9223372036854775808"

end McpMemory.Relational
