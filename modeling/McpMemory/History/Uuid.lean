import McpMemory.Curation.Rewrite

/-! UUIDs. Python keeps a UUID as a number; here it is its canonical text, which is what
`str` gives and what every column holds that a UUID was written to. -/
namespace McpMemory.Curation
open Text

theorem removePartClear {part text : List Char} {c : Char} (head : part.head? = some c) (absent : c ∉ text) :
    removePart part 0 text = text := by
  induction text with
  | nil => rfl
  | cons d rest ih =>
    have apart : part.isPrefixOf (d::rest) = false := by
      cases part with
      | nil => cases head
      | cons e part =>
        cases head
        have other : ¬ c = d := fun same => absent (same ▸ List.mem_cons_self)
        simp [List.isPrefixOf,other]
    rw [removePart,apart,ih fun member => absent (List.mem_cons_of_mem _ member)]
    rfl

theorem toLowerCases (c : Char) : 65 ≤ c.toNat ∧ c.toNat ≤ 90 ∧ c.toLower.toNat = c.toNat + 32 ∨ c.toLower = c := by
  unfold Char.toLower
  split
  · rename_i upper
    have bounds : 65 ≤ c.toNat ∧ c.toNat ≤ 90 := by
      simpa [UInt32.le_iff_toNat_le] using upper
    refine .inl ⟨bounds.1,bounds.2,?_⟩
    show (c.val + ('a'.val - 'A'.val)).toNat = c.toNat + 32
    rw [UInt32.toNat_add]
    simp
    omega
  · exact .inr rfl

theorem toLowerIdem (c : Char) : c.toLower.toLower = c.toLower := by
  rcases toLowerCases c with first | same
  · rcases toLowerCases c.toLower with again | same
    · omega
    · exact same
  · rw [same,same]

/- What is left of a text of digits and hyphens are its digits. -/
theorem hexDigitsBare {text : String} (chars : ∀ c ∈ text.toList, isHex c ∨ c = '-') :
    hexDigits text = text.toList.filter (· != '-') := by
  have absent (c : Char) (away : ¬ (c.toNat = 45 ∨ 48 ≤ c.toNat ∧ c.toNat ≤ 57 ∨ 65 ≤ c.toNat ∧ c.toNat ≤ 70 ∨
      97 ≤ c.toNat ∧ c.toNat ≤ 102)) : c ∉ text.toList := fun member => away (hexRange (chars c member))
  have braceless {rest : List Char} (within : ∀ c ∈ rest, c ∈ text.toList) : rest.dropWhile isBrace = rest := by
    cases rest with
    | nil => rfl
    | cons c rest =>
      refine List.dropWhile_cons_of_neg fun brace => ?_
      have member := within c List.mem_cons_self
      simp only [isBrace,Bool.or_eq_true,decide_eq_true_eq] at brace
      rcases brace with rfl | rfl
      · exact absent _ (by decide) member
      · exact absent _ (by decide) member
  unfold hexDigits
  rw [@removePartClear "urn:".toList _ 'u' rfl (absent 'u' (by decide)),
    @removePartClear "uuid:".toList _ 'u' rfl (absent 'u' (by decide))]
  dsimp only
  rw [braceless fun _ => id,braceless fun c member => List.mem_reverse.mp member,List.reverse_reverse]

def hyphenated (digits : List Char) : List Char := digits.take 8 ++ ['-'] ++ (digits.drop 8).take 4 ++ ['-'] ++
  (digits.drop 12).take 4 ++ ['-'] ++ (digits.drop 16).take 4 ++ ['-'] ++ digits.drop 20

theorem hyphenatedDigits {digits : List Char} (hex : '-' ∉ digits) :
    (hyphenated digits).filter (· != '-') = digits := by
  have kept {part : List Char} (within : ∀ c ∈ part, c ∈ digits) : part.filter (· != '-') = part := by
    rw [List.filter_eq_self]
    intro c member
    rw [bne_iff_ne]
    rintro rfl
    exact hex (within _ member)
  have cut (first count : Nat) : (digits.drop first).take count ++ digits.drop (first + count) = digits.drop first := by
    rw [← List.drop_drop,List.take_append_drop]
  have part (first count : Nat) : ((digits.drop first).take count).filter (· != '-') = (digits.drop first).take count :=
    kept fun _ member => List.mem_of_mem_drop (List.mem_of_mem_take member)
  have hyphen : ['-'].filter (· != '-') = [] := rfl
  calc (hyphenated digits).filter (· != '-')
      = digits.take 8 ++ ((digits.drop 8).take 4 ++ ((digits.drop 12).take 4 ++ ((digits.drop 16).take 4 ++
          digits.drop 20))) := by
        simp only [hyphenated,List.filter_append,hyphen,part,kept fun _ => List.mem_of_mem_take,
          kept fun _ => List.mem_of_mem_drop,List.nil_append,List.append_assoc]
    _ = digits := by rw [cut 16 4,cut 12 4,cut 8 4,List.take_append_drop]

/- The canonical text of a UUID is read as it stands. -/
theorem uuidIdem {text canonical : String} (read : uuid text = .ok canonical) : uuid canonical = .ok canonical := by
  have bare := hexDigitsBare (uuidChars read).1
  have low : ∀ c ∈ (hexDigits text).map Char.toLower, c.toLower = c := by
    intro c member
    obtain ⟨d,_,rfl⟩ := List.mem_map.mp member
    exact toLowerIdem d
  unfold uuid at read
  generalize (hexDigits text).map Char.toLower = digits at read low
  dsimp only at read
  split at read
  · rename_i shape
    have hex : '-' ∉ digits := fun member => by
      have here := List.all_eq_true.mp shape.2 _ member
      revert here
      decide
    have whole : hexDigits canonical = digits := by
      rw [bare,← Except.ok.inj read,String.toList_ofList]
      exact hyphenatedDigits hex
    have same : digits.map Char.toLower = digits := (List.map_congr_left low).trans (List.map_id digits)
    unfold uuid
    rw [whole,same]
    dsimp only
    rw [if_pos shape]
    exact read
  · cases read

end McpMemory.Curation

namespace McpMemory.History
open Curation (uuid)

structure Uuid where
  text : String
  canonical : uuid text = .ok text

instance : DecidableEq Uuid := fun a b => decidable_of_iff (a.text = b.text) (by cases a; cases b; simp)

theorem uuidTextInjective {a b : Uuid} (same : a.text = b.text) : a = b := by
  cases a
  cases b
  cases same
  rfl

/- `UUID(text)`. -/
def readUuid (text : String) : Except String Uuid :=
  match read : uuid text with
  | .ok canonical => .ok ⟨canonical,Curation.uuidIdem read⟩
  | .error _ => .error "badly formed hexadecimal UUID string"

theorem readUuidOk {text : String} {id : Uuid} : readUuid text = .ok id ↔ uuid text = .ok id.text := by
  unfold readUuid
  split
  · rename_i canonical read
    obtain ⟨own,fine⟩ := id
    constructor
    · intro same
      cases same
      exact read
    · intro same
      cases Except.ok.inj (read.symm.trans same)
      rfl
  · rename_i read
    rw [read]
    simp

@[simp] theorem readUuidText (id : Uuid) : readUuid id.text = .ok id := readUuidOk.mpr id.canonical

end McpMemory.History
