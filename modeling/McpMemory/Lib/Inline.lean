import McpMemory.Lib.Text

/-! Texts on one line, as lists of characters: the lines and the words of a text as Python's `splitlines`
and `split` give them, and the words joined again with single blanks. -/
namespace McpMemory.Inline
open Text

abbrev Str := List Char

def isLineBreak (c : Char) : Bool :=
  let n := c.toNat
  (10 ≤ n && n ≤ 13) || (28 ≤ n && n ≤ 30) || n == 0x85 || n == 0x2028 || n == 0x2029

/- `line` is what the current line has so far, the last character first. -/
def linesFrom (line : Str) : Str → List Str
  | [] => if line.isEmpty then [] else [line.reverse]
  | '\r':: '\n'::rest => line.reverse :: linesFrom [] rest
  | c::rest => if isLineBreak c then line.reverse :: linesFrom [] rest else linesFrom (c::line) rest

def splitLines (text : Str) : List Str := linesFrom [] text

example : splitLines "a\r\n\x0bb\n".toList = ["a".toList,[],"b".toList] := by decide

def words (text : Str) : List Str := (text.splitOnP isSpace).filter (!·.isEmpty)

def joinWords (parts : List Str) : Str := [' '].intercalate parts

theorem breakSpace {c : Char} (breaks : isLineBreak c = true) : isSpace c = true := by
  unfold isLineBreak at breaks
  unfold isSpace
  simp only [Bool.or_eq_true,Bool.and_eq_true,decide_eq_true_eq,beq_iff_eq] at breaks ⊢
  omega

theorem lineOnce {line text : Str} (whole : ∀ c ∈ text, isLineBreak c = false) :
    linesFrom line text = if line = [] ∧ text = [] then [] else [line.reverse ++ text] := by
  induction text generalizing line with
  | nil => cases line <;> simp [linesFrom]
  | cons c rest ih =>
    have plain := whole c List.mem_cons_self
    have apart : c ≠ '\r' := fun same => absurd (same ▸ plain) (by decide)
    have unfolded : linesFrom line (c::rest) = linesFrom (c::line) rest := by
      rw [linesFrom]
      · rw [if_neg (by simp [plain])]
      · exact fun _ same => absurd same apart
    rw [unfolded,ih fun d member => whole d (List.mem_cons_of_mem _ member)]
    simp

theorem splitFlatten {α : Type} (p : α → Bool) (text : List α) : (text.splitOnP p).flatten = text.filter (!p ·) := by
  induction text with
  | nil => rfl
  | cons c rest ih =>
    rw [List.splitOnP_cons_eq_if_modifyHead]
    cases separates : p c with
    | true => simp [separates,ih]
    | false =>
      obtain ⟨first,others,parts⟩ := List.exists_cons_of_ne_nil (List.splitOnP_ne_nil p rest)
      simp [separates,← ih,parts]

theorem wordsFlatten (text : Str) : (words text).flatten = text.filter (!isSpace ·) := by
  rw [← splitFlatten,words,List.flatten_filter_not_isEmpty]

/- A text without white space, and not empty. -/
structure Solid (word : Str) : Prop where
  full : word ≠ []
  clear : ∀ c ∈ word, isSpace c = false

theorem wordSolid {text word : Str} (member : word ∈ words text) : Solid word := by
  refine ⟨by simpa using (List.mem_filter.mp member).2,fun c inside => ?_⟩
  have kept : c ∈ text.filter (!isSpace ·) := wordsFlatten text ▸ List.mem_flatten.mpr ⟨word,member,inside⟩
  simpa using (List.mem_filter.mp kept).2

theorem wordsNone {text : Str} : words text = [] ↔ AllSpace text := by
  have solid : words text = [] ↔ (words text).flatten = [] := by
    constructor
    · intro none
      rw [none]
      rfl
    · intro empty
      cases listed : words text with
      | nil => rfl
      | cons word rest =>
        have full := (wordSolid (listed ▸ List.mem_cons_self : word ∈ words text)).full
        rw [listed,List.flatten_cons,List.append_eq_nil_iff] at empty
        exact absurd empty.1 full
  rw [solid,wordsFlatten]
  simp [AllSpace]

/- A text of one line: no white space at its ends and inside it blanks only. -/
structure Neat (text : Str) : Prop where
  tight : Tight text
  blanks : ∀ c ∈ text, isSpace c = true → c = ' '

theorem neatNil : Neat [] := ⟨⟨rfl,rfl⟩,nofun⟩

theorem solidNeat {word : Str} (solid : Solid word) : Neat word := by
  have kept {part : Str} (clear : ∀ c ∈ part, isSpace c = false) : part.dropWhile isSpace = part := by
    cases part with
    | nil => rfl
    | cons c rest => simp [clear c List.mem_cons_self]
  refine ⟨⟨kept solid.clear,kept fun c member => solid.clear c (List.mem_reverse.mp member)⟩,fun c member space => ?_⟩
  simp [solid.clear c member] at space

theorem neatJoin {first last : Str} (head : Neat first) (tail : Neat last) (full : first ≠ []) (solid : last ≠ []) :
    Neat (first ++ ' '::last) := by
  refine ⟨tightJoin head.tight tail.tight full solid [' '],fun c member space => ?_⟩
  simp only [List.mem_append,List.mem_cons] at member
  rcases member with member | rfl | member
  · exact head.blanks c member space
  · rfl
  · exact tail.blanks c member space

theorem joinNeat {parts : List Str} (each : ∀ part ∈ parts, Neat part ∧ part ≠ []) :
    Neat (joinWords parts) ∧ (joinWords parts = [] ↔ parts = []) := by
  induction parts with
  | nil => exact ⟨neatNil,by simp [joinWords]⟩
  | cons first rest ih =>
    obtain ⟨neat,full⟩ := each first List.mem_cons_self
    cases rest with
    | nil => simpa [joinWords] using ⟨neat,full⟩
    | cons second others =>
      obtain ⟨later,solid⟩ := ih fun part member => each part (List.mem_cons_of_mem _ member)
      have joined : joinWords (first::second::others) = first ++ ' '::joinWords (second::others) := by
        simp [joinWords,List.intercalate]
      rw [joined]
      exact ⟨neatJoin neat later full (by simp [solid]),by simp⟩

/- `" ".join(value.strip().split())` -/
def normalizeInline (text : Str) : Str := joinWords (words (stripList text))

theorem normalizeNeat (text : Str) : Neat (normalizeInline text) :=
  (joinNeat fun _ member => ⟨solidNeat (wordSolid member),(wordSolid member).full⟩).1

theorem stripBlank {text : Str} : stripList text = [] ↔ AllSpace text := by
  obtain ⟨front,back,before,after,parts⟩ := stripListParts text
  constructor
  · intro none
    rw [parts,none]
    exact fun c member => (List.mem_append.mp member).elim (before c) (after c)
  · intro blank
    rw [stripList,dropAll blank]
    rfl

theorem normalizeEmpty {text : Str} : normalizeInline text = [] ↔ AllSpace text := by
  rw [normalizeInline,(joinNeat fun _ member => ⟨solidNeat (wordSolid member),(wordSolid member).full⟩).2,wordsNone,← stripBlank,
    stripListIdem,stripBlank]

theorem tightStrip {text : Str} (tight : Tight text) : stripList text = text := by
  have alone := @stripListOf [] text [] nofun nofun tight
  rwa [List.nil_append,List.append_nil] at alone

theorem tightSolid {text : Str} (tight : Tight text) (full : text ≠ []) : ¬ AllSpace text := by
  rw [← stripBlank,tightStrip tight]
  exact full

/- The front of a neat text with a mark after it. -/
theorem neatMark {front text : Str} {mark : Char} (neat : Neat text) (prefixed : front <+: text) (solid : isSpace mark = false) :
    Neat (front ++ [mark]) := by
  have blanks : ∀ c ∈ front, isSpace c = true → c = ' ' := fun c member => neat.blanks c (prefixed.subset member)
  refine ⟨⟨?_,by simp [solid]⟩,fun c member space => ?_⟩
  · cases front with
    | nil => simp [solid]
    | cons c rest =>
      obtain ⟨after,rfl⟩ := prefixed
      have clear : isSpace c = false := by
        by_contra space
        have dropped := neat.tight.front
        rw [List.cons_append,List.dropWhile_cons_of_pos (by simpa using space)] at dropped
        have shorter := (List.dropWhile_suffix isSpace (l := rest ++ after)).length_le
        rw [dropped] at shorter
        simp only [List.length_cons] at shorter
        omega
      simp [clear]
  · rcases List.mem_append.mp member with member | member
    · exact blanks c member space
    · rw [List.mem_singleton.mp member,solid] at space
      cases space

end McpMemory.Inline
