import McpMemory.Lib.Inline
import Mathlib.Data.List.Sort

/-! `core/summaries.py`: the summary of a memory made of its own text. Texts are lists of characters;
a regular expression is the function that it is of a text. -/
namespace McpMemory.Summaries
open Text Inline

def maxSummaryChars : Nat := 220

/- `_BULLET_PREFIX_RE`, with what follows the match. -/
def afterBullet (text : Str) : Option Str :=
  match text.dropWhile isSpace with
  | mark::blank::rest => if "-*+".toList.contains mark && isSpace blank then some (rest.dropWhile isSpace) else none
  | _ => none

def afterMark (text : Str) : Str :=
  match text with
  | c::rest => if c = '-' ∨ c = '*' then rest.dropWhile isSpace else text
  | [] => []

/- `_TIMESTAMP_PREFIX_RE`, with what follows the match. -/
def afterTimestamp (text : Str) : Option Str :=
  match afterMark (text.dropWhile isSpace) with
  | '['::rest => match rest.takeWhile (· ≠ ']'),rest.dropWhile (· ≠ ']') with
    | _::_,_::after => some (after.dropWhile isSpace)
    | _,_ => none
  | _ => none

/- The group of `_HEADING_RE` in a line without white space at its ends. -/
def headingOf (line : Str) : Option Str :=
  let indented := line.takeWhile isSpace
  let marks := (line.dropWhile isSpace).takeWhile (· = '#')
  let after := (line.dropWhile isSpace).dropWhile (· = '#')
  if 3 < indented.length ∨ marks.isEmpty then none
  else match after with
    | blank::rest => if isSpace blank && !(rest.dropWhile isSpace).isEmpty then some (rest.dropWhile isSpace) else none
    | [] => none

example : headingOf "##  Plan b".toList = some "Plan b".toList ∧ afterTimestamp "- [12:30] met".toList = some "met".toList := by
  decide

def stripLinePrefix (value : Str) : Str :=
  let stripped := (afterBullet value).getD value
  stripList ((afterTimestamp stripped).getD stripped)

/- The pieces between the matches of `(?<=[.!?])\s+`. `part` has the last character first; `skip` is set
inside a match. -/
def pieces (skip : Bool) (part : Str) : Str → List Str
  | [] => [part.reverse]
  | c::rest =>
    if isSpace c && skip then pieces true part rest
    else if isSpace c && part.head?.any (".!?".toList.contains ·) then part.reverse :: pieces true [] rest
    else pieces false (c::part) rest

def splitSentences (text : Str) : List Str :=
  let normalized := normalizeInline text
  if normalized.isEmpty then [] else ((pieces false [] normalized).map stripList).filter (!·.isEmpty)

def rstripOf (marks : Str) (text : Str) : Str := (text.reverse.dropWhile (marks.contains ·)).reverse

def trimSummary (value : Str) (maxChars : Nat) : Str :=
  let normalized := normalizeInline value
  if normalized.length ≤ maxChars then normalized
  else rstripOf " ,;:-".toList (normalized.take (maxChars - 1)) ++ ['…']

def isTokenChar (c : Char) : Bool := c.isAlphanum || c == '_' || c == ':' || c == '-'

/- `_TOKEN_PATTERN` has ASCII characters only. -/
def tokenSet (value : Str) : List Str :=
  (((value.splitOnP (!isTokenChar ·)).filter (!·.isEmpty)).map (·.map Char.toLower)).dedup

def signalVerbs : List String := [
  "add","added","archive","archived","capture","captured","clean","completed","consolidates","create","created","document",
  "documents","fix","fixed","harden","hardened","implement","implemented","improve","improved","link","linked","merge",
  "merged","normalize","normalized","record","records","refresh","refreshed","repair","repaired","split","summarize",
  "summarized","surface","surfaces","track","tracked","update","updated","verify","verified"]

/- The floats that are compared are small whole numbers. -/
structure SentenceScore where
  total : Int
  overlap : Int
  distance : Int

def SentenceScore.le (a b : SentenceScore) : Bool :=
  a.total < b.total || a.total == b.total && (a.overlap < b.overlap || a.overlap == b.overlap && a.distance ≤ b.distance)

def sentenceScore (sentence : Str) (titleTokens : List Str) : SentenceScore :=
  let sentenceTokens := tokenSet sentence
  let overlap := sentenceTokens.countP (titleTokens.contains ·)
  let verbs := sentenceTokens.countP fun token => signalVerbs.any (·.toList == token)
  let length := sentence.length
  let lengthBonus := if 40 ≤ length ∧ length ≤ 180 then 2 else if 20 ≤ length ∧ length ≤ 220 then 1 else 0
  let punctuationBonus := if sentence.contains ':' || sentence.contains ';' then 1 else 0
  ⟨overlap * 4 + verbs * 3 + lengthBonus + punctuationBonus,overlap,-(((length : Int) - 96).natAbs : Int)⟩

section
variable (unicode : Unicode)

def lowered (text : Str) : String := unicode.lower (String.ofList text)

/- The lines with something in them, without white space at their ends. -/
def nonEmptyLines (content : Str) : List Str := ((splitLines content).map stripList).filter (!·.isEmpty)

def lineCandidates (title line : Str) : List Str :=
  match headingOf line with
  | some group =>
    let heading := normalizeInline group
    if !heading.isEmpty && lowered unicode heading != lowered unicode title then [heading] else []
  | none => splitSentences (normalizeInline (stripLinePrefix line))

def candidateSentences (title content : Str) : List Str := (nonEmptyLines content).flatMap (lineCandidates unicode title)

def buildSimpleProseSummary (content : Str) (maxChars : Nat) : Option Str :=
  match nonEmptyLines content with
  | [line] =>
    if (afterBullet line).isSome || (headingOf line).isSome then none
    else match splitSentences line with
      | [sentence] => if sentence.length ≤ maxChars then some sentence else none
      | first::second::_ =>
        let joined := stripList (first ++ ' '::second)
        if joined.length ≤ maxChars then some joined else none
      | [] => none
  | _ => none

def bulletPhrase (value : Str) : Str :=
  let lead := (splitSentences value).headD value
  if lead.contains ':' then
    let left := lead.takeWhile (· ≠ ':')
    if 0 < (stripList left).length ∧ (stripList left).length ≤ 80 then normalizeInline left
    else normalizeInline ((lead.dropWhile (· ≠ ':')).drop 1)
  else normalizeInline lead

def uniquePhrases (seen : List String) : List Str → List Str
  | [] => []
  | phrase::rest =>
    let normalized := rstripOf ". ".toList (stripList phrase)
    if normalized.isEmpty || seen.contains (lowered unicode normalized) then uniquePhrases seen rest
    else normalized :: uniquePhrases (lowered unicode normalized :: seen) rest

def joinPhrases (phrases : List Str) : Str :=
  match uniquePhrases unicode [] phrases with
  | [] => "key points".toList
  | [phrase] => phrase
  | [first,second] => first ++ " and ".toList ++ second
  | many => ", ".toList.intercalate many.dropLast ++ ", and ".toList ++ many.getLastD []

def bulletLines (content : Str) : List Str :=
  ((nonEmptyLines content).filter fun line =>
    (headingOf line).isNone && ((afterBullet line).isSome || (afterTimestamp line).isSome)).map
      fun line => normalizeInline (stripLinePrefix line)

def buildBulletSummary (content : Str) (memoryType : Option String) (maxChars : Nat) : Option Str :=
  if (bulletLines content).length < 2 then none
  else
    let phrases := ((bulletLines content).map bulletPhrase).filter (!·.isEmpty)
    if phrases.isEmpty then none
    else
      let lead := if memoryType = some "reflection" ∨ "Consolidated observations:".toList.isPrefixOf content then "Consolidates"
        else "Covers"
      some (trimSummary (lead.toList ++ ' '::joinPhrases unicode (phrases.take 3) ++ ['.']) maxChars)

/- The first of those with the highest score: `sorted` is stable, also in reverse. -/
def ranked (sentences : List Str) (titleTokens : List Str) : List Str :=
  sentences.insertionSort fun a b => (sentenceScore b titleTokens).le (sentenceScore a titleTokens)

/- What is left when no sentence is chosen. -/
def lineSummary (stripped : Str) (maxChars : Nat) : Str :=
  match ((splitLines stripped).map fun line => normalizeInline (stripLinePrefix line)).filter (!·.isEmpty) with
  | line::_ => if line.length ≤ maxChars then line else trimSummary line maxChars
  | [] => trimSummary (normalizeInline stripped) maxChars

def sentenceSummary (title stripped : Str) (maxChars : Nat) : Str :=
  match ranked (candidateSentences unicode title stripped) (tokenSet title) with
  | best::_ =>
    let summary := trimSummary best maxChars
    if summary.isEmpty then lineSummary stripped maxChars else summary
  | [] => lineSummary stripped maxChars

/- The strategies in their order. -/
def chosenSummary (title stripped : Str) (memoryType : Option String) (maxChars : Nat) : Str :=
  match buildBulletSummary unicode stripped memoryType maxChars with
  | some summary => summary
  | none => match buildSimpleProseSummary stripped maxChars with
    | some summary => summary
    | none => sentenceSummary unicode title stripped maxChars

def buildDeterministicSummary (title content : String) (memoryType : Option String) (maxChars : Nat) : String :=
  let normalizedTitle := normalizeInline title.toList
  let stripped := stripList content.toList
  if stripped.isEmpty then "" else String.ofList (chosenSummary unicode normalizedTitle stripped memoryType maxChars)

end

/- What every branch returns for a text that is not blank. -/
structure Shaped (maxChars : Nat) (summary : Str) : Prop where
  neat : Neat summary
  short : summary.length ≤ maxChars
  full : summary ≠ []

theorem trimShaped {value : Str} {maxChars : Nat} (positive : 1 ≤ maxChars) (solid : ¬ AllSpace value) :
    Shaped maxChars (trimSummary value maxChars) := by
  unfold trimSummary
  dsimp only
  split
  · rename_i short
    exact ⟨normalizeNeat value,short,fun none => solid (normalizeEmpty.mp none)⟩
  · have front : rstripOf " ,;:-".toList ((normalizeInline value).take (maxChars - 1)) <+: (normalizeInline value).take (maxChars - 1) :=
      List.rdropWhile_prefix _ _
    refine ⟨neatMark (normalizeNeat value) (front.trans (List.take_prefix _ _)) (by decide),?_,by simp⟩
    have shorter := front.length_le
    rw [List.length_take] at shorter
    rw [List.length_append,List.length_singleton]
    omega

theorem piecesWithin {skip : Bool} {part text piece : Str} (member : piece ∈ pieces skip part text) :
    ∀ c ∈ piece, c ∈ part ∨ c ∈ text := by
  induction text generalizing skip part with
  | nil =>
    rw [List.mem_singleton.mp member]
    exact fun c inside => .inl (List.mem_reverse.mp inside)
  | cons d rest ih =>
    intro c inside
    unfold pieces at member
    split at member
    · exact (ih member c inside).imp_right (List.mem_cons_of_mem _)
    · split at member
      · rcases List.mem_cons.mp member with rfl | later
        · exact .inl (List.mem_reverse.mp inside)
        · exact .inr (List.mem_cons_of_mem _ ((ih later c inside).resolve_left List.not_mem_nil))
      · rcases ih member c inside with before | after
        · exact (List.mem_cons.mp before).elim (fun same => .inr (same ▸ List.mem_cons_self)) .inl
        · exact .inr (List.mem_cons_of_mem _ after)

theorem sentenceNeat {text sentence : Str} (member : sentence ∈ splitSentences text) : Neat sentence ∧ sentence ≠ [] := by
  unfold splitSentences at member
  dsimp only at member
  split at member
  · cases member
  · obtain ⟨stripped,full⟩ := List.mem_filter.mp member
    obtain ⟨piece,listed,rfl⟩ := List.mem_map.mp stripped
    refine ⟨⟨stripListTight piece,fun c inside space => ?_⟩,by simpa using full⟩
    have within := (piecesWithin listed c ((stripListInfix piece).subset inside)).resolve_left List.not_mem_nil
    exact (normalizeNeat text).blanks c within space

theorem simpleShaped {content summary : Str} {maxChars : Nat} (built : buildSimpleProseSummary content maxChars = some summary) :
    Shaped maxChars summary := by
  unfold buildSimpleProseSummary at built
  split at built
  · rename_i line _
    split at built
    · cases built
    · cases sentences : splitSentences line with
      | nil => simp [sentences] at built
      | cons first rest =>
        obtain ⟨head,full⟩ := sentenceNeat (sentences ▸ List.mem_cons_self : first ∈ splitSentences line)
        cases rest with
        | nil =>
          simp only [sentences,Option.ite_none_right_eq_some,Option.some.injEq] at built
          obtain ⟨short,rfl⟩ := built
          exact ⟨head,short,full⟩
        | cons second others =>
          obtain ⟨tail,solid⟩ := sentenceNeat (sentences ▸ List.mem_cons_of_mem _ List.mem_cons_self : second ∈ splitSentences line)
          have joined := neatJoin head tail full solid
          simp only [sentences,tightStrip joined.tight,Option.ite_none_right_eq_some,Option.some.injEq] at built
          obtain ⟨short,rfl⟩ := built
          exact ⟨joined,short,by simp⟩
  · cases built

theorem lineShaped {stripped : Str} {maxChars : Nat} (positive : 1 ≤ maxChars) (solid : ¬ AllSpace stripped) :
    Shaped maxChars (lineSummary stripped maxChars) := by
  unfold lineSummary
  split
  · rename_i line rest listed
    obtain ⟨made,full⟩ := List.mem_filter.mp (listed ▸ List.mem_cons_self)
    obtain ⟨source,_,rfl⟩ := List.mem_map.mp made
    have neat := normalizeNeat (stripLinePrefix source)
    have full : normalizeInline (stripLinePrefix source) ≠ [] := by simpa using full
    split
    · rename_i short
      exact ⟨neat,short,full⟩
    · exact trimShaped positive (tightSolid neat.tight full)
  · refine trimShaped positive (tightSolid (normalizeNeat stripped).tight fun none => solid (normalizeEmpty.mp none))

section
variable {unicode : Unicode}

theorem bulletShaped {content summary : Str} {memoryType : Option String} {maxChars : Nat} (positive : 1 ≤ maxChars)
    (built : buildBulletSummary unicode content memoryType maxChars = some summary) : Shaped maxChars summary := by
  unfold buildBulletSummary at built
  split at built
  · cases built
  · dsimp only at built
    split at built
    · cases built
    · rw [← Option.some.inj built]
      refine trimShaped positive fun blank => ?_
      have lead : isSpace 'C' = true := blank 'C' (by split <;> simp)
      exact absurd lead (by decide)

theorem candidateNeat {title content sentence : Str} (member : sentence ∈ candidateSentences unicode title content) :
    Neat sentence ∧ sentence ≠ [] := by
  obtain ⟨line,_,listed⟩ := List.mem_flatMap.mp member
  unfold lineCandidates at listed
  split at listed
  · dsimp only at listed
    split at listed
    · rename_i shown
      rw [List.mem_singleton.mp listed]
      exact ⟨normalizeNeat _,by simpa using (Bool.and_eq_true_iff.mp shown).1⟩
    · cases listed
  · exact sentenceNeat listed

theorem sentenceShaped {title stripped : Str} {maxChars : Nat} (positive : 1 ≤ maxChars) (solid : ¬ AllSpace stripped) :
    Shaped maxChars (sentenceSummary unicode title stripped maxChars) := by
  unfold sentenceSummary
  split
  · rename_i best rest order
    dsimp only
    split
    · exact lineShaped positive solid
    · have chosen : best ∈ candidateSentences unicode title stripped :=
        (List.mem_insertionSort _).mp (order ▸ List.mem_cons_self : best ∈ ranked _ _)
      exact trimShaped positive (tightSolid (candidateNeat chosen).1.tight (candidateNeat chosen).2)
  · exact lineShaped positive solid

theorem chosenShaped {title stripped : Str} {memoryType : Option String} {maxChars : Nat} (positive : 1 ≤ maxChars)
    (solid : ¬ AllSpace stripped) : Shaped maxChars (chosenSummary unicode title stripped memoryType maxChars) := by
  unfold chosenSummary
  split
  · rename_i built
    exact bulletShaped positive built
  · split
    · rename_i built
      exact simpleShaped built
    · exact sentenceShaped positive solid

end

/- A single line without white space at its ends. -/
structure OneLine (maxChars : Nat) (summary : String) : Prop where
  short : summary.toList.length ≤ maxChars
  tight : strip summary = summary
  line : splitLines summary.toList = if summary = "" then [] else [summary.toList]

theorem neatLine {maxChars : Nat} {summary : Str} (neat : Neat summary) (short : summary.length ≤ maxChars) :
    OneLine maxChars (String.ofList summary) := by
  refine ⟨by simpa using short,by simp [strip,tightStrip neat.tight],?_⟩
  have whole : ∀ c ∈ summary, isLineBreak c = false := by
    intro c member
    by_contra breaks
    have blank := neat.blanks c member (breakSpace (by simpa using breaks))
    rw [blank] at breaks
    exact breaks (by decide)
  rw [splitLines,String.toList_ofList,lineOnce whole]
  simp

theorem summaryShape (unicode : Unicode) (title content : String) (memoryType : Option String) (maxChars : Nat)
    (positive : 1 ≤ maxChars) :
    OneLine maxChars (buildDeterministicSummary unicode title content memoryType maxChars) ∧
      (buildDeterministicSummary unicode title content memoryType maxChars = "" ↔ strip content = "") := by
  have blankIff : strip content = "" ↔ stripList content.toList = [] := by simp [strip,← String.toList_inj]
  rw [blankIff]
  unfold buildDeterministicSummary
  dsimp only
  split
  · rename_i empty
    exact ⟨neatLine neatNil (Nat.zero_le _),by simpa using empty⟩
  · rename_i full
    rw [List.isEmpty_iff] at full
    have shaped : Shaped maxChars (chosenSummary unicode (normalizeInline title.toList) (stripList content.toList) memoryType maxChars) :=
      chosenShaped positive (tightSolid (stripListTight _) full)
    refine ⟨neatLine shaped.neat shaped.short,⟨fun empty => ?_,fun blank => absurd blank full⟩⟩
    exact absurd (String.ofList_eq_empty_iff.mp empty) shaped.full

theorem summaryShapeSample :
    OneLine 20 (buildDeterministicSummary ascii "Plan" "- the first step\n- [now] the second" none 20) ∧
      (buildDeterministicSummary ascii "Plan" "- the first step\n- [now] the second" none 20 = "" ↔
        strip "- the first step\n- [now] the second" = "") :=
  summaryShape ascii "Plan" "- the first step\n- [now] the second" none 20 (by decide)

end McpMemory.Summaries
