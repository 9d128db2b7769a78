import McpMemory.Ingress.Domain

/-! The appends of ingress, one after the other: through `prepare_append` inside the atomic
boundary, and through `_append_content` without it. -/
namespace McpMemory.Ingress
open Memory Text

/- `_append_content` of `internal_service_support.py`. -/
def appendContent (existing addition : String) : String :=
  let normalizedAddition := strip addition
  if normalizedAddition = "" ∨ contains existing normalizedAddition then existing
  else strip (rstrip existing ++ "\n\n" ++ normalizedAddition)

/- `existing` is what is read for the append; one that raises leaves it. -/
inductive Append where
  | atomic (values : AppendValues)
  | plain (addition : String)

def Append.thought : Append → String
  | .atomic values => values.content
  | .plain addition => addition

def Append.apply (env : Env) (existing : MemoryRecord) : Append → MemoryRecord
  | .atomic values => match prepareAppend env existing values with
    | .ok prepared => { existing with content := prepared.content, summary := prepared.summary, tags := prepared.tags,
                                      workspaceIds := prepared.workspaceIds, metadata := prepared.metadata }
    | .error _ => existing
  | .plain addition => { existing with content := appendContent existing.content addition }

def appendAll (env : Env) (record : MemoryRecord) (appends : List Append) : MemoryRecord :=
  appends.foldl (Append.apply env) record

variable {env : Env} {record : MemoryRecord} {append : Append}

/- The atomic path strips the content that it keeps. -/
def Append.kept (content : String) : Append → String
  | .atomic _ => strip content
  | .plain _ => content

/- One append: a blank thought and one that occurs add nothing; any other is joined on. -/
inductive Grows (record : MemoryRecord) (append : Append) (after : String) : Prop where
  | blank (blank : strip append.thought = "") (same : after = record.content)
  | occurs (solid : strip append.thought ≠ "") (inside : contains record.content (strip append.thought))
      (same : after = append.kept record.content)
  | joins (solid : strip append.thought ≠ "") (absent : contains record.content (strip append.thought) = false)
      (same : after = strip (rstrip record.content ++ "\n\n" ++ strip append.thought))

theorem applyGrows : Grows record append (append.apply env record).content := by
  cases append with
  | atomic values =>
    simp only [Append.apply,prepareAppend,requiredText,Option.getD_some]
    by_cases blank : strip values.content = ""
    · rw [if_pos blank]
      exact .blank blank rfl
    rw [if_neg blank]
    cases inside : contains record.content (strip values.content) with
    | true => exact .occurs blank inside (by simp [bind,Except.bind,inside,Append.kept])
    | false => exact .joins blank inside (by simp [bind,Except.bind,inside,Append.thought])
  | plain addition =>
    simp only [Append.apply,appendContent]
    by_cases blank : strip addition = ""
    · exact .blank blank (if_pos (.inl blank))
    cases inside : contains record.content (strip addition) with
    | true => exact .occurs blank inside (if_pos (.inr rfl))
    | false =>
      refine .joins blank inside ?_
      rw [if_neg (by simp [blank])]
      rfl

variable {after : String}

/- What is appended where nothing is: the thought; else a paragraph of its own. -/
def lastParagraph (content thought : String) : String :=
  if strip content = "" then strip thought else strip content ++ "\n\n" ++ strip thought

theorem growsJoined (grows : Grows record append after) (solid : strip append.thought ≠ "")
    (absent : contains record.content (strip append.thought) = false) :
    after = lastParagraph record.content append.thought := by
  cases grows with
  | blank blank same => exact absurd blank solid
  | occurs _ inside same => exact Bool.noConfusion (absent.symm.trans inside)
  | joins solid absent same => exact same.trans (stripJoin _ solid)

theorem lastParagraphIs (content thought : String) : ∃ before : String,
    lastParagraph content thought = before ++ strip thought ∧ (strip content).toList <+: before.toList := by
  unfold lastParagraph
  split
  · rename_i blank
    exact ⟨"",String.empty_append.symm,blank ▸ List.prefix_rfl⟩
  · exact ⟨strip content ++ "\n\n",rfl,by simp⟩

theorem growsStripped (grows : Grows record append after) :
    (strip record.content).toList <+: (strip after).toList ∧ (after = record.content ∨ after = strip after) := by
  cases grows with
  | blank blank same => exact ⟨same ▸ List.prefix_rfl,.inl same⟩
  | occurs solid inside same =>
    cases append with
    | atomic values =>
      rw [same,Append.kept,stripIdem]
      exact ⟨List.prefix_rfl,.inr rfl⟩
    | plain addition => exact ⟨same ▸ List.prefix_rfl,.inl same⟩
  | joins solid absent same =>
    have whole := same.trans (stripJoin record.content solid)
    obtain ⟨before,last,first⟩ := lastParagraphIs record.content append.thought
    have kept : strip after = after := by rw [same,stripIdem]
    refine ⟨?_,.inr kept.symm⟩
    rw [kept,whole.trans last,String.toList_append]
    exact first.trans (List.prefix_append _ _)

theorem growsKeeps (grows : Grows record append after) {part : String} (there : contains record.content (strip part) = true) :
    contains after (strip part) = true := by
  obtain ⟨first,same | same⟩ := growsStripped grows
  · rwa [same]
  · rw [same]
    have inside := stripContains there
    simp only [contains,decide_eq_true_eq] at inside ⊢
    exact inside.trans first.isInfix

theorem growsHas (grows : Grows record append after) (solid : strip append.thought ≠ "") :
    contains after (strip append.thought) = true := by
  cases there : contains record.content (strip append.thought) with
  | true => exact growsKeeps grows there
  | false =>
    obtain ⟨before,last,_⟩ := lastParagraphIs record.content append.thought
    rw [growsJoined grows solid there,last,contains,String.toList_append]
    exact decide_eq_true (List.suffix_append _ _).isInfix

/- The thought occurs by then, and the atomic path has stripped the content. -/
theorem appliedTwice (append : Append) (record : MemoryRecord) :
    (append.apply env (append.apply env record)).content = (append.apply env record).content := by
  have first := @applyGrows env record append
  have second := @applyGrows env (append.apply env record) append
  cases second with
  | blank blank same => exact same
  | joins solid absent same => exact Bool.noConfusion (absent.symm.trans (growsHas first solid))
  | occurs solid inside same =>
    rw [same]
    cases append with
    | plain addition => rfl
    | atomic values =>
      rw [Append.kept]
      cases first with
      | blank blank _ => exact absurd blank solid
      | occurs _ _ same => rw [same,Append.kept,stripIdem]
      | joins _ _ same => rw [same,stripIdem]

def Unindented (text : String) : Prop := text.toList.dropWhile isSpace = text.toList

theorem rstripUnindented {text : String} (bare : Unindented text) : rstrip text = strip text := by
  rw [rstrip,strip,stripList,bare]

theorem stripUnindented (text : String) : Unindented (strip text) := by
  rw [Unindented,strip,String.toList_ofList]
  exact (stripListTight text.toList).front

/- What a run of appends leaves of what the memory said before. -/
theorem appendAllKeeps (record : MemoryRecord) (appends : List Append) :
    (strip record.content).toList <+: (strip (appendAll env record appends).content).toList ∧
    (∀ part, contains record.content (strip part) = true →
      contains (appendAll env record appends).content (strip part) = true) ∧
    (Unindented record.content → Unindented (appendAll env record appends).content) := by
  induction appends generalizing record with
  | nil => exact ⟨List.prefix_rfl,fun _ there => there,id⟩
  | cons append rest ih =>
    have grows := @applyGrows env record append
    obtain ⟨first,kept,front⟩ := ih (append.apply env record)
    refine ⟨(growsStripped grows).1.trans first,fun part there => kept part (growsKeeps grows there),fun bare => front ?_⟩
    rcases (growsStripped grows).2 with same | same
    · exact same ▸ bare
    · exact same ▸ stripUnindented _

theorem appendAllStarts {record : MemoryRecord} (bare : Unindented record.content) (appends : List Append) :
    (rstrip record.content).toList <+: (appendAll env record appends).content.toList := by
  obtain ⟨first,_,front⟩ := @appendAllKeeps env record appends
  have back : (rstrip (appendAll env record appends).content).toList <+: (appendAll env record appends).content.toList := by
    rw [rstrip,String.toList_ofList]
    exact List.rdropWhile_prefix isSpace _
  rw [rstripUnindented (front bare)] at back
  exact rstripUnindented bare ▸ first.trans back

theorem appendAllHas {record : MemoryRecord} {appends : List Append} {append : Append} (member : append ∈ appends)
    (solid : strip append.thought ≠ "") : contains (appendAll env record appends).content (strip append.thought) = true := by
  obtain ⟨first,rest,rfl⟩ := List.append_of_mem member
  rw [appendAll,List.foldl_append,List.foldl_cons]
  exact (appendAllKeeps _ rest).2.1 _ (growsHas applyGrows solid)

/- Up to white space at the ends the content stays the beginning, and every thought is there; a
thought that does not occur becomes the last paragraph. -/
theorem appendLaw (env : Env) (record : MemoryRecord) (appends : List Append) :
    (strip record.content).toList <+: (strip (appendAll env record appends).content).toList ∧
    (Unindented record.content → (rstrip record.content).toList <+: (appendAll env record appends).content.toList) ∧
    (∀ append ∈ appends, strip append.thought ≠ "" →
      contains (appendAll env record appends).content (strip append.thought) = true) ∧
    (∀ append : Append, (append.apply env (append.apply env record)).content = (append.apply env record).content) ∧
    ∀ append : Append, strip append.thought ≠ "" → contains record.content (strip append.thought) = false →
      (append.apply env record).content = lastParagraph record.content append.thought :=
  ⟨(appendAllKeeps record appends).1,fun bare => appendAllStarts bare appends,fun _ => appendAllHas,
    fun append => appliedTwice append record,fun _ => growsJoined applyGrows⟩

/- `_append_entries_to_existing_memory` of the ingest handler. The journal keeps its entries
stripped, so there this is the plain path. -/
def appendEntries (existing addition : String) : String :=
  if contains existing addition then existing else strip (rstrip existing ++ "\n\n" ++ addition)

theorem appendEntriesPlain (existing : String) {addition : String} (stripped : strip addition = addition)
    (solid : addition ≠ "") : appendEntries existing addition = appendContent existing addition := by
  simp [appendEntries,appendContent,stripped,solid]

/- The pieces between blank lines. -/
def paragraphsList : List Char → List (List Char)
  | '\n' :: '\n' :: rest => []::paragraphsList rest
  | c::rest => match paragraphsList rest with
    | first::more => (c::first)::more
    | [] => [[c]]
  | [] => [[]]

def paragraphs (text : String) : List String := (paragraphsList text.toList).map String.ofList

example : paragraphs "a b\n\nc" = ["a b","c"] := by decide

def plainEnv : Env := ⟨⟨ascii,id⟩,fun title _ _ => title⟩

def noteSaying (content : String) : MemoryRecord :=
  ⟨⟨"m",some 1,"title",content,none,"fact","active","t0","t0",none,[]⟩,[],[]⟩

def sayingOnly (content : String) : AppendValues := ⟨"m",content,none,none,none,none⟩

/- Part of a longer word is left out, and white space before the content goes. -/
theorem substringLeftOut :
    (appendAll plainEnv (noteSaying "cached") [.atomic (sayingOnly "cache"),.plain "cache"]).content = "cached" ∧
    "cache" ∉ paragraphs "cached" ∧
    ¬ (rstrip " a").toList <+: (appendAll plainEnv (noteSaying " a") [.atomic (sayingOnly "b")]).content.toList := by
  refine ⟨by decide +kernel,by decide +kernel,?_⟩
  decide +kernel

end McpMemory.Ingress
