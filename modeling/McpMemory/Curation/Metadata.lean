import McpMemory.Curation.Services
import McpMemory.Lib.Merge
import McpMemory.Lib.Values

/-! `mcp/internal_service_support.py`: the metadata of a memory, merged with the metadata that a caller
gives. The values are JSON of every kind. Numbers are sorted among numbers and texts among texts,
so that no comparison raises. -/
namespace McpMemory.Curation.Support
open Merge Values

structure Metadata where
  entries : Dict
  distinct : (keys entries).Nodup

def Metadata.get (metadata : Metadata) (key : Key) : Option Value := metadata.entries.lookup key

def isSpace (n : Nat) : Bool :=
  (9 ≤ n && n ≤ 13) || (28 ≤ n && n ≤ 32) || n == 0x85 || n == 0xA0 || n == 0x1680 ||
    (0x2000 ≤ n && n ≤ 0x200A) || n == 0x2028 || n == 0x2029 || n == 0x202F || n == 0x205F || n == 0x3000

def strip (text : Str) : Str := (text.dropWhile isSpace).rdropWhile isSpace

def asInt : Value → Option Int
  | .int value => some value
  | _ => none

def asStr : Value → Option Str
  | .str value => some value
  | _ => none

def isNumbers (items : List Value) : Bool := items.all fun item => (asInt item).isSome

def isTexts (items : List Value) : Bool := items.all fun item => (asStr item).isSome

/- Texts are stripped, and empty ones left out. -/
def mergedTexts (items : List Value) : List Str :=
  sortedOnce (((items.filterMap asStr).map strip).filter (! ·.isEmpty))

def mergeMetadataLists (existing override : List Value) : List Value :=
  let items := existing ++ override
  if isNumbers items then (sortedOnce (items.filterMap asInt)).map .int
  else if isTexts items then (mergedTexts items).map .str
  else override

def mergeValues : Option Value → Value → Value
  | some (.list current),.list value => .list (mergeMetadataLists current value)
  | _,value => value

def Metadata.merge (existing override : Metadata) : Metadata :=
  ⟨Merge.merge mergeValues existing.entries override.entries,distinctMerge existing.distinct⟩

/- An override of `None` merges to `None`. -/
def mergeMemoryMetadata (existing : Metadata) (override : Option Metadata) : Option Metadata :=
  override.map existing.merge

def listed : Option Value → List Value
  | some (.list items) => items
  | _ => []

/- What the merge is to keep of both sides. -/
structure Lossless (existing override : Metadata) : Prop where
  kept : ∀ key, ∀ item ∈ listed (existing.get key), item ∈ listed ((existing.merge override).get key)
  given : ∀ key, ∀ item ∈ listed (override.get key), item ∈ listed ((existing.merge override).get key)

def Idempotent (existing override : Metadata) : Prop :=
  (existing.merge override).merge override = existing.merge override

/- Texts that a strip leaves as they are, and not empty. -/
def Clean (items : List Value) : Prop := ∀ text ∈ items.filterMap asStr, strip text = text ∧ text ≠ []

/- A list that is merged with itself without a change. -/
def Settled (items : List Value) : Prop :=
  (isNumbers items = true → (items.filterMap asInt).Pairwise (· < ·)) ∧
  (isNumbers items = false → isTexts items = true → Clean items ∧ (items.filterMap asStr).Pairwise (· < ·))

def Mergeable : Option Value → Value → Prop
  | some (.list current),.list value => isNumbers (current ++ value) = true ∨
      isTexts (current ++ value) = true ∧ Clean (current ++ value) ∨
      isNumbers (current ++ value) = false ∧ isTexts (current ++ value) = false ∧ current ⊆ value ∧ Settled value
  | some (.list current),_ => current = []
  | _,.list value => Settled value
  | _,_ => True

variable {existing override : List Value}

theorem numbersOf {items : List Value} (numbers : isNumbers items = true) : (items.filterMap asInt).map .int = items := by
  induction items with
  | nil => rfl
  | cons item rest ih =>
    simp only [isNumbers,List.all_cons,Bool.and_eq_true] at numbers
    cases item with
    | int value => exact congrArg (Value.int value :: ·) (ih numbers.2)
    | null | bool | float | str | list | dict | object => exact absurd numbers.1 (by simp [asInt])

theorem textsOf {items : List Value} (texts : isTexts items = true) : (items.filterMap asStr).map .str = items := by
  induction items with
  | nil => rfl
  | cons item rest ih =>
    simp only [isTexts,List.all_cons,Bool.and_eq_true] at texts
    cases item with
    | str value => exact congrArg (Value.str value :: ·) (ih texts.2)
    | null | bool | float | int | list | dict | object => exact absurd texts.1 (by simp [asStr])

theorem memNumber {items : List Value} {n : Int} : n ∈ items.filterMap asInt ↔ Value.int n ∈ items := by
  rw [List.mem_filterMap]
  constructor
  · rintro ⟨item,member,same⟩
    cases item with
    | int value => exact Option.some.inj same ▸ member
    | null | bool | float | str | list | dict | object => cases same
  · exact fun member => ⟨_,member,rfl⟩

theorem memText {items : List Value} {s : Str} : s ∈ items.filterMap asStr ↔ Value.str s ∈ items := by
  rw [List.mem_filterMap]
  constructor
  · rintro ⟨item,member,same⟩
    cases item with
    | str value => exact Option.some.inj same ▸ member
    | null | bool | float | int | list | dict | object => cases same
  · exact fun member => ⟨_,member,rfl⟩

theorem mapNumbers (numbers : List Int) : isNumbers (numbers.map .int) = true ∧ (numbers.map Value.int).filterMap asInt = numbers := by
  refine ⟨?_,?_⟩
  · rw [isNumbers,List.all_eq_true]
    intro item member
    obtain ⟨n,_,rfl⟩ := List.mem_map.mp member
    rfl
  · rw [List.filterMap_map]
    exact List.filterMap_some

theorem mapTexts (texts : List Str) : isTexts (texts.map .str) = true ∧ (texts.map Value.str).filterMap asStr = texts := by
  refine ⟨?_,?_⟩
  · rw [isTexts,List.all_eq_true]
    intro item member
    obtain ⟨n,_,rfl⟩ := List.mem_map.mp member
    rfl
  · rw [List.filterMap_map]
    exact List.filterMap_some

theorem stripIdem (text : Str) : strip (strip text) = strip text := by
  have front : ((text.dropWhile isSpace).rdropWhile isSpace).dropWhile isSpace = (text.dropWhile isSpace).rdropWhile isSpace := by
    have first := List.rdropWhile_prefix isSpace (text.dropWhile isSpace)
    have solid := List.dropWhile_idempotent isSpace text
    generalize text.dropWhile isSpace = dropped at first solid
    cases whole : dropped.rdropWhile isSpace with
    | nil => rfl
    | cons c rest =>
      obtain ⟨last,split⟩ := first
      rw [whole] at split
      subst split
      exact List.dropWhile_cons_of_neg (List.dropWhile_eq_self_iff.mp solid (by simp))
  rw [strip,strip,front,List.rdropWhile_idempotent]

theorem memMergedTexts {items : List Value} {s : Str} :
    s ∈ mergedTexts items ↔ s ≠ [] ∧ ∃ text, Value.str text ∈ items ∧ strip text = s := by
  rw [mergedTexts,memSortedOnce,List.mem_filter,List.mem_map]
  simp only [memText,Bool.not_eq_true',List.isEmpty_eq_false_iff]
  exact and_comm

theorem cleanMerged {items : List Value} (clean : Clean items) {s : Str} :
    s ∈ mergedTexts items ↔ Value.str s ∈ items := by
  rw [memMergedTexts]
  constructor
  · rintro ⟨_,text,member,rfl⟩
    rwa [(clean text (memText.mpr member)).1]
  · intro member
    have tidy := clean s (memText.mpr member)
    exact ⟨tidy.2,s,member,tidy.1⟩

/- Where no element of either list is lost. -/
theorem listsLossless : (∀ item ∈ existing ++ override, item ∈ mergeMetadataLists existing override) ↔
    isNumbers (existing ++ override) = true ∨ isTexts (existing ++ override) = true ∧ Clean (existing ++ override) ∨
      isNumbers (existing ++ override) = false ∧ isTexts (existing ++ override) = false ∧ existing ⊆ override := by
  unfold mergeMetadataLists
  dsimp only
  cases numbers : isNumbers (existing ++ override) with
  | true =>
    refine ⟨fun _ => .inl rfl,fun _ item member => ?_⟩
    rw [if_pos rfl]
    rw [← numbersOf numbers] at member
    obtain ⟨n,there,rfl⟩ := List.mem_map.mp member
    exact List.mem_map_of_mem (memSortedOnce.mpr there)
  | false =>
    rw [if_neg (by decide)]
    cases texts : isTexts (existing ++ override) with
    | true =>
      rw [if_pos rfl]
      constructor
      · refine fun all => .inr (.inl ⟨rfl,fun text member => ?_⟩)
        obtain ⟨s,there,same⟩ := List.mem_map.mp (all _ (memText.mp member))
        cases same
        obtain ⟨full,other,_,rfl⟩ := memMergedTexts.mp there
        exact ⟨stripIdem other,full⟩
      · rintro (impossible | ⟨_,clean⟩ | ⟨_,impossible,_⟩)
        · cases impossible
        · intro item member
          have here := member
          rw [← textsOf texts] at here
          obtain ⟨s,_,rfl⟩ := List.mem_map.mp here
          exact List.mem_map_of_mem ((cleanMerged clean).mpr member)
        · cases impossible
    | false =>
      rw [if_neg (by decide)]
      constructor
      · exact fun all => .inr (.inr ⟨rfl,rfl,fun item member => all item (List.mem_append_left _ member)⟩)
      · rintro (impossible | ⟨impossible,_⟩ | ⟨_,_,within⟩)
        · cases impossible
        · cases impossible
        · exact fun item member => (List.mem_append.mp member).elim (@within item) id

theorem numbersAppend (items others : List Value) : isNumbers (items ++ others) = (isNumbers items && isNumbers others) :=
  List.all_append

theorem textsAppend (items others : List Value) : isTexts (items ++ others) = (isTexts items && isTexts others) :=
  List.all_append

theorem numberInjective : Function.Injective Value.int := fun _ _ same => Value.int.inj same

theorem settledSelf {items : List Value} : mergeMetadataLists items items = items ↔ Settled items := by
  unfold mergeMetadataLists Settled
  dsimp only
  rw [numbersAppend,textsAppend,Bool.and_self,Bool.and_self]
  cases numbers : isNumbers items with
  | true =>
    have once : sortedOnce ((items ++ items).filterMap asInt) = sortedOnce (items.filterMap asInt) :=
      sortedOnceSame fun n => by rw [memNumber,memNumber,List.mem_append,or_self]
    rw [if_pos rfl,once]
    have inner : (sortedOnce (items.filterMap asInt)).map .int = items ↔
        (items.filterMap asInt).Pairwise (· < ·) := by
      rw [← sortedOnceFixed]
      nth_rewrite 2 [← numbersOf numbers]
      exact (List.map_injective_iff.mpr numberInjective).eq_iff
    rw [inner]
    exact ⟨fun increases => ⟨fun _ => increases,fun impossible => (by cases impossible)⟩,fun settled => settled.1 rfl⟩
  | false =>
    rw [if_neg (by decide)]
    cases texts : isTexts items with
    | true =>
      rw [if_pos rfl]
      constructor
      · intro same
        have merged := congrArg (List.filterMap asStr) same
        rw [(mapTexts _).2] at merged
        refine ⟨fun impossible => (by cases impossible),fun _ _ => ⟨fun text member => ?_,merged ▸ sortedOnceIncreases _⟩⟩
        obtain ⟨full,other,_,rfl⟩ := memMergedTexts.mp (merged ▸ member)
        exact ⟨stripIdem other,full⟩
      · rintro ⟨_,settled⟩
        obtain ⟨clean,increases⟩ := settled rfl rfl
        have twice : Clean (items ++ items) := fun text member => clean text (by
          rw [memText,List.mem_append,or_self] at member
          exact memText.mpr member)
        have once : mergedTexts (items ++ items) = sortedOnce (items.filterMap asStr) := sortedOnceExt fun s => by
          rw [← mergedTexts,cleanMerged twice,memSortedOnce,memText,List.mem_append,or_self]
        rw [once,sortedOnceFixed.mpr increases,textsOf texts]
    | false =>
      rw [if_neg (by decide)]
      exact ⟨fun _ => ⟨fun impossible => (by cases impossible),fun _ impossible => (by cases impossible)⟩,fun _ => rfl⟩

/- Where nothing is lost, a second merge of the same list changes nothing but a list that was not settled. -/
theorem listsSettle (lossless : ∀ item ∈ existing ++ override, item ∈ mergeMetadataLists existing override) :
    mergeMetadataLists (mergeMetadataLists existing override) override = mergeMetadataLists existing override ↔
      (isNumbers (existing ++ override) = false → isTexts (existing ++ override) = false → Settled override) := by
  cases numbers : isNumbers (existing ++ override) with
  | true =>
    refine ⟨fun _ impossible => (by cases impossible),fun _ => ?_⟩
    have once : mergeMetadataLists existing override = (sortedOnce ((existing ++ override).filterMap asInt)).map .int :=
      if_pos numbers
    rw [numbersAppend,Bool.and_eq_true] at numbers
    have again : isNumbers (mergeMetadataLists existing override ++ override) = true := by
      rw [numbersAppend,once,(mapNumbers _).1,numbers.2]
      rfl
    rw [mergeMetadataLists,if_pos again,once]
    refine congrArg (List.map Value.int) (sortedOnceSame fun n => ?_)
    rw [memNumber,List.mem_append,← memNumber,(mapNumbers _).2,memSortedOnce,memNumber,List.mem_append]
    exact ⟨fun either => either.elim id .inr,.inl⟩
  | false =>
    cases texts : isTexts (existing ++ override) with
    | true =>
      refine ⟨fun _ _ impossible => (by cases impossible),fun _ => ?_⟩
      have clean : Clean (existing ++ override) := by
        rcases listsLossless.mp lossless with impossible | ⟨_,clean⟩ | ⟨_,impossible,_⟩
        · exact absurd (numbers.symm.trans impossible) (by decide)
        · exact clean
        · exact absurd (texts.symm.trans impossible) (by decide)
      have once : mergeMetadataLists existing override = (mergedTexts (existing ++ override)).map .str := by
        rw [mergeMetadataLists,if_neg (by rw [numbers]; decide),if_pos texts]
      have within : ∀ s, Value.str s ∈ mergeMetadataLists existing override ↔ Value.str s ∈ existing ++ override := by
        intro s
        rw [once,← memText,(mapTexts _).2,cleanMerged clean]
      -- an element that is no number is still there
      have mixed : isNumbers (mergeMetadataLists existing override ++ override) = false := by
        obtain ⟨item,member,other⟩ := List.all_eq_false.mp numbers
        exact List.all_eq_false.mpr ⟨item,List.mem_append_left _ (lossless item member),other⟩
      have again : isTexts (mergeMetadataLists existing override ++ override) = true := by
        rw [textsAppend,Bool.and_eq_true] at texts
        rw [textsAppend,once,(mapTexts _).1,texts.2]
        rfl
      have tidy : Clean (mergeMetadataLists existing override ++ override) := by
        intro s member
        rcases List.mem_append.mp (memText.mp member) with there | there
        · exact clean s (memText.mpr ((within s).mp there))
        · exact clean s (memText.mpr (List.mem_append_right _ there))
      have same : mergedTexts (mergeMetadataLists existing override ++ override) = mergedTexts (existing ++ override) :=
        sortedOnceExt fun s => by
          rw [← mergedTexts,← mergedTexts,cleanMerged tidy,cleanMerged clean,List.mem_append,within,List.mem_append]
          exact ⟨fun either => either.elim id .inr,.inl⟩
      rw [mergeMetadataLists,if_neg (by rw [mixed]; decide),if_pos again,same,once]
    | false =>
      have replaced : mergeMetadataLists existing override = override := by
        rw [mergeMetadataLists,if_neg (by rw [numbers]; decide),if_neg (by rw [texts]; decide)]
      rw [replaced,settledSelf]
      exact ⟨fun settled _ _ => settled,fun settled => settled rfl rfl⟩

theorem mergeGet (a b : Metadata) (key : Key) : (a.merge b).get key = match b.get key with
    | none => a.get key
    | some value => some (mergeValues (a.get key) value) := by
  show (Merge.merge mergeValues a.entries b.entries).lookup key = _
  rw [lookupMerge b.distinct]
  unfold Metadata.get
  cases b.entries.lookup key <;> rfl

/- What holds at one key: nothing is lost there and a second merge changes nothing. -/
structure Holds (current : Option Value) (value : Value) : Prop where
  kept : ∀ item ∈ listed current, item ∈ listed (some (mergeValues current value))
  given : ∀ item ∈ listed (some value), item ∈ listed (some (mergeValues current value))
  settled : mergeValues (some (mergeValues current value)) value = mergeValues current value

theorem holdsLists : Holds (some (.list existing)) (.list override) ↔ Mergeable (some (.list existing)) (.list override) := by
  have merged : ∀ current value, mergeValues (some (.list current)) (.list value) = .list (mergeMetadataLists current value) :=
    fun _ _ => rfl
  constructor
  · intro holds
    have lossless : ∀ item ∈ existing ++ override, item ∈ mergeMetadataLists existing override := fun item member =>
      (List.mem_append.mp member).elim (holds.kept item) (holds.given item)
    have settled := (listsSettle lossless).mp (Value.list.inj holds.settled)
    rcases listsLossless.mp lossless with numbers | clean | ⟨numbers,texts,within⟩
    · exact .inl numbers
    · exact .inr (.inl clean)
    · exact .inr (.inr ⟨numbers,texts,within,settled numbers texts⟩)
  · intro mergeable
    have lossless : ∀ item ∈ existing ++ override, item ∈ mergeMetadataLists existing override := listsLossless.mpr
      (mergeable.imp id (Or.imp id fun mixed => ⟨mixed.1,mixed.2.1,mixed.2.2.1⟩))
    refine ⟨fun item member => lossless item (List.mem_append_left _ member),
      fun item member => lossless item (List.mem_append_right _ member),?_⟩
    rw [merged,merged]
    refine congrArg Value.list ((listsSettle lossless).mpr fun numbers texts => ?_)
    rcases mergeable with impossible | ⟨impossible,_⟩ | mixed
    · exact absurd (numbers.symm.trans impossible) (by decide)
    · exact absurd (texts.symm.trans impossible) (by decide)
    · exact mixed.2.2.2

/- A list that takes the place of what is no list. -/
theorem holdsPlaced {current : Option Value} (other : ∀ items, current ≠ some (.list items)) :
    Holds current (.list override) ↔ Settled override := by
  have placed : mergeValues current (.list override) = .list override := by
    unfold mergeValues
    split
    · exact absurd rfl (other _)
    · rfl
  have none : listed current = [] := by
    unfold listed
    split
    · exact absurd rfl (other _)
    · rfl
  constructor
  · intro holds
    have settled := holds.settled
    rw [placed] at settled
    exact settledSelf.mp (Value.list.inj settled)
  · intro settled
    refine ⟨by rw [none]; simp,by rw [placed]; exact fun _ => id,?_⟩
    rw [placed]
    exact congrArg Value.list (settledSelf.mpr settled)

/- A value that is no list takes the place of what was there. -/
theorem holdsReplaced {current : Option Value} {value : Value} (other : ∀ items, value ≠ .list items) :
    Holds current value ↔ listed current = [] := by
  have replaced : ∀ current, mergeValues current value = value := fun current => by
    unfold mergeValues
    split
    · exact absurd rfl (other _)
    · rfl
  have none : listed (some value) = [] := by
    unfold listed
    split
    · rename_i same
      exact absurd (Option.some.inj same) (other _)
    · rfl
  constructor
  · intro holds
    have kept := holds.kept
    rw [replaced,none] at kept
    exact List.eq_nil_iff_forall_not_mem.mpr fun item member => List.not_mem_nil (kept item member)
  · intro empty
    refine ⟨by rw [empty]; simp,by rw [none]; simp,?_⟩
    rw [replaced,replaced]

theorem holdsMergeable (current : Option Value) (value : Value) : Holds current value ↔ Mergeable current value := by
  cases value with
  | list override =>
    rcases current with _ | current
    · exact holdsPlaced (by simp)
    · cases current with
      | list existing => exact holdsLists
      | null | bool | int | float | str | dict | object => exact holdsPlaced (by simp)
  | null | bool | int | float | str | dict | object =>
    refine (holdsReplaced (by simp)).trans ?_
    rcases current with _ | current
    · simp [listed,Mergeable]
    · cases current <;> simp [listed,Mergeable]

theorem Metadata.ext {a b : Metadata} (same : a.entries = b.entries) : a = b := by
  cases a
  cases b
  cases same
  rfl

theorem idempotentAt {a b : Metadata} : Idempotent a b ↔ ∀ key value, b.get key = some value →
    mergeValues (some (mergeValues (a.get key) value)) value = mergeValues (a.get key) value :=
  Iff.trans ⟨congrArg Metadata.entries,Metadata.ext⟩ (mergeIdem a.distinct b.distinct)

/- Every key stays. Nothing is lost and a second merge changes nothing just where each value
that is given can be merged with what is there. -/
theorem metadataLaws (a b : Metadata) :
    (∀ key, key ∈ keys (a.merge b).entries ↔ key ∈ keys a.entries ∨ key ∈ keys b.entries) ∧
    (Lossless a b ∧ Idempotent a b ↔ ∀ key value, b.get key = some value → Mergeable (a.get key) value) := by
  refine ⟨fun key => mergeKeys b.distinct,?_⟩
  have at' : (∀ key value, b.get key = some value → Mergeable (a.get key) value) ↔
      ∀ key value, b.get key = some value → Holds (a.get key) value :=
    forall₃_congr fun key value _ => (holdsMergeable _ _).symm
  rw [at',idempotentAt]
  constructor
  · rintro ⟨lossless,settled⟩ key value found
    have kept := lossless.kept key
    have given := lossless.given key
    rw [mergeGet,found] at kept given
    exact ⟨kept,given,settled key value found⟩
  · intro holds
    refine ⟨⟨fun key => ?_,fun key => ?_⟩,fun key value found => (holds key value found).settled⟩
    all_goals
      rw [mergeGet]
      cases found : b.get key with
      | none => simp [listed]
      | some value => ?_
    · exact (holds key value found).kept
    · exact (holds key value found).given

/- A text gives way to a number, and a list that is given unsorted is sorted by the next merge. -/

def tagsKey : Key := .text (ofText "tags")

def tagged (items : List Value) : Metadata := ⟨[(tagsKey,.list items)],by simp⟩

def noMetadata : Metadata := ⟨[],by simp⟩

theorem metadataLost : ¬ (Lossless (tagged [.str (ofText "x")]) (tagged [.int 1]) ∧
    Idempotent (tagged [.str (ofText "x")]) (tagged [.int 1])) ∧
    ¬ (Lossless noMetadata (tagged [.int 2,.int 1]) ∧ Idempotent noMetadata (tagged [.int 2,.int 1])) := by
  constructor
  · rintro ⟨lossless,_⟩
    have kept : Value.str (ofText "x") ∈ [Value.int 1] := lossless.kept tagsKey _ (List.mem_singleton_self _)
    cases List.mem_singleton.mp kept
  · rintro ⟨_,idempotent⟩
    have same := idempotentAt.mp idempotent tagsKey (.list [.int 2,.int 1]) rfl
    have settled := (settledSelf.mp (Value.list.inj same)).1 rfl
    exact absurd settled (by decide)

/- The metadata of the services, which have whole numbers and proper text only. -/

mutual

def toValue : Json → Value
  | .null => .null
  | .bool value => .bool value
  | .int value => .int value
  | .str value => .str (ofText value)
  | .arr items => .list (toValues items)
  | .obj fields => .dict (toEntries fields)

def toValues : List Json → List Value
  | [] => []
  | item::rest => toValue item :: toValues rest

def toEntries : List (String × Json) → List (Key × Value)
  | [] => []
  | (key,value)::rest => (.text (ofText key),toValue value) :: toEntries rest

end

theorem toValuesMap (items : List Json) : toValues items = items.map toValue := by
  induction items with
  | nil => rw [toValues]; rfl
  | cons item rest ih => rw [toValues,ih]; rfl

theorem lexMap {α β : Type} [LinearOrder α] [LinearOrder β] {f : α → β} (mono : StrictMono f) (xs ys : List α) :
    xs.map f < ys.map f ↔ xs < ys := by
  induction xs generalizing ys with
  | nil => cases ys <;> simp
  | cons x xs ih =>
    cases ys with
    | nil => simp
    | cons y ys =>
      rw [List.map_cons,List.map_cons,List.cons_lt_cons_iff,List.cons_lt_cons_iff,ih,mono.lt_iff_lt,mono.injective.eq_iff]

theorem textOrder (a b : String) : ofText a ≤ ofText b ↔ a ≤ b := by
  have mono : StrictMono Char.toNat := fun a b lt => lt
  rw [← not_lt,← not_lt,ofText,ofText,lexMap mono]
  rfl

theorem ofTextInjective : Function.Injective ofText := fun _ _ same =>
  String.toList_injective (List.map_injective_iff.mpr (fun _ _ => Char.toNat_inj.mp) same)

theorem sortedText (texts : List String) : (Memory.sortedSet texts).map ofText = sortedOnce (texts.map ofText) := by
  have once : (texts.map ofText).dedup = texts.dedup.map ofText := List.dedup_map_of_injective ofTextInjective texts
  rw [Memory.sortedSet,Memory.sorted,List.map_insertionSort (r := (· ≤ ·)) (s := (· ≤ ·)) ofText _ fun a _ b _ => (textOrder a b).symm,
    ← once]
  unfold sortedOnce
  congr!

theorem stripText (text : String) : strip (ofText text) = ofText (Text.strip text) := by
  rw [ofText,ofText,Text.strip,String.toList_ofList,Text.stripList,strip,List.dropWhile_map,List.rdropWhile,
    ← List.map_reverse,List.dropWhile_map,← List.map_reverse]
  rfl

theorem ofTextFull (text : String) : (! (ofText text).isEmpty) = (text != "") := by
  rw [Bool.eq_iff_iff]
  simp only [Bool.not_eq_true',List.isEmpty_eq_false_iff,bne_iff_ne]
  exact not_congr (ofTextInjective.eq_iff' rfl)

theorem asIntValue (item : Json) : asInt (toValue item) = Curation.asInt item := by cases item <;> rfl

theorem asStrValue (item : Json) : asStr (toValue item) = (Curation.asText item).map ofText := by cases item <;> rfl

theorem listsEmbed (existing override : List Json) : toValues (Curation.mergeMetadataLists existing override) =
    mergeMetadataLists (toValues existing) (toValues override) := by
  have joined : toValues existing ++ toValues override = (existing ++ override).map toValue := by
    rw [toValuesMap,toValuesMap,List.map_append]
  have numbers : isNumbers ((existing ++ override).map toValue) = (existing ++ override).all (Curation.asInt · |>.isSome) := by
    rw [isNumbers,List.all_map]
    exact congrArg (List.all _) (funext fun item => by rw [Function.comp,asIntValue])
  have texts : isTexts ((existing ++ override).map toValue) = (existing ++ override).all (Curation.asText · |>.isSome) := by
    rw [isTexts,List.all_map]
    exact congrArg (List.all _) (funext fun item => by rw [Function.comp,asStrValue,Option.isSome_map])
  unfold mergeMetadataLists Curation.mergeMetadataLists
  dsimp only
  rw [joined,numbers,texts,toValuesMap]
  split
  · rw [List.map_map,sortedOnce,List.filterMap_map]
    have same : asInt ∘ toValue = Curation.asInt := funext asIntValue
    rw [same]
    rfl
  · split
    · rw [List.map_map,mergedTexts,List.filterMap_map]
      have same : asStr ∘ toValue = fun item => (Curation.asText item).map ofText := funext asStrValue
      have inner : ((((existing ++ override).filterMap fun item => (Curation.asText item).map ofText).map strip).filter (! ·.isEmpty)) =
          ((((existing ++ override).filterMap Curation.asText).map Text.strip).filter (· != "")).map ofText := by
        have stripped : strip ∘ ofText = ofText ∘ Text.strip := funext stripText
        rw [← List.map_filterMap,List.map_map,stripped,← List.map_map,List.filter_map]
        exact congrArg (List.map ofText) (List.filter_congr fun text _ => ofTextFull text)
      rw [same,inner,← sortedText,List.map_map]
      rfl
    · exact (toValuesMap override).symm

theorem entriesMap (fields : Json.Object) : toEntries fields = fields.map fun field => (.text (ofText field.1),toValue field.2) := by
  induction fields with
  | nil => rw [toEntries]; rfl
  | cons field rest ih => rw [toEntries,ih]; rfl

def textKey (key : String) : Key := .text (ofText key)

theorem keyInjective : Function.Injective textKey := fun _ _ same => ofTextInjective (Key.text.inj same)

theorem keySame (key other : String) : (textKey key == textKey other) = (key == other) := by
  rw [Bool.eq_iff_iff,beq_iff_eq,beq_iff_eq,keyInjective.eq_iff]

theorem lookupEmbed (fields : Json.Object) (key : String) :
    (toEntries fields).lookup (textKey key) = (Json.get fields key).map toValue := by
  rw [entriesMap,Json.get]
  induction fields with
  | nil => rfl
  | cons field rest ih =>
    obtain ⟨name,value⟩ := field
    have same : (textKey key == Key.text (ofText name)) = (key == name) := keySame key name
    rw [List.map_cons,List.lookup_cons,List.lookup_cons,same,ih]
    cases key == name <;> rfl

theorem setEmbed (fields : Json.Object) (key : String) (value : Json) :
    toEntries (Json.set fields key value) = setEntry (toEntries fields) (textKey key) (toValue value) := by
  have there : (toEntries fields).any (·.1 == textKey key) = fields.any (·.1 == key) := by
    rw [entriesMap,List.any_map]
    exact congrArg (List.any fields) (funext fun field => keySame field.1 key)
  rw [setEntry,there,Json.set]
  split
  · rw [entriesMap,entriesMap,List.map_map,List.map_map]
    refine List.map_congr_left fun field _ => ?_
    have same : (Key.text (ofText field.1) == textKey key) = (field.1 == key) := keySame field.1 key
    simp only [Function.comp,same]
    split <;> rfl
  · rw [entriesMap,entriesMap,List.map_append]
    rfl

/- The services merge as this does, as far as their values go. -/
theorem mergeEmbeds (existing override : Json.Object) : toEntries (Curation.mergeMemoryMetadata existing override) =
    Merge.merge mergeValues (toEntries existing) (toEntries override) := by
  unfold Curation.mergeMemoryMetadata
  induction override generalizing existing with
  | nil => rfl
  | cons field rest ih =>
    rw [List.foldl_cons,ih,setEmbed]
    refine congrArg (fun value => Merge.merge mergeValues (setEntry (toEntries existing) (textKey field.1) value) (toEntries rest)) ?_
    show _ = mergeValues ((toEntries existing).lookup (textKey field.1)) (toValue field.2)
    rw [lookupEmbed]
    generalize Json.get existing field.1 = current
    generalize field.2 = value
    rcases current with _ | current
    · cases value <;> rfl
    · cases current <;> cases value
      any_goals rfl
      exact congrArg Value.list (listsEmbed _ _)

end McpMemory.Curation.Support
