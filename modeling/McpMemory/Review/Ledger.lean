import Mathlib.Data.Prod.Lex
import Mathlib.Data.String.Basic
import McpMemory.Cache.Serialize
import McpMemory.Review.Contract

/-! The open ledger of skill observations, page by page: `ReadSkillReviewLedgerUseCase` with the requests,
tokens and entries of `application/skill_review_contract.py`. A client follows the tokens while others
write between its requests. -/
namespace McpMemory.Review
open Memory Canonical

/- `str` of metadata that is no text, and the digest of a text. -/
structure LedgerEnv where
  str : Json → String
  sha256 : String → String

def ledgerProtocolVersion : Int := 1

def ledgerId : String := "skill-observation-ledger-v1"

def ledgerPageSizeMax : Nat := 100

def ledgerLimit : Nat := 100000

structure LedgerEntry where
  memoryId : String
  memoryRef : Option Int
  title : String
  summary : String
  skill : String
  createdAt : String
  updatedAt : String
  deriving DecidableEq, Repr

structure LedgerRequest where
  workspaceId : Option String
  pageSize : Nat
  pageToken : Option String
  deriving DecidableEq, Repr

structure LedgerPage where
  workspaceId : Option String
  snapshotId : String
  totalCount : Nat
  records : List LedgerEntry
  nextPageToken : Option String
  deriving DecidableEq, Repr

def isOpenObservation (t : Tables) (row : MemoryRow) : Bool := row.status == "active" && row.type == "observation" &&
  t.tags.any fun tag => tag.name == "skill-observation" && t.memoryTags.contains (row.id,tag.id)

def ledgerLe (a b : MemoryRow) : Bool := a.updatedAt < b.updatedAt || a.updatedAt == b.updatedAt &&
  (a.createdAt < b.createdAt || a.createdAt == b.createdAt && a.id ≤ b.id)

def listSkillReviewObservations (limit offset : Nat) (t : Tables) : List MemoryRecord :=
  ((((t.memories.filter (isOpenObservation t)).insertionSort (ledgerLe · ·)).drop offset).take limit).map (hydrateRecord t)

variable (env : LedgerEnv)

def skillText (metadata : Json.Object) : String := match Json.get metadata "skill" with
  | none => ""
  | some (.str text) => text
  | some value => env.str value

def skillReviewLedgerEntry (record : MemoryRecord) : LedgerEntry :=
  ⟨record.id,record.memoryRef,record.title,record.summary.getD "",skillText env record.metadata,record.createdAt,record.updatedAt⟩

def LedgerEntry.fields (entry : LedgerEntry) : Json.Object := [("memory_id",.str entry.memoryId),
  ("memory_ref",match entry.memoryRef with
    | some memoryRef => .int memoryRef
    | none => .null),
  ("title",.str entry.title),("summary",.str entry.summary),("skill",.str entry.skill),
  ("created_at",.str entry.createdAt),("updated_at",.str entry.updatedAt)]

def ledgerText (entries : List LedgerEntry) : String := Cache.serializeJson (.arr (entries.map fun entry => .obj entry.fields))

def skillReviewLedgerSnapshotId (entries : List LedgerEntry) : String := env.sha256 (ledgerText entries)

/- `_LEDGER_TOKEN`: a digest, a colon and a decimal number without leading zeros. -/
def ledgerToken (pageToken : String) : Option (String × Nat) :=
  let snapshot := String.ofList (pageToken.toList.take 64)
  if !isSha256 snapshot then none
  else match pageToken.toList.drop 64 with
  | ':'::offset => match readNat offset with
    | some (offset,[]) => some (snapshot,offset)
    | _ => none
  | _ => none

def ledgerTokenParts : Option String → Except ReviewError (Option String × Nat)
  | none => .ok (none,0)
  | some pageToken => match ledgerToken pageToken with
    | none => .error (.valueError "page_token is invalid")
    | some (snapshot,offset) => .ok (some snapshot,offset)

def parsePageSize : Option Json → Except ReviewError Nat
  | none => .ok ledgerPageSizeMax
  | some (.int size) =>
    if 1 ≤ size ∧ size ≤ ledgerPageSizeMax then .ok size.toNat
    else .error (.valueError "page_size must be between 1 and 100")
  | some _ => .error (.valueError "page_size must be an integer")

def parsePageToken : Option Json → Except ReviewError (Option String)
  | none | some .null => .ok none
  | some (.str pageToken) =>
    if (ledgerToken pageToken).isSome then .ok (some pageToken) else .error (.valueError "page_token is invalid")
  | some _ => .error (.valueError "page_token is invalid")

def parseSkillReviewLedgerRequest (arguments : Json.Object) : Except ReviewError LedgerRequest :=
  match Json.get arguments "protocol_version" with
  | some (.int 1) => do
    let workspaceId ← optionalText arguments "workspace_id"
    let pageSize ← parsePageSize (Json.get arguments "page_size")
    let pageToken ← parsePageToken (Json.get arguments "page_token")
    .ok ⟨workspaceId,pageSize,pageToken⟩
  | _ => .error (.valueError "unsupported_ledger_protocol_version")

def ledgerEntries (t : Tables) : List LedgerEntry :=
  (listSkillReviewObservations ledgerLimit 0 t).map (skillReviewLedgerEntry env)

def pageTokenFor (snapshotId : String) (offset : Nat) : String := snapshotId ++ ":" ++ toString offset

/- The error of the answer, or a page. -/
def readSkillReviewLedger (t : Tables) (request : LedgerRequest) : Except ReviewError (Except String LedgerPage) := do
  let entries := ledgerEntries env t
  let snapshotId := skillReviewLedgerSnapshotId env entries
  let (tokenSnapshot,offset) ← ledgerTokenParts request.pageToken
  if tokenSnapshot.any (· ≠ snapshotId) then .ok (.error "ledger_snapshot_changed")
  else
    let page := (entries.drop offset).take request.pageSize
    let nextOffset := offset + page.length
    .ok (.ok ⟨request.workspaceId,snapshotId,entries.length,page,
      if nextOffset < entries.length then some (pageTokenFor snapshotId nextOffset) else none⟩)

def skillReviewLedgerService (t : Tables) (arguments : Json.Object) : Except ReviewError (Except String LedgerPage) := do
  readSkillReviewLedger env t (← parseSkillReviewLedgerRequest arguments)

/- A client: its pages, and how they end. -/

inductive Ending where
  | finished
  | refused (error : String)
  | raised (error : ReviewError)
  | unfinished
  deriving DecidableEq, Repr

def ledgerArguments (pageSize : Nat) (pageToken : Option String) : Json.Object :=
  [("protocol_version",.int ledgerProtocolVersion),("page_size",.int pageSize),("page_token",Memory.optional pageToken)]

/- Its requests come in turn, each at what the tables are by then. -/
def readPages (pageSize : Nat) (tables : Nat → Tables) : (requests : Nat) → (asked : Nat) → Option String →
    List LedgerPage × Ending
  | 0,_,_ => ([],.unfinished)
  | requests + 1,asked,pageToken =>
    match skillReviewLedgerService env (tables asked) (ledgerArguments pageSize pageToken) with
    | .error error => ([],.raised error)
    | .ok (.error error) => ([],.refused error)
    | .ok (.ok page) => match page.nextPageToken with
      | none => ([page],.finished)
      | some token =>
        let later := readPages pageSize tables requests (asked + 1) (some token)
        (page :: later.1,later.2)

/- Texts that tell where they end, with commas between and a mark behind, tell the list. -/

section
variable {α : Type} {write : α → List Char} {good : α → Prop} {stop : Char}

structure Ends (write : α → List Char) (good : α → Prop) (stop : Char) : Prop where
  alone : ∀ a b rest later, good a → good b → Closed rest → Closed later → write a ++ rest = write b ++ later →
    a = b ∧ rest = later
  starts : ∀ a rest later, good a → stop :: rest ≠ write a ++ later
  comma : ',' ≠ stop
  mark : stop.isDigit = false

def itemsTail (write : α → List Char) (stop : Char) (rest : List Char) : List α → List Char
  | [] => stop :: rest
  | a::items => ',' :: (joined compact ((a :: items).map write) ++ stop :: rest)

theorem itemsFirst (a : α) (items : List α) (rest : List Char) :
    joined compact ((a :: items).map write) ++ stop :: rest = write a ++ itemsTail write stop rest items := by
  cases items with
  | nil => simp [joined,itemsTail]
  | cons next items =>
    rw [List.map_cons,List.map_cons,joinedMore]
    simp [itemsTail,compact]

theorem tailCloses (ends : Ends write good stop) (items : List α) (rest : List Char) : Closed (itemsTail write stop rest items) := by
  cases items with
  | nil => exact closedMark ends.mark _
  | cons a items => exact closedMark (by decide) _

theorem joinedApart (ends : Ends write good stop) {items others : List α} (fine : ∀ a ∈ items, good a)
    (fine' : ∀ a ∈ others, good a) {rest later : List Char}
    (same : joined compact (items.map write) ++ stop :: rest = joined compact (others.map write) ++ stop :: later) :
    items = others ∧ rest = later := by
  induction items generalizing others with
  | nil =>
    cases others with
    | nil => exact ⟨rfl,(List.cons.inj same).2⟩
    | cons other others =>
      rw [itemsFirst] at same
      exact absurd same (ends.starts other rest _ (fine' other List.mem_cons_self))
  | cons a items ih =>
    cases others with
    | nil =>
      rw [itemsFirst] at same
      exact absurd same.symm (ends.starts a later _ (fine a List.mem_cons_self))
    | cons other others =>
      rw [itemsFirst,itemsFirst] at same
      obtain ⟨rfl,tails⟩ := ends.alone a other _ _ (fine a List.mem_cons_self) (fine' other List.mem_cons_self)
        (tailCloses ends items rest) (tailCloses ends others later) same
      cases items with
      | nil =>
        cases others with
        | nil => exact ⟨rfl,(List.cons.inj tails).2⟩
        | cons next others => exact absurd (List.cons.inj tails).1.symm ends.comma
      | cons next items =>
        cases others with
        | nil => exact absurd (List.cons.inj tails).1 ends.comma
        | cons more others =>
          obtain ⟨rests,ended⟩ := ih (fun b member => fine b (List.mem_cons_of_mem _ member))
            (fun b member => fine' b (List.mem_cons_of_mem _ member)) (List.cons.inj tails).2
          exact ⟨by rw [rests],ended⟩

end

theorem fieldEnds : Ends Cache.asciiField (fun field => Cache.Scalar field.2) Cache.close where
  alone _ _ _ _ scalar scalar' closed closed' same := Cache.fieldApart scalar scalar' closed closed' same
  starts field rest later _ same := by
    simp only [Cache.asciiField,Cache.asciiText,List.cons_append,List.append_assoc] at same
    exact absurd (List.cons.inj same).1 (by decide)
  comma := by decide
  mark := by decide

/- The text of a flat object, its fields by their keys. -/
def objectText (fields : Json.Object) : List Char :=
  Char.ofNat 0x7b :: (joined compact ((sortKeys fields).map Cache.asciiField) ++ [Cache.close])

theorem asciiObject (fields : Json.Object) : Cache.asciiDump (.obj fields) = objectText fields := by
  have mapped : Cache.asciiFields fields = fields.map fun field => (field.1,Cache.asciiDump field.2) := by
    induction fields with
    | nil => rfl
    | cons field rest ih => rw [Cache.asciiFields,ih,List.map_cons]
  have texts : (byKey (Cache.asciiFields fields)).map (fun field => Cache.asciiText field.1 ++ compact.key ++ field.2) =
      (sortKeys fields).map Cache.asciiField := by
    rw [mapped]
    show List.map _ (sortKeys _) = _
    rw [sortKeysMap,List.map_map]
    rfl
  rw [Cache.asciiDump,texts]
  rfl

theorem fieldsScalar (entry : LedgerEntry) : ∀ field ∈ sortKeys entry.fields, Cache.Scalar field.2 := by
  intro field member
  have there := (List.perm_insertionSort _ entry.fields).mem_iff.mp member
  unfold LedgerEntry.fields at there
  simp only [List.mem_cons,List.not_mem_nil,or_false] at there
  rcases there with rfl | rfl | rfl | rfl | rfl | rfl | rfl
  all_goals try exact .str _
  dsimp only
  split
  · exact .int _
  · exact .null

/- An entry is told by its fields, in whatever order. -/
theorem entryFields {entry other : LedgerEntry} (same : entry.fields.Perm other.fields) : entry = other := by
  have told : ∀ field ∈ entry.fields, field ∈ other.fields := fun field member => same.mem_iff.mp member
  obtain ⟨memoryId,memoryRef,title,summary,skill,createdAt,updatedAt⟩ := entry
  obtain ⟨memoryId',memoryRef',title',summary',skill',createdAt',updatedAt'⟩ := other
  simp [LedgerEntry.fields] at told
  obtain ⟨rfl,refs,rfl,rfl,rfl,rfl,rfl⟩ := told
  cases memoryRef <;> cases memoryRef' <;> simp_all

theorem entryEnds : Ends (fun entry : LedgerEntry => objectText entry.fields) (fun _ => True) ']' where
  alone entry other rest later _ _ _ _ same := by
    simp only [objectText,List.cons_append,List.append_assoc,List.nil_append,List.cons.injEq,true_and] at same
    obtain ⟨fields,tails⟩ := joinedApart fieldEnds (fieldsScalar entry) (fieldsScalar other) same
    have sorted : ∀ entry : LedgerEntry, (sortKeys entry.fields).Perm entry.fields := fun entry => List.perm_insertionSort _ _
    exact ⟨entryFields ((sorted entry).symm.trans (fields ▸ sorted other)),tails⟩
  starts entry rest later _ same := by
    simp only [objectText,List.cons_append] at same
    exact absurd (List.cons.inj same).1 (by decide)
  comma := by decide
  mark := by decide

/- A ledger that changed is written anew. -/
theorem ledgerTextApart {entries others : List LedgerEntry} (same : ledgerText entries = ledgerText others) : entries = others := by
  have written : ∀ entries : List LedgerEntry, Cache.asciiDump (.arr (entries.map fun entry => .obj entry.fields)) =
      '[' :: (joined compact (entries.map fun entry => objectText entry.fields) ++ [']']) := by
    intro entries
    have items : Cache.asciiItems (entries.map fun entry => Json.obj entry.fields) =
        entries.map fun entry => objectText entry.fields := by
      induction entries with
      | nil => rfl
      | cons entry rest ih => rw [List.map_cons,Cache.asciiItems,ih,asciiObject,List.map_cons]
    rw [Cache.asciiDump,items]
    rfl
  have dumps := String.ofList_injective same
  rw [written,written] at dumps
  exact (joinedApart entryEnds (fun _ _ => trivial) (fun _ _ => trivial) (List.cons.inj dumps).2).1

theorem tokenBack {snapshotId : String} (hash : isSha256 snapshotId = true) (offset : Nat) :
    ledgerToken (pageTokenFor snapshotId offset) = some (snapshotId,offset) := by
  have long : snapshotId.toList.length = 64 := by
    simp only [isSha256,Bool.and_eq_true,beq_iff_eq] at hash
    exact hash.1
  have text : (pageTokenFor snapshotId offset).toList = snapshotId.toList ++ ':' :: Nat.toDigits 10 offset := by
    simp [pageTokenFor]
  have digits := @readDigits offset [] (fun _ none => nomatch none)
  rw [List.append_nil] at digits
  unfold ledgerToken
  rw [text,← long,List.take_left,List.drop_left,String.ofList_toList]
  simp [hash,digits]

/- Pages of `size` entries, one behind the other. -/

def pageOf {α : Type} (size : Nat) (ledger : List α) (n : Nat) : List α := (ledger.drop (n * size)).take size

def pagesNeeded (size total : Nat) : Nat := max 1 ((total + size - 1) / size)

theorem pagesTake {α : Type} (size : Nat) (ledger : List α) (n : Nat) :
    (List.range n).flatMap (pageOf size ledger) = ledger.take (n * size) := by
  induction n with
  | zero => simp
  | succ n ih =>
    rw [List.range_succ,List.flatMap_append,ih,List.flatMap_singleton,Nat.succ_mul]
    exact List.take_add.symm

theorem pagesLeft {size : Nat} (positive : 0 < size) (total n : Nat) :
    n + 1 < pagesNeeded size total ↔ (n + 1) * size < total := by
  have quotient : n + 1 < (total + size - 1) / size ↔ (n + 1) * size < total + size - 1 - (size - 1) :=
    Nat.lt_div_iff_mul_lt positive
  unfold pagesNeeded
  omega

theorem pageLength {α : Type} {size : Nat} (positive : 0 < size) {ledger : List α} {n : Nat} (before : n * size ≤ ledger.length) :
    n * size + (pageOf size ledger n).length < ledger.length ↔ n + 1 < pagesNeeded size ledger.length := by
  rw [pagesLeft positive,Nat.succ_mul]
  unfold pageOf
  rw [List.length_take,List.length_drop]
  omega

variable (size : Nat) (ledger : List LedgerEntry)

/- The request for page `n` of a ledger, and its answer. -/

def pageRequest (n : Nat) : Option String :=
  if n = 0 then none else some (pageTokenFor (skillReviewLedgerSnapshotId env ledger) (n * size))

def pageAnswer (n : Nat) : LedgerPage := ⟨none,skillReviewLedgerSnapshotId env ledger,ledger.length,pageOf size ledger n,
  if n + 1 < pagesNeeded size ledger.length then pageRequest env size ledger (n + 1) else none⟩

variable {size} {ledger}

theorem serviceAnswers (least : 1 ≤ size) (most : size ≤ ledgerPageSizeMax) (t : Tables) {pageToken : Option String}
    (told : ∀ token, pageToken = some token → (ledgerToken token).isSome = true) :
    skillReviewLedgerService env t (ledgerArguments size pageToken) = readSkillReviewLedger env t ⟨none,size,pageToken⟩ := by
  have bounds : (1 : Int) ≤ size ∧ (size : Int) ≤ ledgerPageSizeMax := by omega
  have parsed : parsePageToken (some (optional pageToken)) = .ok pageToken := by
    cases pageToken with
    | none => rfl
    | some token => exact if_pos (told token rfl)
  have sized : parsePageSize (some (.int size)) = .ok size := if_pos bounds
  show (parseSkillReviewLedgerRequest _ >>= _) = _
  have request : parseSkillReviewLedgerRequest (ledgerArguments size pageToken) = .ok ⟨none,size,pageToken⟩ := by
    show (Except.ok none >>= fun workspaceId => parsePageSize (some (.int size)) >>= fun pageSize =>
      parsePageToken (some (optional pageToken)) >>= fun pageToken => _) = _
    rw [sized,parsed]
    rfl
  rw [request]
  rfl

variable (hash : isSha256 (skillReviewLedgerSnapshotId env ledger) = true)
include hash

theorem requestTold (n : Nat) (token : String) (asked : pageRequest env size ledger n = some token) :
    ledgerToken token = some (skillReviewLedgerSnapshotId env ledger,n * size) := by
  unfold pageRequest at asked
  split at asked
  · nomatch asked
  · obtain rfl := Option.some.inj asked
    exact tokenBack hash _

theorem requestParts (n : Nat) : ledgerTokenParts (pageRequest env size ledger n) =
    .ok (if n = 0 then none else some (skillReviewLedgerSnapshotId env ledger),n * size) := by
  cases asked : pageRequest env size ledger n with
  | none =>
    have first : n = 0 := by
      unfold pageRequest at asked
      by_contra later
      rw [if_neg later] at asked
      nomatch asked
    simp [first,ledgerTokenParts]
  | some token =>
    have later : n ≠ 0 := by
      rintro rfl
      nomatch asked
    simp [ledgerTokenParts,requestTold env hash n token asked,later]

theorem serviceRequest (least : 1 ≤ size) (most : size ≤ ledgerPageSizeMax) (t : Tables) (n : Nat) :
    skillReviewLedgerService env t (ledgerArguments size (pageRequest env size ledger n)) =
      readSkillReviewLedger env t ⟨none,size,pageRequest env size ledger n⟩ :=
  serviceAnswers env least most t fun token asked => by rw [requestTold env hash n token asked]; rfl

/- While the ledger is as it was, page `n` is answered by its entries. -/
theorem pageStep (least : 1 ≤ size) (most : size ≤ ledgerPageSizeMax) {t : Tables} (same : ledgerEntries env t = ledger) {n : Nat}
    (needed : n < pagesNeeded size ledger.length) :
    skillReviewLedgerService env t (ledgerArguments size (pageRequest env size ledger n)) = .ok (.ok (pageAnswer env size ledger n)) := by
  have before : n * size ≤ ledger.length := by
    cases n with
    | zero => omega
    | succ n => exact ((pagesLeft least _ n).mp needed).le
  rw [serviceRequest env hash least most]
  unfold readSkillReviewLedger
  rw [same,requestParts env hash n]
  have known : (if n = 0 then none else some (skillReviewLedgerSnapshotId env ledger)).any
      (fun snapshotId => decide (snapshotId ≠ skillReviewLedgerSnapshotId env ledger)) = false := by
    split <;> simp
  show (if _ = true then _ else _) = _
  rw [known,if_neg Bool.false_ne_true]
  have token : (if n * size + (pageOf size ledger n).length < ledger.length then
        some (pageTokenFor (skillReviewLedgerSnapshotId env ledger) (n * size + (pageOf size ledger n).length)) else none) =
      if n + 1 < pagesNeeded size ledger.length then pageRequest env size ledger (n + 1) else none := by
    by_cases more : n + 1 < pagesNeeded size ledger.length
    · have full : (pageOf size ledger n).length = size := by
        have enough := (pagesLeft least _ n).mp more
        rw [Nat.succ_mul] at enough
        unfold pageOf
        rw [List.length_take,List.length_drop]
        omega
      rw [if_pos more,if_pos ((pageLength least before).mpr more),full,pageRequest,if_neg n.succ_ne_zero,Nat.succ_mul]
    · rw [if_neg more,if_neg (more ∘ (pageLength least before).mp)]
  exact congrArg (fun next => Except.ok (Except.ok (LedgerPage.mk none _ _ (pageOf size ledger n) next))) token

/- Once it is another, the request is refused. -/
theorem changedStep (least : 1 ≤ size) (most : size ≤ ledgerPageSizeMax) {t : Tables}
    (other : skillReviewLedgerSnapshotId env (ledgerEntries env t) ≠ skillReviewLedgerSnapshotId env ledger) {n : Nat} (later : n ≠ 0) :
    skillReviewLedgerService env t (ledgerArguments size (pageRequest env size ledger n)) =
      .ok (.error "ledger_snapshot_changed") := by
  rw [serviceRequest env hash least most]
  unfold readSkillReviewLedger
  rw [requestParts env hash n,if_neg later]
  have unknown : (some (skillReviewLedgerSnapshotId env ledger)).any
      (fun snapshotId => decide (snapshotId ≠ skillReviewLedgerSnapshotId env (ledgerEntries env t))) = true := by
    simpa using other.symm
  show (if _ = true then _ else _) = _
  rw [unknown,if_pos rfl]

theorem readOn (least : 1 ≤ size) (most : size ≤ ledgerPageSizeMax) {tables : Nat → Tables} (count later n : Nat)
    (more : n + count < pagesNeeded size ledger.length) (same : ∀ i < n + count, ledgerEntries env (tables i) = ledger) :
    readPages env size tables (count + later) n (pageRequest env size ledger n) =
      ((List.range' n count).map (pageAnswer env size ledger) ++
        (readPages env size tables later (n + count) (pageRequest env size ledger (n + count))).1,
        (readPages env size tables later (n + count) (pageRequest env size ledger (n + count))).2) := by
  induction count generalizing n with
  | zero => simp
  | succ count ih =>
    have next := ih (n + 1) (by omega) (fun i before => same i (by omega))
    have place : n + 1 + count = n + (count + 1) := by omega
    rw [place] at next
    have token : (pageAnswer env size ledger n).nextPageToken = pageRequest env size ledger (n + 1) :=
      if_pos (by omega)
    have there : pageRequest env size ledger (n + 1) =
        some (pageTokenFor (skillReviewLedgerSnapshotId env ledger) ((n + 1) * size)) := if_neg n.succ_ne_zero
    rw [Nat.add_right_comm,readPages,pageStep env hash least most (same n (by omega)) (by omega)]
    dsimp only
    rw [token,there]
    dsimp only
    rw [← there,next]
    simp [List.range'_succ]

theorem readLast (least : 1 ≤ size) (most : size ≤ ledgerPageSizeMax) {tables : Nat → Tables} (later n : Nat)
    (last : n + 1 = pagesNeeded size ledger.length) (same : ledgerEntries env (tables n) = ledger) :
    readPages env size tables (later + 1) n (pageRequest env size ledger n) = ([pageAnswer env size ledger n],.finished) := by
  have token : (pageAnswer env size ledger n).nextPageToken = none := if_neg (by omega)
  rw [readPages,pageStep env hash least most same (by omega)]
  dsimp only
  rw [token]

omit hash

/- The digests of the ledgers of a run are digests, and tell their texts apart. -/
structure Digests (tables : Nat → Tables) : Prop where
  hash : ∀ n, isSha256 (skillReviewLedgerSnapshotId env (ledgerEntries env (tables n))) = true
  apart : ∀ m n, skillReviewLedgerSnapshotId env (ledgerEntries env (tables m)) =
    skillReviewLedgerSnapshotId env (ledgerEntries env (tables n)) →
    ledgerText (ledgerEntries env (tables m)) = ledgerText (ledgerEntries env (tables n))

/- What a client has after some pages of a ledger: its first entries, each page of one snapshot. -/
structure HasRead (size : Nat) (ledger : List LedgerEntry) (count : Nat) (read : List LedgerPage) : Prop where
  pages : read.length = count
  entries : read.flatMap (·.records) = ledger.take (count * size)
  bounded : ∀ page ∈ read, page.records.length ≤ size
  snapshot : ∀ page ∈ read, page.snapshotId = skillReviewLedgerSnapshotId env ledger ∧ page.totalCount = ledger.length

/- By the last update, and then by the creation and the id. -/
def LedgerEntry.key (entry : LedgerEntry) : String ×ₗ (String ×ₗ String) :=
  toLex (entry.updatedAt,toLex (entry.createdAt,entry.memoryId))

theorem ledgerLeKeys (t : Tables) (a b : MemoryRow) : ledgerLe a b = true ↔
    (skillReviewLedgerEntry env (hydrateRecord t a)).key ≤ (skillReviewLedgerEntry env (hydrateRecord t b)).key := by
  simp [ledgerLe,LedgerEntry.key,skillReviewLedgerEntry,hydrateRecord,Prod.Lex.toLex_le_toLex]

theorem ledgerSorted (t : Tables) : ((ledgerEntries env t).map LedgerEntry.key).Pairwise (· ≤ ·) := by
  have total : Std.Total (ledgerLe · · = true) := ⟨fun a b => by
    rw [ledgerLeKeys env t,ledgerLeKeys env t]
    exact le_total _ _⟩
  have transitive : IsTrans MemoryRow (ledgerLe · · = true) := ⟨fun a b c => by
    rw [ledgerLeKeys env t,ledgerLeKeys env t,ledgerLeKeys env t]
    exact le_trans⟩
  have rows := List.pairwise_insertionSort (ledgerLe · · = true) (t.memories.filter (isOpenObservation t))
  have listed := rows.sublist (List.take_sublist ledgerLimit _)
  unfold ledgerEntries listSkillReviewObservations
  rw [List.map_map,List.map_map,List.pairwise_map]
  exact listed.imp fun before => (ledgerLeKeys env t _ _).mp before

theorem ledgerIds (t : Tables) : (ledgerEntries env t).map (·.memoryId) =
    (((t.memories.filter (isOpenObservation t)).insertionSort (ledgerLe · ·)).take ledgerLimit).map (·.id) := by
  unfold ledgerEntries listSkillReviewObservations
  rw [List.map_map,List.map_map,List.drop_zero]
  rfl

theorem ledgerWhole {t : Tables} (fits : (t.memories.filter (isOpenObservation t)).length ≤ ledgerLimit) :
    ((ledgerEntries env t).map (·.memoryId)).Perm ((t.memories.filter (isOpenObservation t)).map (·.id)) := by
  have sorted := List.perm_insertionSort (ledgerLe · · = true) (t.memories.filter (isOpenObservation t))
  rw [ledgerIds,List.take_of_length_le (sorted.length_eq.trans_le fits)]
  exact sorted.map _

theorem answersRead (count : Nat) :
    HasRead env size ledger count ((List.range count).map (pageAnswer env size ledger)) where
  pages := by simp
  entries := by
    rw [List.flatMap_map]
    exact pagesTake size ledger count
  bounded page member := by
    obtain ⟨n,-,rfl⟩ := List.mem_map.mp member
    exact List.length_take_le _ _
  snapshot page member := by
    obtain ⟨n,-,rfl⟩ := List.mem_map.mp member
    exact ⟨rfl,rfl⟩

theorem ledgerPaged (tables : Nat → Tables) (least : 1 ≤ size) (most : size ≤ ledgerPageSizeMax) (digests : Digests env tables)
    (requests : Nat) :
    let ledger := ledgerEntries env (tables 0)
    let pages := pagesNeeded size ledger.length
    let opened := (tables 0).memories.filter (isOpenObservation (tables 0))
    (pages ≤ requests → (∀ n < pages, ledgerEntries env (tables n) = ledger) →
      ∃ read, readPages env size tables requests 0 none = (read,.finished) ∧
        HasRead env size ledger pages read ∧ read.flatMap (·.records) = ledger) ∧
    (∀ changed < pages, changed < requests → (∀ n < changed, ledgerEntries env (tables n) = ledger) →
      ledgerEntries env (tables changed) ≠ ledger →
      ∃ read, readPages env size tables requests 0 none = (read,.refused "ledger_snapshot_changed") ∧
        HasRead env size ledger changed read) ∧
    (ledger.map LedgerEntry.key).Pairwise (· ≤ ·) ∧
    (opened.length ≤ ledgerLimit → (ledger.map (·.memoryId)).Perm (opened.map (·.id))) := by
  intro ledger pages opened
  have hash : isSha256 (skillReviewLedgerSnapshotId env ledger) = true := digests.hash 0
  refine ⟨?_,?_,ledgerSorted env (tables 0),ledgerWhole env⟩
  · intro enough same
    have some : 1 ≤ pages := le_max_left 1 _
    have start := readOn env hash least most (pages - 1) (requests - pages + 1) 0 (by omega)
      (fun n before => same n (by omega))
    have last := readLast env hash least most (requests - pages) (pages - 1) (by omega) (same (pages - 1) (by omega))
    rw [Nat.zero_add] at start
    rw [last] at start
    have asked : pages - 1 + (requests - pages + 1) = requests := by omega
    rw [asked] at start
    have all : (List.range' 0 (pages - 1)).map (pageAnswer env size ledger) ++ [pageAnswer env size ledger (pages - 1)] =
        (List.range pages).map (pageAnswer env size ledger) := by
      rw [← List.range_eq_range',← List.map_singleton,← List.map_append,← List.range_succ,
        Nat.succ_eq_add_one,Nat.sub_add_cancel some]
    have done := @answersRead env size ledger pages
    refine ⟨_,start.trans (congrArg (·,Ending.finished) all),done,?_⟩
    rw [done.entries,List.take_of_length_le]
    have ended := (pagesLeft least ledger.length (pages - 1)).not.mp (by omega)
    rw [Nat.sub_add_cancel some] at ended
    omega
  · intro changed before asked same other
    have later : changed ≠ 0 := by
      rintro rfl
      exact other rfl
    have snapshot : skillReviewLedgerSnapshotId env (ledgerEntries env (tables changed)) ≠ skillReviewLedgerSnapshotId env ledger :=
      fun digest => other (ledgerTextApart (digests.apart changed 0 digest))
    have start := readOn env hash least most changed (requests - changed - 1 + 1) 0 (by omega)
      (fun n early => same n (by omega))
    have refused : readPages env size tables (requests - changed - 1 + 1) changed (pageRequest env size ledger changed) =
        ([],.refused "ledger_snapshot_changed") := by
      rw [readPages,changedStep env hash least most snapshot later]
    rw [Nat.zero_add,refused,List.append_nil,← List.range_eq_range'] at start
    have all : changed + (requests - changed - 1 + 1) = requests := by omega
    rw [all] at start
    exact ⟨_,start,answersRead env changed⟩

/- Three open observations, and no digest but two. -/

def observed (id updatedAt : String) : MemoryRow :=
  ⟨id,none,id,"",none,"observation","active","",updatedAt,none,[]⟩

def threeObserved : Tables := { Memory.empty with
  memories := [observed "c" "2026-01-03",observed "a" "2026-01-01",observed "b" "2026-01-02"]
  tags := [⟨1,"skill-observation"⟩]
  memoryTags := [("c",1),("a",1),("b",1)] }

def threeEntries : List LedgerEntry := [⟨"a",none,"a","","","","2026-01-01"⟩,⟨"b",none,"b","","","","2026-01-02"⟩,
  ⟨"c",none,"c","","","","2026-01-03"⟩]

def twoDigests : LedgerEnv where
  str _ := ""
  sha256 text := String.ofList (List.replicate 64 (if text = ledgerText threeEntries then 'a' else 'b'))

theorem threeDigests (tables : Nat → Tables)
    (two : ∀ n, ledgerEntries twoDigests (tables n) = threeEntries ∨ ledgerEntries twoDigests (tables n) = []) :
    Digests twoDigests tables where
  hash n := by
    unfold skillReviewLedgerSnapshotId isSha256
    simp only [twoDigests]
    split <;> decide +kernel
  apart m n same := by
    have written : ∀ text, twoDigests.sha256 text = twoDigests.sha256 (ledgerText threeEntries) → text = ledgerText threeEntries := by
      intro text equal
      by_contra other
      simp only [twoDigests,if_neg other] at equal
      exact absurd equal (by decide +kernel)
    rcases two m with left | left <;> rcases two n with right | right <;>
      simp only [skillReviewLedgerSnapshotId,left,right] at same ⊢
    · exact (written _ same.symm).symm
    · exact written _ same

theorem ledgerPagedSample :
    (∃ read, readPages twoDigests 2 (fun _ => threeObserved) 2 0 none = (read,.finished) ∧
      HasRead twoDigests 2 threeEntries 2 read ∧ read.flatMap (·.records) = threeEntries) ∧
    (∃ read, readPages twoDigests 2 (fun n => if n = 0 then threeObserved else Memory.empty) 2 0 none =
        (read,.refused "ledger_snapshot_changed") ∧ HasRead twoDigests 2 threeEntries 1 read) := by
  have entries : ledgerEntries twoDigests threeObserved = threeEntries := by decide +kernel
  have none : ledgerEntries twoDigests Memory.empty = [] := rfl
  have always := threeDigests (fun _ => threeObserved) fun _ => .inl entries
  have once := threeDigests (fun n => if n = 0 then threeObserved else Memory.empty) fun n => by
    split
    · exact .inl entries
    · exact .inr none
  constructor
  · have paged := (@ledgerPaged twoDigests 2 _ (by decide) (by decide) always 2).1
    rw [entries] at paged
    exact paged (by decide) (fun _ _ => entries)
  · have paged := (@ledgerPaged twoDigests 2 _ (by decide) (by decide) once 2).2.1 1
    simp only [if_pos,entries] at paged
    refine paged (by decide) (by decide) (fun n first => ?_) (by decide)
    rw [if_pos (by omega),entries]

end McpMemory.Review
