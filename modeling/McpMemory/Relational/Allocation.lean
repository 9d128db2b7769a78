import Mathlib
import McpMemory.Lib.Interleave
import McpMemory.Relational.Archiving

/-! The number of a new memory under several connections. A `SELECT` opens no transaction and sees
what is committed; the first statement that writes, or `BEGIN IMMEDIATE`, takes the one write lock
or waits for it. The three writers read the highest number and insert the next; the rest of an
action's transaction (receipts, history, repair intents) is not here, as nobody else sees it
before the commit. -/
namespace McpMemory.Relational.Allocation
open Memory Transaction Interleave

/- What a create raises. -/
inductive Failure where
  | integrity (error : IntegrityError)
  | action (error : Curation.ActionError)
  | ingress (error : Ingress.IngressError)

/- A memory that is to be made, its `memory_ref` still open. -/
structure Item where
  row : MemoryRow
  summary : String
  workspaceIds : List String
  tags : List String

def ofRepository (prepared : PreparedCreate) : Item :=
  ⟨prepared.row,prepared.summary,prepared.workspaceIds,prepared.tags⟩

def ofCuration (prepared : Curation.PreparedCreate) : Item :=
  ⟨prepared.row,prepared.summary,prepared.workspaceIds,prepared.tags⟩

def ofIngress (prepared : Ingress.PreparedCreate) : Item :=
  ⟨⟨prepared.memoryId,none,prepared.title,prepared.content,some prepared.summary,prepared.memoryType,prepared.status,
    prepared.createdAt,prepared.createdAt,none,prepared.metadata⟩,prepared.summary,prepared.workspaceIds,prepared.tags⟩

/- The statements that write. The id of a tag is read in the same transaction just before it is
given; `untagged` is what the writer does where there is none. -/
inductive Dml where
  | insertMemory (row : MemoryRow)
  | deleteWorkspaces (memoryId : String)
  | insertWorkspace (memoryId workspaceId : String)
  | deleteMemoryTags (memoryId : String)
  | insertTag (name : String)
  | insertMemoryTag (memoryId name : String) (untagged : Except Failure Unit)
  | deleteSearchDocuments (memoryId : String)
  | insertSearchDocument (document : SearchDocument)

def sql (statement : Statement Unit) (t : Tables) : Except Failure Tables := match statement t with
  | .error error => .error (.integrity error)
  | .ok (_,after) => .ok after

/- `number` is `next_memory_ref`. -/
def effect (number : Int) (t : Tables) : Dml → Except Failure Tables
  | .insertMemory row => sql (insertMemory { row with memoryRef := some number }) t
  | .deleteWorkspaces memoryId => sql (deleteWorkspaces memoryId) t
  | .insertWorkspace memoryId workspaceId => sql (insertWorkspace memoryId workspaceId) t
  | .deleteMemoryTags memoryId => sql (deleteMemoryTags memoryId) t
  | .insertTag name => sql (insertTag name) t
  | .insertMemoryTag memoryId name untagged => match selectTagId name t with
    | some tagId => sql (insertMemoryTag memoryId tagId) t
    | none => untagged.map fun _ => t
  | .deleteSearchDocuments memoryId => sql (deleteSearchDocuments memoryId) t
  | .insertSearchDocument document => sql (insertSearchDocument document) t

inductive Step where
  | beginImmediate
  | selectNext
  | refuseExisting (memoryId : String)
  | raise (failure : Failure)
  | execute (dml : Dml)
  | countUp
  | commit

def mappings (item : Item) (untagged : Except Failure Unit) : List Step :=
  .execute (.deleteWorkspaces item.row.id)::(item.workspaceIds.map fun workspaceId =>
    .execute (.insertWorkspace item.row.id workspaceId)) ++
  .execute (.deleteMemoryTags item.row.id)::item.tags.flatMap fun tag =>
    [.execute (.insertTag tag),.execute (.insertMemoryTag item.row.id tag untagged)]

def document (item : Item) : SearchDocument :=
  ⟨item.row.id,item.row.title,item.summary,item.row.content,String.intercalate " " item.tags⟩

def insertSteps (item : Item) : List Step :=
  .execute (.insertMemory item.row)::(mappings item (.ok ()) ++
    [.execute (.insertSearchDocument (document item)),.countUp])

/- A transaction's `create_memory`; only that of the curation looks for the id first. -/
def createSteps (checked : Bool) (untagged : Failure) (item : Item) : List Step :=
  (if checked then [.refuseExisting item.row.id] else []) ++
    .selectNext::.execute (.insertMemory item.row)::(mappings item (.error untagged) ++
      [.execute (.deleteSearchDocuments item.row.id),.execute (.insertSearchDocument (document item))])

structure Call where
  memoryIds : List String
  number : Int
  opened : Option Tables
  todo : List Step
  outcome : Option (Except Failure Unit)

structure Store where
  committed : Tables
  locked : Bool

def Call.seen (call : Call) (store : Store) : Tables := call.opened.getD store.committed

def ended (call : Call) (outcome : Except Failure Unit) : Call :=
  { call with opened := none, todo := [], outcome := some outcome }

def released (call : Call) (store : Store) : Store :=
  { store with locked := store.locked && call.opened.isNone }

/- The next step of a call, where `todo` follows it. -/
def perform (call : Call) (store : Store) (todo : List Step) : Step → Call × Store
  | .beginImmediate => if store.locked then (call,store) else
    ({ call with opened := some store.committed, todo := todo },{ store with locked := true })
  | .selectNext => ({ call with number := nextMemoryRef (call.seen store), todo := todo },store)
  | .refuseExisting memoryId => if (call.seen store).has memoryId then
      (ended call (.error (.action (.fatal ("memory '" ++ memoryId ++ "' already exists")))),released call store)
    else ({ call with todo := todo },store)
  | .raise failure => (ended call (.error failure),released call store)
  | .execute dml => if store.locked && call.opened.isNone then (call,store) else
    match effect call.number (call.seen store) dml with
    | .ok after => ({ call with opened := some after, todo := todo },{ store with locked := true })
    | .error failure => (ended call (.error failure),released call store)
  | .countUp => ({ call with number := call.number + 1, todo := todo },store)
  | .commit => (ended call (.ok ()),⟨call.seen store,(released call store).locked⟩)

def step (call : Call) (store : Store) : Call × Store × List Unit :=
  match call.todo with
  | [] => (call,store,[])
  | next::todo => ((perform call store todo next).1,(perform call store todo next).2,[])

variable (env : Curation.Env) (domain : Ingress.Env)

/- One request or several, each with the clock and the id that it is given. -/
inductive Create where
  | repository (requests : List (Moment Curation.ActionError × Curation.CreateValues))
  | curation (requests : List (Moment Curation.ActionError × Curation.CreateValues))
  | ingress (requests : List (Moment Ingress.IngressError × Ingress.CreateValues))

def begun (items : List Item) (todo : List Step) : Call := ⟨items.map (·.row.id),0,none,todo,none⟩

/- In a transaction each create prepares when its turn has come. -/
def transactionSteps (checked : Bool) (untagged : Failure) (prepared : List (Except Failure Item)) : List Step :=
  .beginImmediate::(prepared.flatMap fun
    | .ok item => createSteps checked untagged item
    | .error failure => [.raise failure]) ++ [.commit]

def repositoryItems (requests : List (Moment Curation.ActionError × Curation.CreateValues)) :
    Except Curation.ActionError (List Item) :=
  requests.mapM fun (now,request) => (prepareMemoryCreate env now request).map ofRepository

def curationItems (requests : List (Moment Curation.ActionError × Curation.CreateValues)) : List (Except Failure Item) :=
  requests.map fun (now,values) => ((Curation.prepareMemoryCreate env now values).map ofCuration).mapError .action

def ingressItems (requests : List (Moment Ingress.IngressError × Ingress.CreateValues)) : List (Except Failure Item) :=
  requests.map fun (now,values) => ((Ingress.prepareCreate domain now values).map ofIngress).mapError .ingress

def made (prepared : List (Except Failure Item)) : List Item := prepared.filterMap (·.toOption)

def enter : Create → Call
  | .repository requests => match repositoryItems env requests with
    | .error error => ended (begun [] []) (.error (.action error))
    | .ok [] => ended (begun [] []) (.ok ())
    | .ok items => begun items (.selectNext::items.flatMap insertSteps ++ [.commit])
  | .curation requests => begun (made (curationItems env requests))
      (transactionSteps true (.action Curation.port.untagged) (curationItems env requests))
  | .ingress requests => begun (made (ingressItems domain requests))
      (transactionSteps false (.ingress Ingress.port.untagged) (ingressItems domain requests))

def machine : Machine Create Call Store Unit := ⟨enter env domain,step⟩
/- The numbers that are taken, and what the schema holds of the tags. -/

def numbers (t : Tables) : List Int := t.memories.filterMap (·.memoryRef)

structure Numbering (t : Tables) : Prop where
  numbered : ∀ tag ∈ t.tags, tag.id ≤ t.tagSequence
  distinct : (t.tags.map (·.id)).Nodup

variable {t after : Tables} {base number : Int}

theorem belowNext (taken : number ∈ numbers t) : number < nextMemoryRef t := by
  unfold nextMemoryRef
  cases top : (t.memories.filterMap (·.memoryRef)).max? with
  | none =>
    rw [numbers,List.max?_eq_none_iff.mp top] at taken
    cases taken
  | some highest =>
    have above := (List.max?_eq_some_iff.mp top).2 number taken
    rw [Option.getD_some]
    omega

theorem nextAfter (grown : numbers after = numbers t ++ [nextMemoryRef t]) : nextMemoryRef after = nextMemoryRef t + 1 := by
  have highest : (numbers after).max? = some (nextMemoryRef t) := by
    refine List.max?_eq_some_iff.mpr ⟨by simp [grown],fun other member => ?_⟩
    rw [grown] at member
    rcases List.mem_append.mp member with before | last
    · exact (belowNext before).le
    · exact (List.mem_singleton.mp last).le
  have unfolded : nextMemoryRef after = (numbers after).max?.getD 0 + 1 := rfl
  rw [unfolded,highest,Option.getD_some]

/- Tables of a run that began when `base` was the next number: what was given since has no gap. -/
structure Tidy (base : Int) (t : Tables) : Prop where
  distinct : (numbers t).Nodup
  filled : ∀ number, base ≤ number → number < nextMemoryRef t → number ∈ numbers t
  lowest : base ≤ nextMemoryRef t
  numbering : Numbering t

structure Gains (base : Int) (t : Tables) (memoryIds : List String) (after : Tables) : Prop where
  tidy : Tidy base after
  has : ∀ memoryId, after.has memoryId = true ↔ t.has memoryId = true ∨ memoryId ∈ memoryIds
  higher : nextMemoryRef t ≤ nextMemoryRef after

structure Fresh (t : Tables) (memoryIds : List String) : Prop where
  distinct : memoryIds.Nodup
  absent : ∀ memoryId ∈ memoryIds, t.has memoryId = false

theorem gainsNothing (tidy : Tidy base t) : Gains base t [] t := ⟨tidy,by simp,le_rfl⟩

theorem gainsThen {middle : Tables} {memoryId : String} {memoryIds : List String} (first : Gains base t [memoryId] middle)
    (rest : Gains base middle memoryIds after) : Gains base t (memoryId::memoryIds) after where
  tidy := rest.tidy
  has other := by rw [rest.has,first.has,List.mem_singleton,List.mem_cons,or_assoc]
  higher := first.higher.trans rest.higher

theorem gainsFresh {middle : Tables} {memoryId : String} {memoryIds : List String} (first : Gains base t [memoryId] middle)
    (fresh : Fresh t (memoryId::memoryIds)) : Fresh middle memoryIds where
  distinct := (List.nodup_cons.mp fresh.distinct).2
  absent other member := by
    have apart : other ≠ memoryId := fun same => (List.nodup_cons.mp fresh.distinct).1 (same ▸ member)
    have before := fresh.absent other (List.mem_cons_of_mem _ member)
    have never : ¬ middle.has other = true := by simp [first.has,before,apart]
    exact Bool.eq_false_iff.mpr never

/- A row with the next number. -/
theorem gainsRow (tidy : Tidy base t) {row : MemoryRow} (grown : after.memories = t.memories ++ [row])
    (next : row.memoryRef = some (nextMemoryRef t)) (numbering : Numbering after) : Gains base t [row.id] after := by
  have taken : numbers after = numbers t ++ [nextMemoryRef t] := by simp [numbers,grown,next]
  have above := nextAfter taken
  refine ⟨⟨?_,fun number least less => ?_,by have := tidy.lowest; omega,numbering⟩,fun memoryId => ?_,by omega⟩
  · rw [taken]
    refine List.Nodup.append tidy.distinct (List.nodup_singleton _) fun number member last => ?_
    rw [List.mem_singleton.mp last] at member
    exact absurd (belowNext member) (lt_irrefl _)
  · rw [taken]
    by_cases last : number = nextMemoryRef t
    · simp [last]
    · exact List.mem_append_left _ (tidy.filled number least (by omega))
  · simp [Tables.has,grown,@eq_comm _ row.id]

/- What is left of a transaction when nobody comes between, up to its commit. -/
def Ends (post : Tables → Prop) : Int → Tables → List Step → Prop
  | _,t,.commit::_ => post t
  | _,t,.selectNext::todo => Ends post (nextMemoryRef t) t todo
  | number,t,.refuseExisting memoryId::todo => t.has memoryId = false ∧ Ends post number t todo
  | number,t,.execute dml::todo => ∃ after, effect number t dml = .ok after ∧ Ends post number after todo
  | number,t,.countUp::todo => Ends post (number + 1) t todo
  | _,_,.beginImmediate::_ | _,_,.raise _::_ | _,_,[] => False

variable {post : Tables → Prop} {todo : List Step} {memoryId : String}

theorem workspacesEnd (workspaceIds : List String) (distinct : workspaceIds.Nodup) (there : t.has memoryId = true)
    (free : ∀ workspaceId ∈ workspaceIds, (memoryId,workspaceId) ∉ t.workspaces)
    (rest : ∀ workspaces, Ends post number { t with workspaces := workspaces } todo) :
    Ends post number t ((workspaceIds.map fun workspaceId => .execute (.insertWorkspace memoryId workspaceId)) ++ todo) := by
  induction workspaceIds generalizing t with
  | nil => exact rest t.workspaces
  | cons workspaceId others ih =>
    obtain ⟨apart,distinct⟩ := List.nodup_cons.mp distinct
    have unmapped := free workspaceId List.mem_cons_self
    refine ⟨{ t with workspaces := t.workspaces ++ [(memoryId,workspaceId)] },?_,ih distinct there (fun other member => ?_) rest⟩
    · simp [effect,sql,insertWorkspace,unmapped,there]
    · have before := free other (List.mem_cons_of_mem _ member)
      have differs : other ≠ workspaceId := fun same => apart (same ▸ member)
      simp [before,differs]

/- The row of a tag, old or new. -/
theorem insertedTag (numbering : Numbering t) (name : String) : ∃ after, insertTag name t = .ok ((),after) ∧
    after.memories = t.memories ∧ after.memoryTags = t.memoryTags ∧ Numbering after ∧ t.tags ⊆ after.tags ∧
    ∃ tag ∈ after.tags, tag.name = name ∧ selectTagId name after = some tag.id := by
  by_cases known : t.tags.any (·.name == name) = true
  · refine ⟨t,by simp [insertTag,run,known],rfl,rfl,numbering,fun _ member => member,?_⟩
    obtain ⟨tag,found⟩ := Option.isSome_iff_exists.mp (List.find?_isSome.mpr (List.any_eq_true.mp known))
    exact ⟨tag,List.mem_of_find?_eq_some found,by simpa using List.find?_some found,by simp [selectTagId,found]⟩
  · refine ⟨{ t with tags := t.tags ++ [⟨t.tagSequence + 1,name⟩], tagSequence := t.tagSequence + 1 },
      congrArg (fun after => Except.ok ((),after)) (if_neg known),rfl,rfl,⟨fun tag member => ?_,?_⟩,List.subset_append_left _ _,
      ⟨t.tagSequence + 1,name⟩,by simp,rfl,?_⟩
    · rcases List.mem_append.mp member with old | new
      · exact (numbering.numbered tag old).trans (by dsimp only; omega)
      · cases List.mem_singleton.mp new
        exact le_rfl
    · rw [List.map_append]
      refine List.Nodup.append numbering.distinct (List.nodup_singleton _) fun tagId old new => ?_
      obtain ⟨tag,member,rfl⟩ := List.mem_map.mp old
      have below := numbering.numbered tag member
      have same := List.mem_singleton.mp new
      dsimp only at same
      omega
    · have unknown : t.tags.find? (·.name == name) = none := by
        rw [List.find?_eq_none]
        exact fun tag member same => known (List.any_eq_true.mpr ⟨tag,member,same⟩)
      simp [selectTagId,List.find?_append,unknown]

/- The tags that the memory has already are not among those to come. -/
theorem tagsEnd (untagged : Except Failure Unit) (names : List String) (distinct : names.Nodup)
    (there : t.has memoryId = true) (numbering : Numbering t)
    (worn : ∀ tagId, (memoryId,tagId) ∈ t.memoryTags → ∃ tag ∈ t.tags, tag.id = tagId ∧ tag.name ∉ names)
    (rest : ∀ after, after.memories = t.memories → Numbering after → Ends post number after todo) :
    Ends post number t ((names.flatMap fun tag =>
      [.execute (.insertTag tag),.execute (.insertMemoryTag memoryId tag untagged)]) ++ todo) := by
  induction names generalizing t with
  | nil => exact rest t rfl numbering
  | cons name others ih =>
    obtain ⟨apart,distinct⟩ := List.nodup_cons.mp distinct
    obtain ⟨tagged,inserted,memories,memoryTags,numbered,wider,tag,member,named,found⟩ := insertedTag numbering name
    have present : tagged.has memoryId = true := by rwa [Tables.has,memories]
    have unworn : (memoryId,tag.id) ∉ tagged.memoryTags := by
      intro here
      rw [memoryTags] at here
      obtain ⟨other,old,twin,unnamed⟩ := worn tag.id here
      have same := List.inj_on_of_nodup_map numbered.distinct (wider old) member twin
      exact unnamed (by simp [same,named])
    have known : tagged.tags.any (·.id == tag.id) = true := List.any_eq_true.mpr ⟨tag,member,beq_self_eq_true _⟩
    refine ⟨tagged,by simp [effect,sql,inserted],{ tagged with memoryTags := tagged.memoryTags ++ [(memoryId,tag.id)] },?_,?_⟩
    · simp [effect,found,sql,insertMemoryTag,unworn,present,known]
    · refine ih distinct present ⟨numbered.numbered,numbered.distinct⟩ (fun tagId here => ?_) fun after same kept =>
        rest after (same.trans memories) kept
      rcases List.mem_append.mp here with old | new
      · obtain ⟨other,before,same,unnamed⟩ := worn tagId (memoryTags ▸ old)
        exact ⟨other,wider before,same,fun later => unnamed (List.mem_cons_of_mem _ later)⟩
      · cases List.mem_singleton.mp new
        exact ⟨tag,member,rfl,named ▸ apart⟩

structure Sound (item : Item) : Prop where
  workspaceIds : item.workspaceIds.Nodup
  tags : item.tags.Nodup

theorem mappingsEnd {item : Item} (sound : Sound item) (untagged : Except Failure Unit) (there : t.has item.row.id = true)
    (numbering : Numbering t)
    (rest : ∀ after, after.memories = t.memories → Numbering after → Ends post number after todo) :
    Ends post number t (mappings item untagged ++ todo) := by
  rw [mappings,List.append_assoc]
  refine ⟨_,rfl,workspacesEnd _ sound.workspaceIds there (by simp) fun workspaces => ?_⟩
  refine ⟨_,rfl,tagsEnd untagged _ sound.tags there ⟨numbering.numbered,numbering.distinct⟩ (by simp) rest⟩

theorem insertedRow {row : MemoryRow} (fresh : t.has row.id = false) :
    effect (nextMemoryRef t) t (.insertMemory row) =
      .ok { t with memories := t.memories ++ [{ row with memoryRef := some (nextMemoryRef t) }] } := by
  have free : t.memories.any (·.memoryRef == some (nextMemoryRef t)) = false := by
    rw [List.any_eq_false]
    intro other member same
    have taken : nextMemoryRef t ∈ numbers t := List.mem_filterMap.mpr ⟨other,member,beq_iff_eq.mp same⟩
    exact absurd (belowNext taken) (lt_irrefl _)
  simp [effect,sql,insertMemory,fresh,free]

/- The row, its mappings and its document, whatever of the document was there. -/
theorem rowEnds {item : Item} (sound : Sound item) (untagged : Except Failure Unit) (tidy : Tidy base t)
    (fresh : t.has item.row.id = false)
    (rest : ∀ after, Gains base t [item.row.id] after → nextMemoryRef after = nextMemoryRef t + 1 →
      Ends post (nextMemoryRef t) after todo) :
    Ends post (nextMemoryRef t) t (.execute (.insertMemory item.row)::(mappings item untagged ++ todo)) := by
  refine ⟨_,insertedRow fresh,mappingsEnd sound untagged (by simp [Tables.has])
    ⟨tidy.numbering.numbered,tidy.numbering.distinct⟩ fun after same numbering => ?_⟩
  have gains := gainsRow tidy same rfl numbering
  exact rest after gains (nextAfter (by simp [numbers,same]))

/- Changes of the search documents alone. -/
theorem gainsBeside {memoryIds : List String} (documents : List SearchDocument) (gains : Gains base t memoryIds after) :
    Gains base t memoryIds { after with searchDocuments := documents } :=
  ⟨⟨gains.tidy.distinct,gains.tidy.filled,gains.tidy.lowest,⟨gains.tidy.numbering.numbered,gains.tidy.numbering.distinct⟩⟩,
    gains.has,gains.higher⟩

theorem itemsEnd (items : List Item) (sound : ∀ item ∈ items, Sound item) (tidy : Tidy base t)
    (fresh : Fresh t (items.map (·.row.id)))
    (rest : ∀ after, Gains base t (items.map (·.row.id)) after → Ends post (nextMemoryRef after) after todo) :
    Ends post (nextMemoryRef t) t (items.flatMap insertSteps ++ todo) := by
  induction items generalizing t with
  | nil => exact rest t (gainsNothing tidy)
  | cons item items ih =>
    rw [List.flatMap_cons,List.append_assoc,insertSteps,List.cons_append,List.append_assoc]
    refine rowEnds (sound item List.mem_cons_self) _ tidy (fresh.absent _ List.mem_cons_self) fun after gains next => ⟨_,rfl,?_⟩
    have first := gainsBeside (after.searchDocuments ++ [document item]) gains
    show Ends post (nextMemoryRef t + 1) _ _
    rw [← next]
    exact ih (fun other member => sound other (List.mem_cons_of_mem _ member)) first.tidy (gainsFresh first fresh)
      fun last more => rest last (gainsThen first more)

theorem createsEnd (checked : Bool) (untagged : Failure) (items : List Item) (sound : ∀ item ∈ items, Sound item)
    (tidy : Tidy base t) (fresh : Fresh t (items.map (·.row.id)))
    (rest : ∀ number after, Gains base t (items.map (·.row.id)) after → Ends post number after todo) :
    Ends post number t (items.flatMap (createSteps checked untagged) ++ todo) := by
  induction items generalizing t number with
  | nil => exact rest number t (gainsNothing tidy)
  | cons item items ih =>
    have absent := fresh.absent _ List.mem_cons_self
    have created : Ends post number t (.selectNext::.execute (.insertMemory item.row)::(mappings item (.error untagged) ++
        ([.execute (.deleteSearchDocuments item.row.id),.execute (.insertSearchDocument (document item))] ++
          (items.flatMap (createSteps checked untagged) ++ todo)))) := by
      refine rowEnds (sound item List.mem_cons_self) _ tidy absent fun after gains _ => ⟨_,rfl,_,rfl,?_⟩
      have first := gainsBeside (after.searchDocuments.filter (·.memoryId != item.row.id) ++ [document item]) gains
      exact ih (fun other member => sound other (List.mem_cons_of_mem _ member)) first.tidy (gainsFresh first fresh)
        fun number last more => rest number last (gainsThen first more)
    cases checked with
    | true =>
      have looked : Ends post number t (.refuseExisting item.row.id::_) := ⟨absent,created⟩
      rw [List.flatMap_cons,List.append_assoc,createSteps,if_pos rfl]
      simpa only [List.append_assoc,List.cons_append,List.nil_append] using looked
    | false =>
      rw [List.flatMap_cons,List.append_assoc,createSteps,if_neg Bool.false_ne_true]
      simpa only [List.append_assoc,List.cons_append,List.nil_append] using created

structure Unopened (call : Call) : Prop where
  closed : call.opened = none
  running : call.outcome = none

/- Where a call is, and that from there it ends well: once it holds the lock always, before that in
whatever tables it finds, provided a number that it read already is still the next. -/
inductive Stage (base : Int) (committed : Tables) (call : Call) : Prop where
  | waiting (todo : List Step) (shape : call.todo = .beginImmediate::todo) (unopened : Unopened call)
    (ends : ∀ number t, Tidy base t → Fresh t call.memoryIds → Ends (Gains base t call.memoryIds) number t todo)
  | unread (row : MemoryRow) (todo : List Step) (shape : call.todo = .selectNext::.execute (.insertMemory row)::todo)
    (unopened : Unopened call) (listed : row.id ∈ call.memoryIds)
    (ends : ∀ t, Tidy base t → Fresh t call.memoryIds →
      Ends (Gains base t call.memoryIds) (nextMemoryRef t) t (.execute (.insertMemory row)::todo))
  | read (row : MemoryRow) (todo : List Step) (shape : call.todo = .execute (.insertMemory row)::todo)
    (unopened : Unopened call) (listed : row.id ∈ call.memoryIds)
    (ends : ∀ t, Tidy base t → Fresh t call.memoryIds →
      Ends (Gains base t call.memoryIds) (nextMemoryRef t) t (.execute (.insertMemory row)::todo))
    (least : base ≤ call.number) (most : call.number ≤ nextMemoryRef committed)
  | writing (t : Tables) (opened : call.opened = some t) (running : call.outcome = none)
    (ends : Ends (Gains base committed call.memoryIds) call.number t call.todo)
  | made (closed : call.opened = none) (idle : call.todo = []) (done : call.outcome = some (.ok ()))
    (there : ∀ memoryId ∈ call.memoryIds, committed.has memoryId = true)
  | refused (failure : Failure) (closed : call.opened = none) (idle : call.todo = [])
    (done : call.outcome = some (.error failure))

/- The number that a call read before its transaction is no longer the next when it first writes. -/
def Overtaken (call : Call) (store : Store) : Prop := call.opened = none ∧ store.locked = false ∧
  (∃ row todo, call.todo = .execute (.insertMemory row)::todo) ∧ call.number ≠ nextMemoryRef store.committed

/- What one step of a call does. -/
structure Moved (base : Int) (call : Call) (store : Store) (call' : Call) (store' : Store) : Prop where
  memoryIds : call'.memoryIds = call.memoryIds
  stage : Stage base store'.committed call'
  committed : store'.committed = store.committed ∨
    call.opened.isSome = true ∧ Gains base store.committed call.memoryIds store'.committed
  locked : store'.locked = (call'.opened.isSome || (store.locked && !call.opened.isSome))
  opens : call'.opened.isSome = true → call.opened.isSome = true ∨ store.locked = false
  running : call'.outcome = none → call.outcome = none ∧ store'.committed = store.committed
  refused : ∀ failure, call'.outcome = some (.error failure) →
    call.outcome = some (.error failure) ∨ Overtaken call store

variable {call : Call} {store : Store}

theorem movedNot (stage : Stage base store.committed call) (locked : call.opened.isSome = true → store.locked = true) :
    Moved base call store call store where
  memoryIds := rfl
  stage := stage
  committed := .inl rfl
  locked := by
    cases held : call.opened.isSome with
    | true => simp [locked held]
    | false => simp
  opens held := .inl held
  running quiet := ⟨quiet,rfl⟩
  refused _ ended := .inl ended

/- The tables of the transaction, or the number, change; nobody else sees it. -/
theorem movedWriting {t : Tables} (number : Int) (after : Tables) (todo : List Step) (opened : call.opened = some t)
    (running : call.outcome = none) (locked : store.locked = true)
    (ends : Ends (Gains base store.committed call.memoryIds) number after todo) :
    Moved base call store { call with number := number, opened := some after, todo := todo } store where
  memoryIds := rfl
  stage := .writing after rfl running ends
  committed := .inl rfl
  locked := by simp [locked]
  opens _ := .inl (by simp [opened])
  running _ := ⟨running,rfl⟩
  refused _ ended := by simp [running] at ended

theorem movedOpens (after : Tables) (todo : List Step) (unopened : Unopened call) (free : store.locked = false)
    (ends : Ends (Gains base store.committed call.memoryIds) call.number after todo) :
    Moved base call store { call with opened := some after, todo := todo } { store with locked := true } where
  memoryIds := rfl
  stage := .writing after rfl unopened.running ends
  committed := .inl rfl
  locked := by simp
  opens _ := .inr free
  running _ := ⟨unopened.running,rfl⟩
  refused _ ended := by simp [unopened.running] at ended

theorem movedCommits {t : Tables} (opened : call.opened = some t) (gains : Gains base store.committed call.memoryIds t) :
    Moved base call store (ended call (.ok ())) ⟨t,(released call store).locked⟩ where
  memoryIds := rfl
  stage := .made rfl rfl rfl fun memoryId member => (gains.has memoryId).mpr (.inr member)
  committed := .inr ⟨by simp [opened],gains⟩
  locked := by simp [released,ended,opened]
  opens held := by simp [ended] at held
  running quiet := by simp [ended] at quiet
  refused _ failed := by simp [ended] at failed

/- A call that holds the lock. -/
theorem stepWriting {t : Tables} (opened : call.opened = some t) (running : call.outcome = none)
    (ends : Ends (Gains base store.committed call.memoryIds) call.number t call.todo) (locked : store.locked = true) :
    Moved base call store (step call store).1 (step call store).2.1 := by
  obtain ⟨memoryIds,number,held,todo,outcome⟩ := call
  cases opened
  cases todo with
  | nil => exact ends.elim
  | cons next todo =>
    cases next with
    | commit => exact movedCommits rfl ends
    | selectNext => exact movedWriting _ _ todo rfl running locked ends
    | refuseExisting memoryId =>
      obtain ⟨absent,ends⟩ := ends
      have moved := movedWriting _ t todo rfl running locked ends
      simpa only [step,perform,Call.seen,Option.getD_some,absent,Bool.false_eq_true,if_false] using moved
    | execute dml =>
      obtain ⟨after,done,ends⟩ := ends
      have moved := movedWriting _ after todo rfl running locked ends
      have same : store = { store with locked := true } := by rw [← locked]
      dsimp only at done
      simpa [step,perform,Call.seen,done,← same] using moved
    | countUp => exact movedWriting _ _ todo rfl running locked ends
    | beginImmediate => exact ends.elim
    | raise failure => exact ends.elim

theorem stepWaits (locked : store.locked = true) (closed : call.opened = none)
    (writes : ∃ todo, call.todo = .beginImmediate::todo ∨ ∃ dml, call.todo = .execute dml::todo) :
    step call store = (call,store,[]) := by
  obtain ⟨todo,shape | ⟨dml,shape⟩⟩ := writes
  · simp [step,shape,perform,locked]
  · simp [step,shape,perform,locked,closed]

/- The number is taken by now, as those given since the start have no gap. -/
theorem overtakenRefused {row : MemoryRow} {todo : List Step} (tidy : Tidy base store.committed)
    (shape : call.todo = .execute (.insertMemory row)::todo) (absent : store.committed.has row.id = false)
    (least : base ≤ call.number) (most : call.number ≤ nextMemoryRef store.committed) (overtaken : Overtaken call store) :
    step call store =
      (ended call (.error (.integrity (unique "memories.memory_ref"))),store,[]) := by
  obtain ⟨closed,free,-,differs⟩ := overtaken
  obtain ⟨other,member,numbered⟩ := List.mem_filterMap.mp (tidy.filled call.number least (lt_of_le_of_ne most differs))
  have taken : store.committed.memories.any (·.memoryRef == some call.number) = true :=
    List.any_eq_true.mpr ⟨other,member,beq_iff_eq.mpr numbered⟩
  have same : released call store = store := by simp [released,closed]
  simp [step,shape,perform,free,Call.seen,closed,effect,sql,insertMemory,absent,taken,same]

theorem stepOpens {row : MemoryRow} {todo : List Step} (tidy : Tidy base store.committed)
    (fresh : Fresh store.committed call.memoryIds) (shape : call.todo = .execute (.insertMemory row)::todo)
    (unopened : Unopened call) (listed : row.id ∈ call.memoryIds) (least : base ≤ call.number)
    (most : call.number ≤ nextMemoryRef store.committed)
    (ends : Ends (Gains base store.committed call.memoryIds) (nextMemoryRef store.committed) store.committed
      (.execute (.insertMemory row)::todo)) (free : store.locked = false) :
    Moved base call store (step call store).1 (step call store).2.1 := by
  by_cases current : call.number = nextMemoryRef store.committed
  · obtain ⟨after,done,ends⟩ := ends
    rw [← current] at done ends
    have moved := movedOpens after todo unopened free ends
    simpa [step,shape,perform,free,Call.seen,unopened.closed,done] using moved
  · have overtaken : Overtaken call store := ⟨unopened.closed,free,⟨row,todo,shape⟩,current⟩
    rw [overtakenRefused tidy shape (fresh.absent _ listed) least most overtaken]
    exact ⟨rfl,.refused _ rfl rfl rfl,.inl rfl,by simp [ended,unopened.closed],fun held => by simp [ended] at held,
      fun quiet => by simp [ended] at quiet,fun _ _ => .inr overtaken⟩

theorem stepEnded (idle : call.todo = []) : step call store = (call,store,[]) := by
  simp [step,idle]

theorem stepStage (stage : Stage base store.committed call) (tidy : Tidy base store.committed)
    (fresh : call.outcome = none → Fresh store.committed call.memoryIds)
    (locked : call.opened.isSome = true → store.locked = true) :
    Moved base call store (step call store).1 (step call store).2.1 := by
  have rests := movedNot stage locked
  cases stage with
  | waiting todo shape unopened ends =>
    cases free : store.locked with
    | true => rwa [stepWaits free unopened.closed ⟨todo,.inl shape⟩]
    | false =>
      have moved := movedOpens _ todo unopened free (ends call.number _ tidy (fresh unopened.running))
      simpa [step,shape,perform,free] using moved
  | unread row todo shape unopened listed ends =>
    have seen : call.seen store = store.committed := by simp [Call.seen,unopened.closed]
    have same : step call store = ({ call with
      number := nextMemoryRef store.committed, todo := .execute (.insertMemory row)::todo },store,[]) := by
        simp [step,shape,perform,seen]
    rw [same]
    refine ⟨rfl,.read row todo rfl ⟨unopened.closed,unopened.running⟩ listed ends tidy.lowest le_rfl,.inl rfl,?_,?_,
      fun _ => ⟨unopened.running,rfl⟩,?_⟩
    · simp [unopened.closed]
    · simp [unopened.closed]
    · simp [unopened.running]
  | read row todo shape unopened listed ends least most =>
    cases free : store.locked with
    | true => rwa [stepWaits free unopened.closed ⟨todo,.inr ⟨_,shape⟩⟩]
    | false =>
      have fresh := fresh unopened.running
      exact stepOpens tidy fresh shape unopened listed least most (ends _ tidy fresh) free
  | writing t opened running ends => exact stepWriting opened running ends (locked (by simp [opened]))
  | made closed idle done there => rwa [stepEnded idle]
  | refused failure closed idle done => rwa [stepEnded idle]

/- The stage of a call when somebody else committed. -/
theorem stageCommitted {committed after : Tables} {memoryIds : List String} (gains : Gains base committed memoryIds after)
    (closed : call.opened = none) (stage : Stage base committed call) : Stage base after call := by
  cases stage with
  | waiting todo shape unopened ends => exact .waiting todo shape unopened ends
  | unread row todo shape unopened listed ends => exact .unread row todo shape unopened listed ends
  | read row todo shape unopened listed ends least most =>
    exact .read row todo shape unopened listed ends least (most.trans gains.higher)
  | writing t opened running ends => cases closed.symm.trans opened
  | made closed idle done there => exact .made closed idle done fun memoryId member => (gains.has memoryId).mpr (.inl (there memoryId member))
  | refused failure closed idle done => exact .refused failure closed idle done

/- Every world of a run whose creates name new memories. -/
structure Inv (base : Int) (w : World Call Store Unit) : Prop where
  tidy : Tidy base w.store.committed
  stages : ∀ call ∈ w.calls, Stage base w.store.committed call
  fresh : ∀ call ∈ w.calls, call.outcome = none → Fresh w.store.committed call.memoryIds
  apart : (w.calls.map (·.memoryIds)).Pairwise List.Disjoint
  locked : w.calls.countP (·.opened.isSome) = w.store.locked.toNat

theorem splitAt {calls : List Call} {index : Nat} (found : calls[index]? = some call) : ∃ before rest,
    calls = before ++ call::rest ∧ ∀ call', calls.set index call' = before ++ call'::rest := by
  obtain ⟨bound,there⟩ := List.getElem?_eq_some_iff.mp found
  refine ⟨calls.take index,calls.drop (index + 1),?_,fun call' => List.set_eq_take_append_cons_drop.trans (if_pos bound)⟩
  rw [← there,List.cons_getElem_drop_succ,List.take_append_drop]

theorem lockHeld {before rest : List Call} (counted : (before ++ call::rest).countP (·.opened.isSome) = store.locked.toNat)
    (opened : call.opened.isSome = true) : store.locked = true ∧ ∀ other ∈ before ++ rest, other.opened = none := by
  rw [List.countP_append,List.countP_cons,if_pos opened] at counted
  have atMost := store.locked.toNat_le
  have nobody : (before ++ rest).countP (·.opened.isSome) = 0 := by
    rw [List.countP_append]
    omega
  refine ⟨?_,fun other member => Option.not_isSome_iff_eq_none.mp (List.countP_eq_zero.mp nobody other member)⟩
  cases held : store.locked with
  | true => rfl
  | false =>
    rw [held] at counted
    simp at counted

theorem apartOthers {before rest : List Call} (apart : ((before ++ call::rest).map (·.memoryIds)).Pairwise List.Disjoint)
    {other : Call} (member : other ∈ before ++ rest) : other.memoryIds.Disjoint call.memoryIds := by
  rw [List.map_append,List.map_cons,List.pairwise_append] at apart
  obtain ⟨-,later,across⟩ := apart
  rcases List.mem_append.mp member with early | late
  · exact across _ (List.mem_map.mpr ⟨other,early,rfl⟩) _ List.mem_cons_self
  · exact ((List.pairwise_cons.mp later).1 _ (List.mem_map.mpr ⟨other,late,rfl⟩)).symm

theorem freshOther {committed after : Tables} {memoryIds others : List String} (gains : Gains base committed memoryIds after)
    (fresh : Fresh committed others) (apart : others.Disjoint memoryIds) : Fresh after others where
  distinct := fresh.distinct
  absent memoryId member := by
    rw [← Bool.not_eq_true,gains.has,fresh.absent memoryId member]
    exact fun either => either.elim Bool.false_ne_true (apart member)

theorem countedMoved {before rest : List Call} {call' : Call} {store' : Store} (moved : Moved base call store call' store')
    (counted : (before ++ call::rest).countP (·.opened.isSome) = store.locked.toNat) :
    (before ++ call'::rest).countP (·.opened.isSome) = store'.locked.toNat := by
  have locked := moved.locked
  have opens := moved.opens
  rw [List.countP_append,List.countP_cons] at counted ⊢
  generalize before.countP (·.opened.isSome) = early at counted ⊢
  generalize rest.countP (·.opened.isSome) = late at counted ⊢
  cases held : store.locked <;> cases here : call.opened.isSome <;> cases there : call'.opened.isSome <;>
    simp_all
  all_goals omega

/- A step of one call, seen by all. -/
theorem invMoved {before rest : List Call} {call' : Call} {store' : Store} {trace : List Unit}
    (inv : Inv base ⟨store,before ++ call::rest,trace⟩) (moved : Moved base call store call' store') (trace' : List Unit) :
    Inv base ⟨store',before ++ call'::rest,trace'⟩ := by
  have among (other : Call) (member : other ∈ before ++ rest) : other ∈ before ++ call::rest := by
    rcases List.mem_append.mp member with early | late
    · exact List.mem_append_left _ early
    · exact List.mem_append_right _ (List.mem_cons_of_mem _ late)
  have places {other : Call} (member : other ∈ before ++ call'::rest) : other = call' ∨ other ∈ before ++ rest := by
    rcases List.mem_append.mp member with early | late
    · exact .inr (List.mem_append_left _ early)
    · exact (List.mem_cons.mp late).imp_right (List.mem_append_right _)
  refine ⟨?_,fun other member => ?_,fun other member quiet => ?_,?_,countedMoved moved inv.locked⟩
  · rcases moved.committed with same | ⟨_,gains⟩
    · exact same ▸ inv.tidy
    · exact gains.tidy
  · rcases places member with rfl | beside
    · exact moved.stage
    · have stage := inv.stages other (among other beside)
      rcases moved.committed with same | ⟨opened,gains⟩
      · exact same ▸ stage
      · exact stageCommitted gains ((lockHeld inv.locked opened).2 other beside) stage
  · rcases places member with rfl | beside
    · obtain ⟨running,same⟩ := moved.running quiet
      rw [moved.memoryIds]
      exact same ▸ inv.fresh call (by simp) running
    · have fresh := inv.fresh other (among other beside) quiet
      rcases moved.committed with same | ⟨_,gains⟩
      · exact same ▸ fresh
      · exact freshOther gains fresh (apartOthers inv.apart beside)
  · have same : (before ++ call'::rest).map (·.memoryIds) = (before ++ call::rest).map (·.memoryIds) := by
      simp [moved.memoryIds]
    exact same ▸ inv.apart

/- The lists of a create have no value twice. -/

theorem eraseDupsNodup : ∀ values : List String, values.eraseDups.Nodup
  | [] => List.nodup_nil
  | value::rest => by
    rw [List.eraseDups_cons]
    refine List.nodup_cons.mpr ⟨?_,eraseDupsNodup _⟩
    simp
termination_by values => values.length
decreasing_by exact Nat.lt_succ_of_le (List.length_filter_le _ _)

theorem sortedSetNodup (values : List String) : (sortedSet values).Nodup :=
  (List.perm_insertionSort _ _).nodup_iff.mpr (List.nodup_dedup _)

variable {env domain}

theorem repositorySound {now : Moment Curation.ActionError} {request : Curation.CreateValues} {item : Item}
    (prepared : (prepareMemoryCreate env now request).map ofRepository = .ok item) : Sound item := by
  obtain ⟨ready,done,rfl⟩ := mappedOk.mp prepared
  unfold prepareMemoryCreate at done
  split at done
  · cases done
  · obtain ⟨memoryType,-,done⟩ := checkedOk.mp done
    obtain ⟨status,-,done⟩ := checkedOk.mp done
    obtain ⟨-,-,done⟩ := checkedOk.mp done
    obtain ⟨-,-,done⟩ := checkedOk.mp done
    split at done
    · cases done
    · cases done
      exact ⟨eraseDupsNodup _,eraseDupsNodup _⟩

theorem preparedOk {ε π : Type} {ready : Except ε π} {item : Item} {make : π → Item} {failed : ε → Failure}
    (done : (ready.map make).mapError failed = .ok item) : ∃ prepared, ready = .ok prepared ∧ make prepared = item := by
  cases ready with
  | error error => cases done
  | ok prepared => exact ⟨prepared,rfl,Except.ok.inj done⟩

theorem curationSound {now : Moment Curation.ActionError} {values : Curation.CreateValues} {item : Item}
    (prepared : ((Curation.prepareMemoryCreate env now values).map ofCuration).mapError Failure.action = .ok item) :
    Sound item := by
  obtain ⟨ready,done,rfl⟩ := preparedOk prepared
  unfold Curation.prepareMemoryCreate at done
  dsimp only at done
  split at done
  · cases done
  · split at done
    · cases done
    · split at done
      · cases done
      · cases done
        exact ⟨sortedSetNodup _,sortedSetNodup _⟩

theorem ingressSound {now : Moment Ingress.IngressError} {values : Ingress.CreateValues} {item : Item}
    (prepared : ((Ingress.prepareCreate domain now values).map ofIngress).mapError Failure.ingress = .ok item) :
    Sound item := by
  obtain ⟨ready,done,rfl⟩ := preparedOk prepared
  unfold Ingress.prepareCreate at done
  obtain ⟨memoryId,-,done⟩ := checkedOk.mp done
  obtain ⟨title,-,done⟩ := checkedOk.mp done
  obtain ⟨content,-,done⟩ := checkedOk.mp done
  dsimp only at done
  split at done
  · cases done
  · cases done
    exact ⟨sortedSetNodup _,sortedSetNodup _⟩

theorem repositoryItemsSound {requests : List (Moment Curation.ActionError × Curation.CreateValues)} {items : List Item}
    (ready : repositoryItems env requests = .ok items) : ∀ item ∈ items, Sound item := by
  induction requests generalizing items with
  | nil =>
    cases ready
    exact nofun
  | cons request rest ih =>
    rw [repositoryItems,List.mapM_cons] at ready
    obtain ⟨item,prepared,ready⟩ := checkedOk.mp ready
    obtain ⟨others,later,ready⟩ := checkedOk.mp ready
    cases ready
    exact List.forall_mem_cons.mpr ⟨repositorySound prepared,ih later⟩

theorem preparedSound {ρ : Type} {requests : List ρ} {prepare : ρ → Except Failure Item} {items : List Item}
    (sound : ∀ request item, prepare request = .ok item → Sound item) (ready : requests.map prepare = items.map .ok) :
    ∀ item ∈ items, Sound item := by
  intro item member
  have among : Except.ok item ∈ requests.map prepare := ready ▸ List.mem_map.mpr ⟨item,member,rfl⟩
  obtain ⟨request,-,prepared⟩ := List.mem_map.mp among
  exact sound request item prepared

/- Arguments that no check refuses. -/
def Valid (env : Curation.Env) (domain : Ingress.Env) : Create → Prop
  | .repository requests => ∃ items : List Item, repositoryItems env requests = .ok items
  | .curation requests => ∃ items : List Item, curationItems env requests = items.map .ok
  | .ingress requests => ∃ items : List Item, ingressItems domain requests = items.map .ok

theorem transactionStage {committed : Tables} (checked : Bool) (untagged : Failure) {items : List Item}
    (sound : ∀ item ∈ items, Sound item) : Stage base committed
      (begun (made (items.map .ok)) (transactionSteps checked untagged (items.map .ok))) := by
  have all : made (items.map .ok) = items := by simp [made,Except.toOption]
  rw [all]
  refine .waiting _ rfl ⟨rfl,rfl⟩ fun number t tidy fresh => ?_
  rw [List.flatMap_map]
  exact createsEnd checked untagged items sound tidy fresh fun _ _ gains => gains

theorem enterStage {op : Create} (valid : Valid env domain op) (committed : Tables) :
    Stage base committed (enter env domain op) ∧ (enter env domain op).opened = none := by
  cases op with
  | repository requests =>
    obtain ⟨items,ready⟩ := valid
    rw [enter,ready]
    cases items with
    | nil => exact ⟨.made rfl rfl rfl nofun,rfl⟩
    | cons item items =>
      refine ⟨.unread item.row _ rfl ⟨rfl,rfl⟩ List.mem_cons_self fun t tidy fresh => ?_,rfl⟩
      exact itemsEnd (item::items) (repositoryItemsSound ready) tidy fresh fun _ gains => gains
  | curation requests =>
    obtain ⟨items,ready⟩ := valid
    rw [enter,ready]
    exact ⟨transactionStage true _ (preparedSound (fun _ _ => curationSound) ready),rfl⟩
  | ingress requests =>
    obtain ⟨items,ready⟩ := valid
    rw [enter,ready]
    exact ⟨transactionStage false _ (preparedSound (fun _ _ => ingressSound) ready),rfl⟩

/- The ids of a create that begins are those of no memory and of no other create. -/
def Fitting (env : Curation.Env) (domain : Ingress.Env) (w : World Call Store Unit) : Event Create → Prop
  | .start op => Valid env domain op ∧ Fresh w.store.committed (enter env domain op).memoryIds ∧
    ∀ call ∈ w.calls, call.memoryIds.Disjoint (enter env domain op).memoryIds
  | .advance _ => True

/- Nobody committed a memory between a create's read of the number and its first statement that writes. -/
def Current (w : World Call Store Unit) : Event Create → Prop
  | .start _ => True
  | .advance index => ∀ call, w.calls[index]? = some call → ¬ Overtaken call w.store

/- A create that came to its end committed all its memories. -/
def Commits (w : World Call Store Unit) : Prop := ∀ call ∈ w.calls, ∀ outcome, call.outcome = some outcome →
  outcome = .ok () ∧ ∀ memoryId ∈ call.memoryIds, w.store.committed.has memoryId = true

def remaining (w : World Call Store Unit) : Nat := (w.calls.map (·.todo.length)).sum

/- Nobody waits for ever: somebody can go on as long as a create is open. -/
def Advances (env : Curation.Env) (domain : Ingress.Env) (w : World Call Store Unit) : Prop :=
  (∀ call ∈ w.calls, call.outcome.isSome = true) ∨
    ∃ index, remaining ((machine env domain).next w (.advance index)) < remaining w

theorem invNext {w : World Call Store Unit} {event : Event Create} (fitting : Fitting env domain w event) (inv : Inv base w) :
    Inv base ((machine env domain).next w event) := by
  cases event with
  | start op =>
    obtain ⟨valid,fresh,apart⟩ := fitting
    obtain ⟨stage,closed⟩ := enterStage valid w.store.committed
    refine ⟨inv.tidy,fun call member => ?_,fun call member quiet => ?_,?_,?_⟩
    · rcases List.mem_append.mp member with old | new
      · exact inv.stages call old
      · exact List.mem_singleton.mp new ▸ stage
    · rcases List.mem_append.mp member with old | new
      · exact inv.fresh call old quiet
      · exact List.mem_singleton.mp new ▸ fresh
    · rw [Machine.next,List.map_append,List.pairwise_append]
      refine ⟨inv.apart,List.pairwise_singleton _ _,fun memoryIds old new last => ?_⟩
      obtain ⟨call,member,rfl⟩ := List.mem_map.mp old
      cases List.mem_singleton.mp last
      exact apart call member
    · have counted := inv.locked
      simpa [Machine.next,machine,List.countP_append,closed] using counted
  | advance index =>
    cases found : w.calls[index]? with
    | none => rwa [nextIdle found]
    | some call =>
      obtain ⟨before,rest,all,set⟩ := splitAt found
      rw [nextAdvance found,set]
      obtain ⟨store,calls,trace⟩ := w
      dsimp only at all
      subst all
      have member : call ∈ before ++ call::rest := by simp
      exact invMoved inv (stepStage (inv.stages call member) inv.tidy (inv.fresh call member)
        fun opened => (lockHeld inv.locked opened).1) _

theorem settledStays (env : Curation.Env) (domain : Ingress.Env) {w : World Call Store Unit} {index : Nat} (found : w.calls[index]? = some call) (idle : call.todo = [])
    (events : List (Event Create)) : ((machine env domain).run w events).calls[index]? = some call := by
  have kept : Preserved (machine env domain) fun w => w.calls[index]? = some call := by
    refine ⟨fun w op here => ?_,fun w other moving there here => ?_⟩
    · rw [List.getElem?_append_left (List.getElem?_eq_some_iff.mp here).1]
      exact here
    · by_cases same : other = index
      · subst same
        cases there.symm.trans here
        rw [show (machine env domain).step call w.store = (call,w.store,[]) from stepEnded idle]
        dsimp only
        rw [List.getElem?_set_self (List.getElem?_eq_some_iff.mp here).1]
      · dsimp only
        rwa [List.getElem?_set_ne same]
  exact runPreserved kept events found

/- Once overtaken, refused for good. -/
theorem overtakenFails {w : World Call Store Unit} {index : Nat} (inv : Inv base w) (found : w.calls[index]? = some call)
    (overtaken : Overtaken call w.store) (events : List (Event Create)) :
    ¬ Commits ((machine env domain).run ((machine env domain).next w (.advance index)) events) := by
  have member := List.mem_of_getElem? found
  have refused : ∃ failure, step call w.store = (ended call (.error failure),w.store,[]) := by
    have ⟨closed,_,⟨row,todo,shape⟩,_⟩ := overtaken
    cases inv.stages call member with
    | waiting _ other _ _ => cases shape.symm.trans other
    | unread _ _ other _ _ _ => cases shape.symm.trans other
    | read row' todo' other unopened listed ends least most =>
      exact ⟨_,overtakenRefused inv.tidy other ((inv.fresh call member unopened.running).absent _ listed) least most overtaken⟩
    | writing _ opened _ _ => cases closed.symm.trans opened
    | made _ idle _ _ => cases shape.symm.trans idle
    | refused _ _ idle _ => cases shape.symm.trans idle
  obtain ⟨failure,stepped⟩ := refused
  have after : ((machine env domain).next w (.advance index)).calls[index]? = some (ended call (.error failure)) := by
    rw [nextAdvance found,show (machine env domain).step call w.store = _ from stepped]
    exact List.getElem?_set_self (List.getElem?_eq_some_iff.mp found).1
  intro commits
  have last := settledStays env domain after rfl events
  cases (commits _ (List.mem_of_getElem? last) _ rfl).1

/- Where nobody was overtaken, nobody was refused. -/
theorem unrefusedNext {w : World Call Store Unit} {event : Event Create} (fitting : Fitting env domain w event)
    (current : Current w event) (inv : Inv base w)
    (unrefused : ∀ call ∈ w.calls, ∀ failure, call.outcome ≠ some (.error failure)) :
    ∀ call ∈ ((machine env domain).next w event).calls, ∀ failure, call.outcome ≠ some (.error failure) := by
  cases event with
  | start op =>
    obtain ⟨valid,-,-⟩ := fitting
    intro call member failure failed
    rcases List.mem_append.mp member with old | new
    · exact unrefused call old failure failed
    · cases List.mem_singleton.mp new
      cases op with
      | repository requests =>
        obtain ⟨items,ready⟩ := valid
        rw [show (machine env domain).enter (.repository requests) = enter env domain (.repository requests) from rfl,
          enter,ready] at failed
        cases items <;> cases failed
      | curation requests => cases failed
      | ingress requests => cases failed
  | advance index =>
    cases found : w.calls[index]? with
    | none => rwa [nextIdle found]
    | some moving =>
      have member := List.mem_of_getElem? found
      rw [nextAdvance found]
      intro call there failure failed
      rcases List.mem_or_eq_of_mem_set there with old | rfl
      · exact unrefused call old failure failed
      · have opened : moving.opened.isSome = true → w.store.locked = true := by
          obtain ⟨before,rest,all,-⟩ := splitAt found
          exact fun here => (lockHeld (all ▸ inv.locked) here).1
        have moved := stepStage (inv.stages moving member) inv.tidy (inv.fresh moving member) opened
        rcases moved.refused failure failed with before | overtaken
        · exact unrefused moving member failure before
        · exact current moving found overtaken

/- A call that need not wait goes on or ends. -/
theorem stepShorter {next : Step} {todo : List Step} (shape : call.todo = next::todo)
    (goes : store.locked = false ∨ call.opened.isSome = true ∧ next ≠ .beginImmediate) :
    (step call store).1.todo.length < call.todo.length := by
  rw [step,shape,List.length_cons]
  cases next with
  | beginImmediate =>
    obtain free | ⟨-,nested⟩ := goes
    · simp [perform,free]
    · exact absurd rfl nested
  | execute dml =>
    have unheld : (store.locked && call.opened.isNone) = false := by
      obtain free | ⟨opened,-⟩ := goes
      · simp [free]
      · simp [Option.isNone_eq_false_iff.mpr opened]
    dsimp only [perform]
    rw [unheld,if_neg Bool.false_ne_true]
    cases effect call.number (call.seen store) dml <;> simp [ended]
  | refuseExisting memoryId =>
    dsimp only [perform]
    split <;> simp [ended]
  | selectNext => simp [perform]
  | raise failure => simp [perform,ended]
  | countUp => simp [perform]
  | commit => simp [perform,ended]

theorem stageShorter (stage : Stage base store.committed call) (running : call.outcome = none)
    (goes : store.locked = false ∨ call.opened.isSome = true) : (step call store).1.todo.length < call.todo.length := by
  have free (unopened : Unopened call) : store.locked = false := by
    rw [unopened.closed] at goes
    simpa using goes
  cases stage with
  | waiting todo shape unopened ends => exact stepShorter shape (.inl (free unopened))
  | unread row todo shape unopened listed ends => exact stepShorter shape (.inl (free unopened))
  | read row todo shape unopened listed ends least most => exact stepShorter shape (.inl (free unopened))
  | writing t opened _ ends =>
    cases shape : call.todo with
    | nil =>
      rw [shape] at ends
      exact ends.elim
    | cons next todo =>
      rw [← shape]
      refine stepShorter shape (.inr ⟨by simp [opened],?_⟩)
      rintro rfl
      rw [shape] at ends
      exact ends.elim
  | made closed idle done there => cases running.symm.trans done
  | refused failure closed idle done => cases running.symm.trans done

theorem invAdvances {w : World Call Store Unit} (inv : Inv base w) : Advances env domain w := by
  have shorter {call : Call} (member : call ∈ w.calls)
      (less : (step call w.store).1.todo.length < call.todo.length) : Advances env domain w := by
    obtain ⟨index,found⟩ := List.mem_iff_getElem?.mp member
    refine .inr ⟨index,?_⟩
    obtain ⟨before,rest,all,set⟩ := splitAt found
    have same : (machine env domain).step call w.store = step call w.store := rfl
    rw [nextAdvance found,remaining,remaining,set,all]
    simp only [List.map_append,List.map_cons,List.sum_append,List.sum_cons,same]
    omega
  cases held : w.store.locked with
  | true =>
    have one : 0 < w.calls.countP (·.opened.isSome) := by rw [inv.locked,held]; decide
    obtain ⟨call,member,opened⟩ := List.countP_pos_iff.mp one
    have running : call.outcome = none := by
      cases inv.stages call member with
      | writing _ _ running _ => exact running
      | waiting _ _ unopened _ => exact unopened.running
      | unread _ _ _ unopened _ _ => exact unopened.running
      | read _ _ _ unopened _ _ _ _ => exact unopened.running
      | made closed _ _ _ => simp [closed] at opened
      | refused _ closed _ _ => simp [closed] at opened
    exact shorter member (stageShorter (inv.stages call member) running (.inr opened))
  | false =>
    by_cases all : ∀ call ∈ w.calls, call.outcome.isSome = true
    · exact .inl all
    · simp only [not_forall] at all
      obtain ⟨call,member,running⟩ := all
      exact shorter member (stageShorter (inv.stages call member) (Option.not_isSome_iff_eq_none.mp running) (.inl held))

theorem invRun {w : World Call Store Unit} {events : List (Event Create)}
    (fitting : Meets (machine env domain) (Fitting env domain) w events) (inv : Inv base w) :
    Inv base ((machine env domain).run w events) := runMeets (fun _ _ => invNext) fitting inv

theorem unrefusedRun {w : World Call Store Unit} {events : List (Event Create)}
    (fitting : Meets (machine env domain) (Fitting env domain) w events) (current : Meets (machine env domain) Current w events)
    (inv : Inv base w) (unrefused : ∀ call ∈ w.calls, ∀ failure, call.outcome ≠ some (.error failure)) :
    ∀ call ∈ ((machine env domain).run w events).calls, ∀ failure, call.outcome ≠ some (.error failure) := by
  induction events generalizing w with
  | nil => exact unrefused
  | cons event events ih =>
    exact ih fitting.2 current.2 (invNext fitting.1 inv) (unrefusedNext fitting.1 current.1 inv unrefused)

theorem invStart {t : Tables} (distinct : (numbers t).Nodup) (numbering : Numbering t) :
    Inv (nextMemoryRef t) (idle ⟨t,false⟩ : World Call Store Unit) where
  tidy := ⟨distinct,fun _ least less => absurd less (not_lt.mpr least),le_rfl,numbering⟩
  stages _ member := absurd member List.not_mem_nil
  fresh _ member := absurd member List.not_mem_nil
  apart := .nil
  locked := rfl

theorem committedEnded {w : World Call Store Unit} (inv : Inv base w)
    (unrefused : ∀ call ∈ w.calls, ∀ failure, call.outcome ≠ some (.error failure)) : Commits w := by
  intro call member outcome done
  cases inv.stages call member with
  | made _ _ other there => exact ⟨Option.some.inj (done.symm.trans other),there⟩
  | refused failure _ _ other => exact absurd other (unrefused call member failure)
  | writing _ _ running _ => cases running.symm.trans done
  | waiting _ _ unopened _ => cases unopened.running.symm.trans done
  | unread _ _ _ unopened _ _ => cases unopened.running.symm.trans done
  | read _ _ _ unopened _ _ _ _ => cases unopened.running.symm.trans done

theorem allocates {t : Tables} (distinct : (numbers t).Nodup) (numbering : Numbering t) {events : List (Event Create)}
    (fitting : Meets (machine env domain) (Fitting env domain) (idle ⟨t,false⟩) events) :
    (numbers ((machine env domain).run (idle ⟨t,false⟩) events).store.committed).Nodup ∧
      Advances env domain ((machine env domain).run (idle ⟨t,false⟩) events) ∧
      (Commits ((machine env domain).run (idle ⟨t,false⟩) events) ↔
        Meets (machine env domain) Current (idle ⟨t,false⟩) events) := by
  have start := invStart distinct numbering
  have inv := invRun fitting start
  refine ⟨inv.tidy.distinct,invAdvances inv,fun commits => ?_,fun current => ?_⟩
  · rw [meetsAt]
    intro n event found
    cases event with
    | start op => trivial
    | advance index =>
      intro call here overtaken
      have before := invRun (meetsTake fitting n) start
      rw [← List.take_append_drop (n + 1) events,runAppend,runTake found] at commits
      exact overtakenFails before here overtaken _ commits
  · exact committedEnded inv (unrefusedRun fitting current start fun _ member => absurd member List.not_mem_nil)

/- Two creates of the repository, one after the other. -/

def nextId : String := "00000000-0000-0000-0000-000000000002"

def request (memoryId title : String) : Moment Curation.ActionError × Curation.CreateValues :=
  (⟨none,memoryId,"t0",0⟩,⟨some memoryId,title,"kept",none,none,none,["w"],["tag"],none,none,none,[]⟩)

theorem pairFitting (rest : List (Event Create)) (only : ∀ event ∈ rest, ∃ index, event = .advance index) :
    Meets (machine asciiActions asciiDomain) (Fitting asciiActions asciiDomain) (idle ⟨empty,false⟩)
      (.start (.repository [request noteId "note"])::.start (.repository [request nextId "next"])::rest) := by
  have later : ∀ w : World Call Store Unit, Meets (machine asciiActions asciiDomain) (Fitting asciiActions asciiDomain) w rest := by
    induction rest with
    | nil => exact fun _ => trivial
    | cons event rest ih =>
      intro w
      obtain ⟨index,rfl⟩ := only _ List.mem_cons_self
      exact ⟨trivial,ih (fun event member => only event (List.mem_cons_of_mem _ member)) _⟩
  refine ⟨⟨⟨_,rfl⟩,⟨by decide +kernel,by decide +kernel⟩,fun _ member => absurd member List.not_mem_nil⟩,
    ⟨⟨_,rfl⟩,⟨by decide +kernel,by decide +kernel⟩,?_⟩,later _⟩
  intro call member
  cases List.mem_singleton.mp member
  have apart : ∀ memoryId ∈ (enter asciiActions asciiDomain (.repository [request noteId "note"])).memoryIds,
      memoryId ∉ (enter asciiActions asciiDomain (.repository [request nextId "next"])).memoryIds := by decide +kernel
  exact fun memoryId here there => apart memoryId here there

def inTurn : List (Event Create) := List.replicate 10 (.advance 0) ++ List.replicate 10 (.advance 1)

theorem allocatesSample :
    let events := .start (.repository [request noteId "note"])::.start (.repository [request nextId "next"])::inTurn
    let last := (machine asciiActions asciiDomain).run (idle ⟨empty,false⟩) events
    numbers last.store.committed = [1,2] ∧ (numbers last.store.committed).Nodup ∧ Advances asciiActions asciiDomain last ∧
      (Commits last ↔ Meets (machine asciiActions asciiDomain) Current (idle ⟨empty,false⟩) events) := by
  have distinct : (numbers empty).Nodup := List.nodup_nil
  have numbering : Numbering empty := ⟨fun _ member => absurd member List.not_mem_nil,List.nodup_nil⟩
  exact ⟨by decide +kernel,allocates distinct numbering (pairFitting inTurn (by simp [inTurn]))⟩

/- Both read the number, one inserts and commits, the other inserts. -/
def racing : List (Event Create) :=
  [.start (.repository [request noteId "note"]),.start (.repository [request nextId "next"]),.advance 0,.advance 1] ++
    List.replicate 9 (.advance 0) ++ [.advance 1]

def failed (call : Call) : Bool := match call.outcome with
  | some (.error (.integrity error)) => error == unique "memories.memory_ref"
  | _ => false

theorem createOvertaken :
    Meets (machine asciiActions asciiDomain) (Fitting asciiActions asciiDomain) (idle ⟨empty,false⟩) racing ∧
      ¬ Commits ((machine asciiActions asciiDomain).run (idle ⟨empty,false⟩) racing) := by
  refine ⟨pairFitting _ (by simp),fun commits => ?_⟩
  have fails : (((machine asciiActions asciiDomain).run (idle ⟨empty,false⟩) racing).calls.any failed) = true := by
    decide +kernel
  obtain ⟨call,member,lost⟩ := List.any_eq_true.mp fails
  unfold failed at lost
  split at lost
  · rename_i error ended
    cases (commits call member _ ended).1
  · cases lost

end McpMemory.Relational.Allocation
