import McpMemory.Relational.Archiving

/-! What a memory reference denotes while memories come and go. A new memory takes the number
after the highest that is in the table, so a number comes again once the memory that has
the highest one is gone. -/
namespace McpMemory.Relational
open Memory Text Transaction
open Curation (ActionError Command Reply repositoryMemory parseMemoryRef)

variable (env : Curation.Env) (domain : Ingress.Env)

def Denotes (t : Tables) (reference memoryId : String) : Prop :=
  ∃ record, repositoryMemory t reference = .ok (some record) ∧ record.id = memoryId

theorem denotesRead {t : Tables} {reference memoryId : String} :
    Denotes t reference memoryId ↔ (repositoryMemory t reference).toOption.join.map (·.id) = some memoryId := by
  unfold Denotes
  rcases repositoryMemory t reference with message | _ | record <;> simp [Except.toOption]

instance {t : Tables} {reference memoryId : String} : Decidable (Denotes t reference memoryId) :=
  decidable_of_iff' _ denotesRead

/- An id that could be read as a reference would be found first. -/
def Plain (t : Tables) : Prop := ∀ row ∈ t.memories, parseMemoryRef row.id = .ok none

theorem plainRead {t : Tables} : Plain t ↔ ∀ row ∈ t.memories, (parseMemoryRef row.id).toOption = some none :=
  forall₂_congr fun row _ => by rcases parseMemoryRef row.id with message | number <;> simp [Except.toOption]

instance {t : Tables} : Decidable (Plain t) := decidable_of_iff' _ plainRead

abbrev Label := String × Option Int

def labels (t : Tables) : List Label := t.memories.map fun row => (row.id,row.memoryRef)

/- Each memory that goes has a lower number than one that stays. -/
def Outranked (gone : List String) (t : Tables) : Prop := ∀ label ∈ labels t, label.1 ∈ gone →
  ∀ number ∈ label.2, ∃ other ∈ labels t, other.1 ∉ gone ∧ ∃ higher ∈ other.2, number ≤ higher

instance {gone t} : Decidable (Outranked gone t) := inferInstanceAs (Decidable (∀ label ∈ labels t, label.1 ∈ gone →
  ∀ number ∈ label.2, ∃ other ∈ labels t, other.1 ∉ gone ∧ ∃ higher ∈ other.2, number ≤ higher))

def numbering : Allowed where
  repository seen command t := match command with
    | .deleteMemory memoryId => ∀ existing, Found seen t memoryId existing → Outranked [existing.id] t
    | _ => True
  curation command t := match command with
    | .deleteMemory memoryId => Outranked [Curation.canonicalId env memoryId] t
    | _ => True
  ingress _ _ := True
  factCheck _ _ := True

/- The memories that a sweep takes. -/
def collected (sweep : Maintenance.Sweep) (database : Database) : List String :=
  let rows := ((database.memory.memories.filter (Maintenance.isExpired sweep.cutoff)).insertionSort
    (Maintenance.expiredLe · ·)).take sweep.batchSize
  (rows.map (·.id)).filter (Maintenance.isEligible sweep database)

def Lasting (write : Write) (database : Database) : Prop :=
  (numbering env).On env domain write database ∧ match write with
    | .sweep sweep => sweep.delete = true → Outranked (collected sweep database) database.memory
    | _ => True

/- One number belongs to one memory. -/
def Distinct (t : Tables) : Prop := ∀ a ∈ labels t, ∀ b ∈ labels t, a.2 = b.2 → a.2 ≠ none → a.1 = b.1

structure Means (number : Int) (memoryId : String) (t : Tables) : Prop where
  owner : ∀ label ∈ labels t, label.2 = some number → label.1 = memoryId
  passed : ∃ label ∈ labels t, ∃ higher, label.2 = some higher ∧ number ≤ higher

variable {env domain} {before after t : Tables}

theorem labelsUpdate {sel : MemoryRow → Bool} {set : MemoryRow → MemoryRow}
    (rows : after.memories = Table.update sel set before.memories)
    (same : ∀ row, ((set row).id,(set row).memoryRef) = (row.id,row.memoryRef)) : labels after = labels before := by
  unfold labels
  rw [rows]
  exact Table.updateKeys fun row _ _ => same row

theorem labelsStatuses {memoryIds : List String} {status : String} {currentStatus : Option String} :
    labels (Maintenance.updateMemoryStatuses memoryIds status currentStatus t) = labels t := by
  unfold Maintenance.updateMemoryStatuses
  dsimp only
  split
  · rfl
  · exact labelsUpdate rfl fun _ => rfl

theorem labelsFilter {memoryId : String} (rows : after.memories = before.memories.filter (·.id != memoryId)) :
    labels after = (labels before).filter (·.1 != memoryId) := by
  unfold labels
  rw [rows,List.filter_map]
  rfl

theorem labelsInsert {row : MemoryRow} (made : insertMemory row before = .ok ((),after)) :
    labels after = labels before ++ [(row.id,row.memoryRef)] := by
  unfold insertMemory at made
  split at made
  · cases made
  · split at made <;> cases made
    simp [labels]

/- What a change does to the numbers: nothing, or one number is given or taken. -/
def Renumbers (gone : Option String) (before after : Tables) : Prop :=
  labels after = labels before ∨ (∃ memoryId, labels after = labels before ++ [(memoryId,some (nextMemoryRef before))]) ∨
    ∃ memoryId, gone = some memoryId ∧ labels after = (labels before).filter (·.1 != memoryId)

theorem deletedRenumbers {gone : String} {middle : Tables} (same : middle.memories = before.memories)
    (made : Memory.deleteMemory gone middle = .ok ((),after)) : Renumbers (some gone) before after := by
  cases made
  exact .inr (.inr ⟨gone,rfl,labelsFilter (congrArg (List.filter (·.id != gone)) same)⟩)

theorem repositoryRenumbers {seen command} (made : Change env seen command before after) :
    Renumbers none before after ∨ ∃ memoryId existing, command = .deleteMemory memoryId ∧
      Found seen before memoryId existing ∧ Renumbers (some existing.id) before after := by
  cases command with
  | getMemory | getLinks | getProtections | setLineage => exact made.elim
  | updateMemory memoryId changes =>
    obtain ⟨existing,revised,now,found,given,made⟩ := made
    cases made
    exact .inl (.inl (labelsUpdate rfl fun _ => rfl))
  | createMemory values =>
    obtain ⟨now,item,given,made⟩ := made
    exact .inl (.inr (.inl ⟨item.row.id,labelsInsert made⟩))
  | deleteMemory memoryId =>
    obtain ⟨existing,found,cut,middle,unlinked,apart,last⟩ := made
    cases unlinked
    exact .inr ⟨memoryId,existing,rfl,found,deletedRenumbers apart.memories last⟩
  | addLink =>
    obtain ⟨normalized,_,made⟩ := made
    unfold replaceLink at made
    split at made <;> cases made
    exact .inl (.inl rfl)
  | removeLink =>
    obtain ⟨normalized,rowcount,_,made⟩ := made
    cases made
    exact .inl (.inl rfl)

theorem curationRenumbers {command} (made : Curation.Change env command before after) :
    Renumbers none before after ∨ ∃ memoryId, command = .deleteMemory memoryId ∧
      Renumbers (some (Curation.canonicalId env memoryId)) before after := by
  cases command with
  | getMemory | getLinks | getProtections => exact made.elim
  | updateMemory memoryId changes =>
    obtain ⟨existing,prepared,now,_,_,made⟩ := made
    cases made
    exact .inl (.inl (labelsUpdate rfl fun _ => rfl))
  | createMemory values =>
    obtain ⟨now,prepared,given,made⟩ := made
    exact .inl (.inr (.inl ⟨prepared.row.id,labelsInsert made⟩))
  | deleteMemory memoryId =>
    obtain ⟨middle,apart,made⟩ := made
    exact .inr ⟨memoryId,rfl,deletedRenumbers apart.memories made⟩
  | addLink =>
    obtain ⟨normalized,_,made⟩ := made
    unfold upsertLink at made
    dsimp only at made
    split at made
    · cases made
      exact .inl (.inl rfl)
    · split at made <;> cases made
      exact .inl (.inl rfl)
  | removeLink =>
    obtain ⟨normalized,rowcount,_,made⟩ := made
    cases made
    exact .inl (.inl rfl)
  | setLineage memoryId lineage =>
    obtain ⟨record,_,existing,prepared,now,_,_,made⟩ := made
    cases made
    exact .inl (.inl (labelsUpdate rfl fun _ => rfl))

theorem ingressRenumbers {command} (made : Ingress.Change domain command before after) : Renumbers none before after := by
  cases command with
  | getMemory => exact made.elim
  | createMemory values =>
    obtain ⟨now,prepared,given,made⟩ := made
    exact .inr (.inl ⟨prepared.memoryId,labelsInsert made⟩)
  | appendMemory values =>
    obtain ⟨memoryId,prepared,now,made⟩ := made
    cases made
    exact .inl (labelsUpdate rfl fun _ => rfl)

/- The next number is higher than every one that is in the table. -/
theorem nextHigher {label : Label} (member : label ∈ labels t) {number} (given : label.2 = some number) :
    number < nextMemoryRef t := by
  obtain ⟨row,there,rfl⟩ := List.mem_map.mp member
  have listed : number ∈ t.memories.filterMap (·.memoryRef) := List.mem_filterMap.mpr ⟨row,there,given⟩
  unfold nextMemoryRef
  cases top : (t.memories.filterMap (·.memoryRef)).max? with
  | none =>
    rw [List.max?_eq_none_iff.mp top] at listed
    cases listed
  | some highest =>
    have above := (List.max?_eq_some_iff.mp top).2 number listed
    rw [Option.getD_some]
    omega

theorem distinctRenumbers {gone} (made : Renumbers gone before after) (distinct : Distinct before) : Distinct after := by
  rcases made with same | ⟨memoryId,same⟩ | ⟨memoryId,_,same⟩
  · rwa [Distinct,same]
  · rw [Distinct,same]
    intro a first b second agree numbered
    rcases List.mem_append.mp first with old | new <;> rcases List.mem_append.mp second with old' | new'
    · exact distinct a old b old' agree numbered
    · cases List.mem_singleton.mp new'
      exact absurd (nextHigher old agree) (lt_irrefl _)
    · cases List.mem_singleton.mp new
      exact absurd (nextHigher old' agree.symm) (lt_irrefl _)
    · rw [List.mem_singleton.mp new,List.mem_singleton.mp new']
  · rw [Distinct,same]
    exact fun a first b second => distinct a (List.mem_filter.mp first).1 b (List.mem_filter.mp second).1

theorem distinctKept : Kept env domain (numbering env) Distinct where
  beside before after beside distinct := @distinctRenumbers _ _ none (.inl (congrArg (List.map _) beside.memories)) distinct
  repository seen command before after _ distinct made := by
    rcases repositoryRenumbers made with made | ⟨_,_,_,_,made⟩ <;> exact distinctRenumbers made distinct
  curation command before after _ distinct made := by
    rcases curationRenumbers made with made | ⟨_,_,made⟩ <;> exact distinctRenumbers made distinct
  ingress command before after _ distinct made := distinctRenumbers (ingressRenumbers made) distinct
  staleness cutoff workspaceId t distinct := @distinctRenumbers _ _ none (.inl (labelsUpdate rfl fun _ => rfl)) distinct
  factCheck present t _ distinct := @distinctRenumbers _ _ none (.inl (labelsStatuses.trans labelsStatuses)) distinct
  deletes t after memoryId distinct rows _ := distinctRenumbers (.inr (.inr ⟨_,rfl,labelsFilter rows⟩)) distinct

variable {number : Int} {memoryId : String}

theorem meansSame (same : labels after = labels before) (means : Means number memoryId before) :
    Means number memoryId after := ⟨same ▸ means.owner,same ▸ means.passed⟩

/- A number that is passed is not given again while a number above it stays. -/
theorem meansRenumbers {gone} (made : Renumbers gone before after) (outranked : ∀ taken ∈ gone, Outranked [taken] before)
    (means : Means number memoryId before) : Means number memoryId after := by
  obtain ⟨label,there,higher,given,above⟩ := means.passed
  rcases made with same | ⟨fresh,same⟩ | ⟨taken,left,same⟩
  · exact meansSame same means
  · refine ⟨fun other member numbered => ?_,label,same ▸ List.mem_append_left _ there,higher,given,above⟩
    rcases List.mem_append.mp (same ▸ member) with old | new
    · exact means.owner other old numbered
    · cases List.mem_singleton.mp new
      have next := nextHigher there given
      have reused : nextMemoryRef before = number := Option.some.inj numbered
      omega
  · refine ⟨fun other member => means.owner other (List.mem_filter.mp (same ▸ member)).1,?_⟩
    by_cases goes : label.1 = taken
    · obtain ⟨other,stays,apart,top,topped,le⟩ := outranked taken left label there (List.mem_singleton.mpr goes) higher given
      refine ⟨other,same ▸ List.mem_filter.mpr ⟨stays,?_⟩,top,topped,above.trans le⟩
      simpa using apart
    · exact ⟨label,same ▸ List.mem_filter.mpr ⟨there,by simpa using goes⟩,higher,given,above⟩

theorem meansSweep {sweep : Maintenance.Sweep} {database : Database}
    (outranked : sweep.delete = true → Outranked (collected sweep database) database.memory)
    (means : Means number memoryId database.memory) :
    Means number memoryId (Maintenance.gcArchivedMemories sweep database).memory := by
  have each : ∀ (gone taken : List String) (database : Database), (∀ memoryId ∈ taken, memoryId ∈ gone) →
      (∀ label ∈ labels database.memory, label.2 = some number → label.1 = memoryId) →
      (∃ label ∈ labels database.memory, label.1 ∉ gone ∧ ∃ higher, label.2 = some higher ∧ number ≤ higher) →
      Means number memoryId (taken.foldl (Maintenance.deleteArchived sweep) database).memory := by
    intro gone taken
    induction taken with
    | nil => exact fun database _ owner ⟨label,there,_,passed⟩ => ⟨owner,label,there,passed⟩
    | cons first rest ih =>
      intro database among owner ⟨label,there,stays,passed⟩
      refine ih _ (fun other member => among other (List.mem_cons_of_mem _ member)) ?_ ?_
      all_goals
        unfold Maintenance.deleteArchived
        dsimp only
        split
      · intro other member
        rw [@labelsFilter database.memory _ first rfl] at member
        exact owner other (List.mem_filter.mp member).1
      · exact owner
      · refine ⟨label,?_,stays,passed⟩
        rw [@labelsFilter database.memory _ first rfl]
        refine List.mem_filter.mpr ⟨there,?_⟩
        simpa using fun same : label.1 = first => stays (same ▸ among first List.mem_cons_self)
      · exact ⟨label,there,stays,passed⟩
  unfold Maintenance.gcArchivedMemories
  dsimp only
  split
  · rename_i deletes
    refine each (collected sweep database) _ database (fun _ member => member) means.owner ?_
    obtain ⟨label,there,higher,given,above⟩ := means.passed
    by_cases goes : label.1 ∈ collected sweep database
    · obtain ⟨other,stays,apart,top,topped,le⟩ := outranked deletes label there goes higher given
      exact ⟨other,stays,apart,top,topped,above.trans le⟩
    · exact ⟨label,there,goes,higher,given,above⟩
  · exact means

theorem meansApply {write : Write} {database : Database} (lasting : Lasting env domain write database)
    (means : Means number memoryId database.memory) : Means number memoryId (apply env domain write database).memory := by
  obtain ⟨fine,swept⟩ := lasting
  have beside : ∀ before after, Beside before after → Means number memoryId before → Means number memoryId after :=
    fun before after beside => meansSame (congrArg (List.map _) beside.memories)
  cases write with
  | repository seen script oracle =>
    refine @repositoryKeeps env (Means number memoryId) beside _ _ _ _ (fun command before after fine means made => ?_) _ fine means
    rcases repositoryRenumbers made with kept | ⟨_,existing,rfl,found,kept⟩
    · exact meansRenumbers kept (fun _ same => nomatch same) means
    · exact meansRenumbers kept (fun taken same => Option.some.inj same ▸ fine existing found) means
  | curation attempt =>
    refine @curateKeeps env (Means number memoryId) beside _ _ (fun command before after fine means made => ?_) _ fine means
    rcases curationRenumbers made with kept | ⟨_,rfl,kept⟩
    · exact meansRenumbers kept (fun _ same => nomatch same) means
    · exact meansRenumbers kept (fun taken same => Option.some.inj same ▸ fine) means
  | ingress attempt =>
    unfold apply
    refine @ingressKeeps domain (Means number memoryId) beside attempt _ (fun command before after _ means made => ?_) _ fine means
    exact meansRenumbers (ingressRenumbers made) (fun _ same => nomatch same) means
  | staleness cutoff workspaceId => exact meansSame (labelsUpdate rfl fun _ => rfl) means
  | factCheck present => exact meansSame (labelsStatuses.trans labelsStatuses) means
  | sweep sweep => exact meansSweep swept means

/- What a reference that is no id denotes is the memory that carries its number. -/
theorem denotesRow {reference : String} (plain : Plain t) (denotes : Denotes t reference memoryId) :
    (∃ number : Nat, parseMemoryRef reference = .ok (some number) ∧ (memoryId,some (number : Int)) ∈ labels t) ∨
      parseMemoryRef reference = .ok none ∧ memoryId = reference := by
  obtain ⟨record,looked,rfl⟩ := denotes
  obtain ⟨resolved,read,found⟩ := Curation.repositoryResolved looked
  obtain ⟨here,same,built⟩ := Option.map_eq_some_iff.mp found
  have named : record.id = resolved := by
    rw [← built]
    exact beq_iff_eq.mp (Table.findSome same).2
  rcases Curation.resolvedSource read with ⟨there,rfl⟩ | ⟨number,parsed,row,member,numbered,rfl⟩
  · obtain ⟨row,member,same⟩ := List.any_eq_true.mp there
    exact .inr ⟨beq_iff_eq.mp same ▸ plain row member,named⟩
  · exact .inl ⟨number,parsed,List.mem_map.mpr ⟨row,member,Prod.ext named.symm numbered⟩⟩

theorem lastingRun {database : Database} {writes} (fine : Interleave.Holding (apply env domain) (Lasting env domain) database writes)
    (means : Means number memoryId database.memory) :
    Means number memoryId (Interleave.reach (apply env domain) database writes).memory :=
  @Interleave.reachHolding _ _ _ (fun database => Means number memoryId database.memory) _ (fun _ _ => meansApply) _ _ fine means

theorem distinctRun {database : Database} {writes} (fine : Interleave.Holding (apply env domain) (Lasting env domain) database writes)
    (distinct : Distinct database.memory) : Distinct (Interleave.reach (apply env domain) database writes).memory :=
  @Interleave.reachHolding _ _ _ (fun database => Distinct database.memory) _
    (fun _ _ lasting => keptApply distinctKept lasting.1) _ _ fine distinct

/- While no deletion takes a number above all that stay, a reference that denoted a memory
denotes the same memory for ever, or none. -/
theorem referenceLasts {database : Database} {first rest} {reference once later : String}
    (distinct : Distinct database.memory)
    (fine : Interleave.Holding (apply env domain) (Lasting env domain) database (first ++ rest))
    (plainOnce : Plain (Interleave.reach (apply env domain) database first).memory)
    (plainLater : Plain (Interleave.reach (apply env domain) database (first ++ rest)).memory)
    (denoted : Denotes (Interleave.reach (apply env domain) database first).memory reference once)
    (denotes : Denotes (Interleave.reach (apply env domain) database (first ++ rest)).memory reference later) :
    once = later := by
  obtain ⟨before,after⟩ := Interleave.holdingAppend.mp fine
  have unique := distinctRun before distinct
  obtain ⟨number,parsed,there⟩ | ⟨parsed,rfl⟩ := denotesRow plainOnce denoted
  · obtain ⟨number',parsed',here⟩ | ⟨parsed',rfl⟩ := denotesRow plainLater denotes
    · cases parsed.symm.trans parsed'
      rw [Interleave.reachAppend] at here
      have means : Means number once (Interleave.reach (apply env domain) database first).memory :=
        ⟨fun label member numbered => unique label member _ there numbered (numbered ▸ nofun),_,there,number,rfl,le_rfl⟩
      exact ((lastingRun after means).owner _ here rfl).symm
    · cases parsed.symm.trans parsed'
  · obtain ⟨number',parsed',_⟩ | ⟨_,rfl⟩ := denotesRow plainLater denotes
    · cases parsed.symm.trans parsed'
    · rfl

/- The first memory goes before the second one comes. -/

def nextId : String := "00000000-0000-0000-0000-000000000002"

def addNext : Write := issue (.createMemory
  ⟨some nextId,"next","kept",none,none,none,["w"],[],none,none,none,[]⟩)

def dropNote : Write := issue (.deleteMemory noteId)

theorem referenceMoves :
    Denotes (Interleave.reach (apply asciiActions asciiDomain) Database.empty [addNote]).memory "mem-1" noteId ∧
      Denotes (Interleave.reach (apply asciiActions asciiDomain) Database.empty [addNote,dropNote,addNext]).memory
        "mem-1" nextId ∧ noteId ≠ nextId := by decide +kernel

theorem referenceLastsSample :
    let once := Interleave.reach (apply asciiActions asciiDomain) Database.empty [addNote,addNext]
    let later := Interleave.reach (apply asciiActions asciiDomain) Database.empty ([addNote,addNext] ++ [dropNote])
    Denotes once.memory "mem-2" nextId ∧ Denotes later.memory "mem-2" nextId ∧ nextId = nextId := by
  intro once later
  have first : Denotes once.memory "mem-2" nextId := by decide +kernel
  have last : Denotes later.memory "mem-2" nextId := by decide +kernel
  have only : Denotes once.memory noteId noteId := by decide +kernel
  have outranked : Outranked [noteId] once.memory := by decide +kernel
  have fine : Interleave.Holding (apply asciiActions asciiDomain) (Lasting asciiActions asciiDomain) Database.empty
      ([addNote,addNext] ++ [dropNote]) := by
    refine ⟨⟨⟨trivial,trivial⟩,trivial⟩,⟨⟨trivial,trivial⟩,trivial⟩,⟨⟨fun existing found => ?_,trivial⟩,trivial⟩,trivial⟩
    have same : existing.id = noteId := Option.some.inj ((denotesRead.mp ⟨existing,found,rfl⟩).symm.trans (denotesRead.mp only))
    rw [same]
    exact outranked
  have distinct : Distinct Database.empty.memory := nofun
  have plainOnce : Plain once.memory := by decide +kernel
  have plainLater : Plain later.memory := by decide +kernel
  exact ⟨first,last,referenceLasts distinct fine plainOnce plainLater first last⟩

end McpMemory.Relational
