import McpMemory.Maintenance.Deduplicate
import McpMemory.Relational.Updates

/-! What a deduplicator pass keeps of the memories that it archives. -/
namespace McpMemory.Deduplicate
open Memory Table Text Transaction
open Curation (ActionError UpdateValues repositoryMemory)
open Relational (Updates updatesRows updateHere addLinkRows validated revise selectSame)

variable (env : Env)

def mergedIds (metadata : Json.Object) : List String :=
  (Json.items (Json.get metadata "merged_source_ids")).map (Curation.pythonText env.toToolEnv)

/- What the merge of a memory contributes: its content, or the summary or content that is added. -/
def Contributes (before : MemoryRow) (content : String) : Prop :=
  contains content (strip before.content) ∨ contains content (additionOf before)

/- The memories that were not archived in the tables `start` and are in `t`. -/
def Archived (start t : Tables) (memoryId : String) : Prop :=
  ∃ before after, selectRow memoryId start = some before ∧ selectRow memoryId t = some after ∧
    before.status ≠ "archived" ∧ after.status = "archived"

def Lossless (start t : Tables) : Prop :=
  ∀ memoryId, Archived start t memoryId → ∃ before keeper after, selectRow memoryId start = some before ∧
    selectRow keeper t = some after ∧ ¬ Archived start t keeper ∧ Contributes before after.content ∧
    memoryId ∈ mergedIds env after.metadata ∧
    ∀ once, selectRow keeper start = some once → mergedIds env once.metadata ⊆ mergedIds env after.metadata

/- The addition is still whole once `update_memory` has stripped the new content. -/
def Survives (canonical source : MemoryRow) : Prop :=
  contains canonical.content (strip source.content) ∨
    contains (strip (mergedFactContent canonical source)) (additionOf source)

/- The facts that the first loop merges, the canonical ones among them. -/
def groupedIds (seeds : List MemoryRecord) : List String :=
  (collectSimilarFactGroups env (factsOf seeds)).flatMap fun group => group.members.map (·.id)

/- A merge that loses nothing: an observation goes into no fact that the first loop merged. -/
def Fine (seeds : List MemoryRecord) (merge : Merge) : Prop :=
  Survives merge.canonical.toMemoryRow merge.source.toMemoryRow ∧
    (merge.source.type = "observation" → merge.canonical.id ∉ groupedIds env seeds)

def keepers (merges : List Merge) : List String := merges.map (·.canonical.id)

def sources (merges : List Merge) : List String := merges.map (·.source.id)

/- The invariant of a pass that began in the tables `start`. -/
structure Sound (start : Tables) (pass : Pass) : Prop where
  untouched : ∀ memoryId, memoryId ∉ keepers pass.merges → memoryId ∉ sources pass.merges →
    selectRow memoryId pass.tables = selectRow memoryId start
  status : ∀ memoryId, memoryId ∉ sources pass.merges →
    (selectRow memoryId pass.tables).map (·.status) = (selectRow memoryId start).map (·.status)
  lists : ∀ memoryId before after, selectRow memoryId start = some before → selectRow memoryId pass.tables = some after →
    mergedIds env before.metadata ⊆ mergedIds env after.metadata
  kept : ∀ memoryId, Archived start pass.tables memoryId → ∃ before keeper after, selectRow memoryId start = some before ∧
    keeper ∈ keepers pass.merges ∧ keeper ∉ sources pass.merges ∧ selectRow keeper pass.tables = some after ∧
    Contributes before (strip after.content) ∧ memoryId ∈ mergedIds env after.metadata

/- The record says what is stored. -/
def Says (t : Tables) (record : MemoryRecord) : Prop :=
  ∃ row, selectRow record.id t = some row ∧ row.content = record.content ∧ row.metadata = record.metadata

section
variable {env} {start : Tables} {pass : Pass}

theorem containsTrans {text middle part : String} (outer : contains text middle = true) (inner : contains middle part = true) :
    contains text part = true := by
  simp only [contains,decide_eq_true_eq] at *
  exact inner.trans outer

theorem containsSelf (text : String) : contains text text = true := by
  simp [contains]

theorem containsStrip (text : String) : contains text (strip text) = true := by
  simpa [contains] using stripInfix text

theorem Contributes.grows {before : MemoryRow} {content later : String} (contributes : Contributes before content)
    (grows : contains later content = true) : Contributes before later :=
  contributes.imp (containsTrans grows) (containsTrans grows)

theorem soundLossless (sound : Sound env start pass) : Lossless env start pass.tables := by
  intro memoryId archived
  obtain ⟨before,keeper,after,was,_,alive,row,contributes,listed⟩ := sound.kept memoryId archived
  refine ⟨before,keeper,after,was,row,?_,contributes.grows (containsStrip _),listed,fun once there =>
    sound.lists keeper once after there row⟩
  rintro ⟨once,now,there,here,live,gone⟩
  have same := sound.status keeper alive
  rw [there,here] at same
  exact live ((Option.some.inj same).symm.trans gone)

theorem containsFirst (separator first : String) (rest : List String) :
    contains (String.intercalate separator (first::rest)) first = true := by
  simp only [contains,decide_eq_true_eq]
  cases rest with
  | nil =>
    rw [String.intercalate_singleton]
  | cons second rest =>
    rw [String.intercalate_cons_cons]
    simp only [String.toList_append,List.append_assoc]
    exact (List.prefix_append _ _).isInfix

/- A merge never takes anything out of the content of its canonical record. -/
theorem mergedGrows (canonical source : MemoryRow) :
    contains (strip (mergedFactContent canonical source)) (strip canonical.content) = true := by
  unfold mergedFactContent mergedParts
  split
  · exact containsSelf _
  · by_cases blank : strip canonical.content = ""
    · rw [blank]
      simp [contains]
    · apply stripContains
      dsimp only
      split
      · rw [List.filter_cons_of_pos (by simpa using blank)]
        exact containsFirst _ _ _
      · rw [List.filter_cons_of_pos (by simpa using blank)]
        exact containsFirst _ _ _

theorem mergedListed {taskId : String} (canonical source : MemoryRow) (memoryId : String) :
    memoryId ∈ mergedIds env (mergedMetadata env taskId canonical source) ↔
      memoryId ∈ mergedIds env canonical.metadata ∨ memoryId = source.id := by
  have texts : ∀ values : List String, (values.map Json.str).map (Curation.pythonText env.toToolEnv) = values := by
    intro values
    rw [List.map_map]
    exact List.map_id values
  have named : ¬ "merged_source_ids" = "deduplicator_task_id" := by decide
  unfold mergedIds mergedMetadata Curation.mergedSources
  simp only [Json.getSet,named,if_false,if_true,Json.items,texts,memSortedSet,List.mem_append,List.mem_singleton]

theorem revisedMerge {taskId : String} {canonical source : MemoryRecord} {revised}
    (given : Relational.validateUpdate (mergedChanges env taskId canonical source) = .ok revised) (existing now) (row : MemoryRow) :
    let later := revise env.actions existing (mergedChanges env taskId canonical source) revised now row
    later.id = row.id ∧ later.status = row.status ∧
      later.content = strip (mergedFactContent canonical.toMemoryRow source.toMemoryRow) ∧
      later.metadata = mergedMetadata env taskId canonical.toMemoryRow source.toMemoryRow := by
  obtain ⟨status,content⟩ := validated given
  simp only [revise,status,content,mergedChanges,UpdateValues.nothing,Option.map_none,Option.getD_none,Option.join_some,
    Option.map_some,Option.getD_some,and_self]

theorem revisedArchive {revised} (given : Relational.validateUpdate archives = .ok revised) (existing now) (row : MemoryRow) :
    let later := revise env.actions existing archives revised now row
    later.id = row.id ∧ later.content = row.content ∧ later.metadata = row.metadata := by
  obtain ⟨status,content⟩ := validated given
  simp only [revise,content,archives,UpdateValues.nothing,Option.join_none,Option.map_none,Option.getD_none,and_self]

end

section
variable {env} {taskId : String} {canonical source : MemoryRecord} {t after : Tables}

/- The rows once the content is written, and once both are. -/
theorem mergedRows {row : MemoryRow} (there : selectRow canonical.id t = some row)
    (updates : Updates env.actions (mergedChanges env taskId canonical source) canonical.id t after) :
    (∃ later, selectRow canonical.id after = some later ∧ later.status = row.status ∧
      later.content = strip (mergedFactContent canonical.toMemoryRow source.toMemoryRow) ∧
      later.metadata = mergedMetadata env taskId canonical.toMemoryRow source.toMemoryRow) ∧
    ∀ memoryId, memoryId ≠ canonical.id → selectRow memoryId after = selectRow memoryId t := by
  obtain ⟨revised,now,given,selected⟩ := updatesRows env.actions there updates
  obtain ⟨_,status,content,metadata⟩ := revisedMerge given (hydrateRecord t row) now row
  exact ⟨⟨_,(selected canonical.id).trans (if_pos rfl),status,content,metadata⟩,
    fun memoryId apart => (selected memoryId).trans (if_neg apart)⟩

theorem archivedRows {memoryId : String} {row : MemoryRow} (there : selectRow memoryId t = some row)
    (updates : Updates env.actions archives memoryId t after) :
    (∃ later, selectRow memoryId after = some later ∧ later.content = row.content ∧ later.metadata = row.metadata) ∧
    ∀ other, other ≠ memoryId → selectRow other after = selectRow other t := by
  obtain ⟨revised,now,given,selected⟩ := updatesRows env.actions there updates
  obtain ⟨_,content,metadata⟩ := @revisedArchive env revised given (hydrateRecord t row) now row
  exact ⟨⟨_,(selected memoryId).trans (if_pos rfl),content,metadata⟩,
    fun other apart => (selected other).trans (if_neg apart)⟩

/- A merge of two memories that are there writes nothing, writes the content, or archives the source
as well. Where it answers it has done both, and answers with the record as it was in between. -/
theorem mergeRuns {row other : MemoryRow} (here : selectRow canonical.id t = some row)
    (there : selectRow source.id t = some other) (apart : source.id ≠ canonical.id) {oracle : Oracle ActionError} {moment : Nat} :
    let reply := mergeIntoCanonicalFact env taskId canonical source oracle ⟨t,moment⟩
    (reply.2.data.memories = t.memories ∨ ∃ middle,
      Updates env.actions (mergedChanges env taskId canonical source) canonical.id t middle ∧
      (reply.2.data.memories = middle.memories ∨ Updates env.actions archives source.id middle reply.2.data)) ∧
    ∀ updated, reply.1 = .ok updated → ∃ middle,
      Updates env.actions (mergedChanges env taskId canonical source) canonical.id t middle ∧
      Updates env.actions archives source.id middle reply.2.data ∧ selectRow canonical.id middle = some updated.toMemoryRow := by
  dsimp only
  unfold mergeIntoCanonicalFact
  rw [bindRuns]
  obtain ⟨written,answered⟩ := @updateHere env.actions (mergedChanges env taskId canonical source) canonical.id t row here oracle moment
  generalize Relational.updateMemory env.actions none canonical.id (mergedChanges env taskId canonical source) oracle
    ⟨t,moment⟩ = reply at *
  obtain ⟨error | found,first⟩ := reply
  · refine ⟨written.imp_right fun updates => ⟨first.data,updates,.inl rfl⟩,fun _ none => by cases none⟩
  · obtain ⟨updates,record,rfl,read⟩ := answered found rfl
    have source_ : selectRow source.id first.data = some other := ((mergedRows here updates).2 source.id apart).trans there
    dsimp only
    rw [bindRuns]
    have links := @addLinkRows env.actions record.id source.id "SUPERSEDES" "Auto-merged into canonical fact memory." oracle first
    generalize Relational.addLink env.actions record.id source.id "SUPERSEDES" "Auto-merged into canonical fact memory." oracle
      first = linking at *
    obtain ⟨error | link,second⟩ := linking
    · exact ⟨.inr ⟨first.data,updates,.inl links⟩,fun _ none => by cases none⟩
    · have content : Updates env.actions (mergedChanges env taskId canonical source) canonical.id t second.data := by
        obtain ⟨existing,revised,now,found,given,rows⟩ := updates
        exact ⟨existing,revised,now,found,given,links.trans rows⟩
      dsimp only
      rw [bindRuns]
      obtain ⟨archived,answers⟩ := @updateHere env.actions archives source.id second.data other ((selectSame links).trans source_)
        oracle second.moment
      generalize Relational.updateMemory env.actions none source.id archives oracle second = last at *
      obtain ⟨error | left,third⟩ := last
      · exact ⟨.inr ⟨second.data,content,archived⟩,fun _ none => by cases none⟩
      · refine ⟨.inr ⟨second.data,content,archived⟩,fun updated same => ?_⟩
        cases same
        exact ⟨second.data,content,(answers left rfl).1,(selectSame links).trans read⟩

end

section
variable {env} {taskId : String} {start t after : Tables} {merges : List Merge} {canonical source : MemoryRecord}

theorem soundRows (sound : Sound env start ⟨t,merges⟩) (rows : after.memories = t.memories) : Sound env start ⟨after,merges⟩ := by
  have same (memoryId : String) : selectRow memoryId after = selectRow memoryId t := selectSame rows
  refine ⟨fun memoryId keeps gone => (same memoryId).trans (sound.untouched memoryId keeps gone),
    fun memoryId alive => (congrArg _ (same memoryId)).trans (sound.status memoryId alive),
    fun memoryId before later was now => sound.lists memoryId before later was ((same memoryId).symm.trans now),
    fun memoryId archived => ?_⟩
  obtain ⟨before,later,was,now,live,gone⟩ := archived
  obtain ⟨first,keeper,row,there,keeps,alive,here,rest⟩ :=
    sound.kept memoryId ⟨before,later,was,(same memoryId).symm.trans now,live,gone⟩
  exact ⟨first,keeper,row,there,keeps,alive,(same keeper).trans here,rest⟩

/- The merge is noted before it does anything. -/
theorem soundBegun (sound : Sound env start ⟨t,merges⟩) (fresh : source.id ∉ keepers merges) :
    Sound env start ⟨t,⟨canonical,source⟩::merges⟩ := by
  refine ⟨fun memoryId keeps gone => ?_,fun memoryId alive => ?_,sound.lists,fun memoryId archived => ?_⟩
  · simp only [keepers,sources,List.map_cons,List.mem_cons,not_or] at keeps gone
    exact sound.untouched memoryId keeps.2 gone.2
  · simp only [sources,List.map_cons,List.mem_cons,not_or] at alive
    exact sound.status memoryId alive.2
  · obtain ⟨first,keeper,row,there,keeps,alive,rest⟩ := sound.kept memoryId archived
    refine ⟨first,keeper,row,there,List.mem_cons_of_mem _ keeps,?_,rest⟩
    simp only [sources,List.map_cons,List.mem_cons,not_or]
    exact ⟨fun same => fresh (same ▸ keeps),alive⟩

theorem soundWritten {row : MemoryRow} (sound : Sound env start ⟨t,⟨canonical,source⟩::merges⟩)
    (here : selectRow canonical.id t = some row) (content : row.content = canonical.content)
    (metadata : row.metadata = canonical.metadata)
    (updates : Updates env.actions (mergedChanges env taskId canonical source) canonical.id t after) :
    Sound env start ⟨after,⟨canonical,source⟩::merges⟩ := by
  obtain ⟨⟨later,now,status,text,listing⟩,others⟩ := mergedRows here updates
  have lists (memoryId : String) (listed : memoryId ∈ mergedIds env row.metadata) : memoryId ∈ mergedIds env later.metadata := by
    rw [listing]
    exact (mergedListed _ _ _).mpr (.inl (metadata ▸ listed))
  have grows : contains (strip later.content) (strip row.content) = true := by
    rw [text,stripIdem,content]
    exact mergedGrows _ _
  refine ⟨fun memoryId keeps gone => ?_,fun memoryId alive => ?_,fun memoryId before next was there => ?_,fun memoryId archived => ?_⟩
  · have apart : memoryId ≠ canonical.id := fun same => keeps (List.mem_cons.mpr (.inl same))
    exact (others memoryId apart).trans (sound.untouched memoryId keeps gone)
  · by_cases same : memoryId = canonical.id
    · subst same
      have old := sound.status canonical.id alive
      rw [here] at old
      rw [now,← old]
      exact congrArg some status
    · exact (congrArg _ (others memoryId same)).trans (sound.status memoryId alive)
  · by_cases same : memoryId = canonical.id
    · subst same
      cases now.symm.trans there
      exact fun listed member => lists listed (sound.lists canonical.id before row was here member)
    · exact sound.lists memoryId before next was ((others memoryId same).symm.trans there)
  · obtain ⟨before,next,was,there,live,gone⟩ := archived
    have already : Archived start t memoryId := by
      by_cases same : memoryId = canonical.id
      · subst same
        cases now.symm.trans there
        exact ⟨before,row,was,here,live,status.symm.trans gone⟩
      · exact ⟨before,next,was,(others memoryId same).symm.trans there,live,gone⟩
    obtain ⟨first,keeper,kept,once,keeps,alive,found,contributes,listed⟩ := sound.kept memoryId already
    by_cases same : keeper = canonical.id
    · subst same
      cases here.symm.trans found
      exact ⟨first,canonical.id,later,once,keeps,alive,now,contributes.grows grows,lists memoryId listed⟩
    · exact ⟨first,keeper,kept,once,keeps,alive,(others keeper same).trans found,contributes,listed⟩

theorem soundArchived {row other : MemoryRow} (sound : Sound env start ⟨t,⟨canonical,source⟩::merges⟩)
    (alive : canonical.id ∉ sources merges) (apart : source.id ≠ canonical.id)
    (stored : selectRow source.id start = some source.toMemoryRow) (here : selectRow canonical.id t = some row)
    (contributes : Contributes source.toMemoryRow (strip row.content)) (listed : source.id ∈ mergedIds env row.metadata)
    (there : selectRow source.id t = some other) (updates : Updates env.actions archives source.id t after) :
    Sound env start ⟨after,⟨canonical,source⟩::merges⟩ := by
  obtain ⟨⟨later,now,_,listing⟩,others⟩ := archivedRows there updates
  refine ⟨fun memoryId keeps gone => ?_,fun memoryId lives => ?_,fun memoryId before next was found => ?_,fun memoryId archived => ?_⟩
  · have away : memoryId ≠ source.id := fun same => gone (List.mem_cons.mpr (.inl same))
    exact (others memoryId away).trans (sound.untouched memoryId keeps gone)
  · have away : memoryId ≠ source.id := fun same => lives (List.mem_cons.mpr (.inl same))
    exact (congrArg _ (others memoryId away)).trans (sound.status memoryId lives)
  · by_cases same : memoryId = source.id
    · subst same
      cases now.symm.trans found
      rw [listing]
      exact sound.lists source.id before other was there
    · exact sound.lists memoryId before next was ((others memoryId same).symm.trans found)
  · by_cases same : memoryId = source.id
    · subst same
      refine ⟨source.toMemoryRow,canonical.id,row,stored,List.mem_cons_self,?_,(others canonical.id (Ne.symm apart)).trans here,
        contributes,listed⟩
      simp only [sources,List.map_cons,List.mem_cons,not_or]
      exact ⟨Ne.symm apart,alive⟩
    · obtain ⟨before,next,was,found,live,gone⟩ := archived
      obtain ⟨first,keeper,kept,once,keeps,lives,still,rest⟩ :=
        sound.kept memoryId ⟨before,next,was,(others memoryId same).symm.trans found,live,gone⟩
      have away : keeper ≠ source.id := fun same => lives (List.mem_cons.mpr (.inl same))
      exact ⟨first,keeper,kept,once,keeps,lives,(others keeper away).trans still,rest⟩

theorem mergedContributes (survives : Survives canonical.toMemoryRow source.toMemoryRow) :
    Contributes source.toMemoryRow (strip (mergedFactContent canonical.toMemoryRow source.toMemoryRow)) :=
  survives.imp (fun inside => containsTrans (mergedGrows _ _) (stripContains inside)) id

/- One merge of a pass, however it ends. -/
theorem mergeSound {oracle : Oracle ActionError} {moment : Nat} (sound : Sound env start ⟨t,merges⟩) (agrees : Says t canonical)
    (alive : canonical.id ∉ sources merges) (keeps : source.id ∉ keepers merges) (fresh : source.id ∉ sources merges)
    (apart : source.id ≠ canonical.id) (stored : selectRow source.id start = some source.toMemoryRow)
    (survives : Survives canonical.toMemoryRow source.toMemoryRow) :
    let reply := mergeIntoCanonicalFact env taskId canonical source oracle ⟨t,moment⟩
    Sound env start ⟨reply.2.data,⟨canonical,source⟩::merges⟩ ∧
    (∀ memoryId, memoryId ≠ canonical.id → memoryId ≠ source.id →
      selectRow memoryId reply.2.data = selectRow memoryId t) ∧
    ∀ updated, reply.1 = .ok updated → updated.id = canonical.id ∧ Says reply.2.data updated := by
  obtain ⟨row,here,content,metadata⟩ := agrees
  have there : selectRow source.id t = some source.toMemoryRow := (sound.untouched source.id keeps fresh).trans stored
  obtain ⟨ends,answers⟩ := @mergeRuns env taskId canonical source t row source.toMemoryRow here there apart oracle moment
  have begun : Sound env start ⟨t,⟨canonical,source⟩::merges⟩ := soundBegun sound keeps
  have both {middle last : Tables} (first : Updates env.actions (mergedChanges env taskId canonical source) canonical.id t middle)
      (second : Updates env.actions archives source.id middle last) : Sound env start ⟨last,⟨canonical,source⟩::merges⟩ := by
    have written := soundWritten begun here content metadata first
    obtain ⟨⟨later,now,_,text,listing⟩,others⟩ := mergedRows here first
    refine soundArchived written alive apart stored now ?_ ?_ ((others source.id apart).trans there) second
    · rw [text,stripIdem]
      exact mergedContributes survives
    · rw [listing]
      exact (mergedListed _ _ _).mpr (.inr rfl)
  have moved {middle last : Tables} (first : Updates env.actions (mergedChanges env taskId canonical source) canonical.id t middle)
      (second : Updates env.actions archives source.id middle last) (memoryId) (one : memoryId ≠ canonical.id)
      (two : memoryId ≠ source.id) : selectRow memoryId last = selectRow memoryId t := by
    have others := (mergedRows here first).2
    exact ((archivedRows ((others source.id apart).trans there) second).2 memoryId two).trans (others memoryId one)
  refine ⟨?_,fun memoryId one two => ?_,fun updated answered => ?_⟩
  · rcases ends with same | ⟨middle,first,same | second⟩
    · exact soundRows begun same
    · exact soundRows (soundWritten begun here content metadata first) same
    · exact both first second
  · rcases ends with same | ⟨middle,first,same | second⟩
    · exact selectSame same
    · exact (selectSame same).trans ((mergedRows here first).2 memoryId one)
    · exact moved first second memoryId one two
  · obtain ⟨middle,first,second,read⟩ := answers updated answered
    have named : updated.id = canonical.id := by
      have found := (findSome read).2
      simpa using found
    have others := (archivedRows (((mergedRows here first).2 source.id apart).trans there) second).2
    exact ⟨named,updated.toMemoryRow,by rw [named,others canonical.id (Ne.symm apart)]; exact read,rfl,rfl⟩

end

/- The groups share no memory. -/

section
variable {env} {facts : List MemoryRecord}

theorem gatherSource {fact : MemoryRecord} {rest used} :
    let gathered := gather env fact rest used
    (gathered.1.map (·.id)).Nodup ∧ used ⊆ gathered.2 ∧
    ∀ other ∈ gathered.1, other ∈ rest ∧ other.id ∉ used ∧ other.id ≠ fact.id ∧ other.id ∈ gathered.2 := by
  induction rest generalizing used with
  | nil => simp [gather]
  | cons record rest ih =>
    dsimp only
    unfold gather
    split
    · obtain ⟨distinct,grows,every⟩ := @ih used
      exact ⟨distinct,grows,fun other member => ⟨List.mem_cons_of_mem _ (every other member).1,(every other member).2⟩⟩
    · rename_i unused
      simp only [Bool.or_eq_true,List.contains_iff_mem,beq_iff_eq,not_or] at unused
      split
      · obtain ⟨distinct,grows,every⟩ := @ih (record.id::used)
        refine ⟨?_,fun memoryId member => grows (List.mem_cons_of_mem _ member),fun other member => ?_⟩
        · rw [List.map_cons,List.nodup_cons]
          refine ⟨fun again => ?_,distinct⟩
          obtain ⟨other,member,same⟩ := List.mem_map.mp again
          exact (every other member).2.1 (same ▸ List.mem_cons_self)
        · rcases List.mem_cons.mp member with rfl | later
          · exact ⟨List.mem_cons_self,unused.1,unused.2,grows List.mem_cons_self⟩
          · obtain ⟨there,fresh,apart,noted⟩ := every other later
            exact ⟨List.mem_cons_of_mem _ there,fun old => fresh (List.mem_cons_of_mem _ old),apart,noted⟩
      · obtain ⟨distinct,grows,every⟩ := @ih used
        exact ⟨distinct,grows,fun other member => ⟨List.mem_cons_of_mem _ (every other member).1,(every other member).2⟩⟩

def memberIds (groups : List Group) : List String := groups.flatMap fun group => group.members.map (·.id)

theorem collectSource {rest used} : (memberIds (collectGroups env facts rest used)).Nodup ∧
    (∀ memoryId ∈ memberIds (collectGroups env facts rest used), memoryId ∉ used) ∧
    ∀ group ∈ collectGroups env facts rest used, ∀ member ∈ group.members, member ∈ rest ∨ member ∈ facts := by
  induction rest generalizing used with
  | nil => simp [collectGroups,memberIds]
  | cons fact rest ih =>
    unfold collectGroups
    split
    · obtain ⟨distinct,fresh,every⟩ := @ih used
      exact ⟨distinct,fresh,fun group here member inside => (every group here member inside).imp_left (List.mem_cons_of_mem _)⟩
    · rename_i unused
      simp only [List.contains_iff_mem] at unused
      obtain ⟨distinct,grows,gathered⟩ := @gatherSource env fact facts (fact.id::used)
      dsimp only at distinct grows gathered ⊢
      obtain ⟨later,fresh,every⟩ := @ih (gather env fact facts (fact.id::used)).2
      have old : ∀ memoryId ∈ used, memoryId ∈ (gather env fact facts (fact.id::used)).2 := fun memoryId member =>
        grows (List.mem_cons_of_mem _ member)
      split
      · exact ⟨later,fun memoryId member taken => fresh memoryId member (old memoryId taken),
          fun group here member inside => (every group here member inside).imp_left (List.mem_cons_of_mem _)⟩
      · have mine : (fact.id :: (gather env fact facts (fact.id::used)).1.map (·.id)).Nodup := by
          rw [List.nodup_cons]
          refine ⟨fun again => ?_,distinct⟩
          obtain ⟨other,member,same⟩ := List.mem_map.mp again
          exact (gathered other member).2.2.1 same
        have noted : ∀ memoryId ∈ fact.id :: (gather env fact facts (fact.id::used)).1.map (·.id),
            memoryId ∉ used ∧ memoryId ∈ (gather env fact facts (fact.id::used)).2 := by
          intro memoryId member
          rcases List.mem_cons.mp member with rfl | inside
          · exact ⟨unused,grows List.mem_cons_self⟩
          · obtain ⟨other,there,rfl⟩ := List.mem_map.mp inside
            exact ⟨fun taken => (gathered other there).2.1 (List.mem_cons_of_mem _ taken),(gathered other there).2.2.2⟩
        refine ⟨List.nodup_append.mpr ⟨mine,later,?_⟩,?_,?_⟩
        · rintro memoryId first _ second rfl
          exact fresh memoryId second (noted memoryId first).2
        · intro memoryId member
          rcases List.mem_append.mp member with first | second
          · exact (noted memoryId first).1
          · exact fun taken => fresh memoryId second (old memoryId taken)
        · intro group here member inside
          rcases List.mem_cons.mp here with rfl | there
          · rcases List.mem_cons.mp inside with rfl | other
            · exact .inl List.mem_cons_self
            · exact .inr (gathered member other).1
          · exact (every group there member inside).imp_left (List.mem_cons_of_mem _)

end

/- What the parts of a pass leave alone. -/

section
variable {env} {taskId : String}

theorem keepsCount (memoryId : String) : Keeps id (countIncomingLinks memoryId) :=
  keepsStatement fun t a after taken => by
    obtain ⟨_,_,same⟩ := mappedOk.mp taken
    cases same
    rfl

theorem keepsChooseFrom {best rest} : Keeps id (chooseFrom env best rest) := by
  induction rest generalizing best with
  | nil => exact keepsPure _
  | cons record rest ih => exact keepsBind (keepsCount _) fun _ => ih

theorem keepsChoose (group : Group) : Keeps id (chooseCanonicalFact env group) :=
  keepsBind (keepsCount _) fun _ => keepsChooseFrom

theorem chosenFrom {best rest} : Ensures (fun _ => True) (chooseFrom env best rest) (· ∈ best.2 :: rest) := by
  induction rest generalizing best with
  | nil => exact ensuresPure List.mem_cons_self
  | cons record rest ih =>
    refine @ensuresBind _ _ _ _ _ _ (fun _ => True) _ _ (fun _ _ _ => ⟨trivial,fun _ _ => trivial⟩) fun links _ => ?_
    intro oracle session _
    refine ⟨trivial,fun record_ answered => ?_⟩
    have member := (@ih _ oracle session trivial).2 record_ answered
    split at member
    · exact List.mem_cons_of_mem _ member
    · rcases List.mem_cons.mp member with rfl | later
      · exact List.mem_cons_self
      · exact List.mem_cons_of_mem _ (List.mem_cons_of_mem _ later)

theorem chosen (group : Group) : Ensures (fun _ => True) (chooseCanonicalFact env group) (· ∈ group.members) :=
  @ensuresBind _ _ _ _ _ _ (fun _ => True) _ _ (fun _ _ _ => ⟨trivial,fun _ _ => trivial⟩) fun _ _ => chosenFrom

abbrev Grown (merges : List Merge) (pass : Pass) : Prop := merges <:+ pass.merges

variable {merges : List Merge}

theorem grownRepository {α : Type} (x : Relational.Query α) : Ensures (Grown merges) (onRepository x) fun _ => True :=
  fun _ _ grown => ⟨grown,fun _ _ => trivial⟩

theorem grownMerging {canonical source : MemoryRecord} :
    Ensures (Grown merges) (merging env taskId canonical source) fun _ => True :=
  ensuresBind (ensuresAdjust fun _ grown => grown.trans (List.suffix_cons _ _)) fun _ _ => grownRepository _

theorem grownGroup {canonical rest progress} :
    Ensures (Grown merges) (mergeGroup env taskId canonical rest progress) fun _ => True := by
  induction rest generalizing canonical progress with
  | nil => exact ensuresPure trivial
  | cons source rest ih =>
    unfold mergeGroup
    split
    · exact ih
    · exact ensuresBind grownMerging fun _ _ => ih

theorem grownGroups {groups progress} : Ensures (Grown merges) (mergeGroups env taskId groups progress) fun _ => True := by
  induction groups generalizing progress with
  | nil => exact ensuresPure trivial
  | cons group rest ih =>
    exact ensuresBind (grownRepository _) fun _ _ => ensuresBind grownGroup fun _ _ => ih

theorem grownAbsorb {observations active progress} :
    Ensures (Grown merges) (absorb env taskId observations active progress) fun _ => True := by
  induction observations generalizing active progress with
  | nil => exact ensuresPure trivial
  | cons observation rest ih =>
    unfold absorb
    split
    · exact ih
    · split
      · exact ih
      · exact ensuresBind grownMerging fun _ _ => ih

end

/- The two loops, however they end: `Stored` records are as the pass found them. -/

section
variable {env} {taskId : String} {start : Tables} {oracle : Oracle ActionError}

def Stored (start : Tables) (record : MemoryRecord) : Prop := selectRow record.id start = some record.toMemoryRow

def Touched (pass : Pass) (memoryId : String) : Prop := memoryId ∈ keepers pass.merges ∨ memoryId ∈ sources pass.merges

theorem storedSays {pass : Pass} {record : MemoryRecord} (sound : Sound env start pass) (stored : Stored start record)
    (untouched : ¬ Touched pass record.id) : Says pass.tables record :=
  ⟨record.toMemoryRow,(sound.untouched record.id (fun keeps => untouched (.inl keeps))
    fun gone => untouched (.inr gone)).trans stored,rfl,rfl⟩

theorem mergingNoted (canonical source : MemoryRecord) (session : Session Pass) :
    (merging env taskId canonical source oracle session).2.data.merges = ⟨canonical,source⟩ :: session.data.merges := rfl

theorem mergingSound {session : Session Pass} {canonical source : MemoryRecord} (sound : Sound env start session.data)
    (agrees : Says session.data.tables canonical) (alive : canonical.id ∉ sources session.data.merges)
    (untouched : ¬ Touched session.data source.id) (apart : source.id ≠ canonical.id) (stored : Stored start source)
    (survives : Survives canonical.toMemoryRow source.toMemoryRow) :
    let reply := merging env taskId canonical source oracle session
    Sound env start reply.2.data ∧ reply.2.data.merges = ⟨canonical,source⟩ :: session.data.merges ∧
    (∀ memoryId, memoryId ≠ canonical.id → memoryId ≠ source.id →
      selectRow memoryId reply.2.data.tables = selectRow memoryId session.data.tables) ∧
    ∀ updated, reply.1 = .ok updated → updated.id = canonical.id ∧ Says reply.2.data.tables updated := by
  obtain ⟨⟨t,merges⟩,moment⟩ := session
  obtain ⟨kept,others,answers⟩ := @mergeSound env taskId start t merges canonical source oracle moment sound agrees alive
    (fun keeps => untouched (.inl keeps)) (fun gone => untouched (.inr gone)) apart stored survives
  exact ⟨kept,rfl,others,answers⟩

theorem touchedMerge {pass later : Pass} {merge : Merge} (merges : later.merges = merge :: pass.merges) {memoryId : String} :
    Touched later memoryId ↔ memoryId = merge.canonical.id ∨ memoryId = merge.source.id ∨ Touched pass memoryId := by
  unfold Touched keepers sources
  rw [merges]
  simp only [List.map_cons,List.mem_cons]
  tauto

/- A loop leaves the pass sound and touches only the memories it is given. -/
def Keeping (env : Env) (start : Tables) (before : Pass) (given : List String) (after : Pass) : Prop :=
  Sound env start after ∧ ∀ memoryId, Touched after memoryId → Touched before memoryId ∨ memoryId ∈ given

theorem groupSound {canonical rest progress} {session : Session Pass} (sound : Sound env start session.data)
    (agrees : Says session.data.tables canonical) (alive : canonical.id ∉ sources session.data.merges)
    (distinct : (rest.map (·.id)).Nodup) (stored : ∀ source ∈ rest, Stored start source)
    (untouched : ∀ source ∈ rest, source.id ≠ canonical.id → ¬ Touched session.data source.id)
    (survives : ∀ merge ∈ (mergeGroup env taskId canonical rest progress oracle session).2.data.merges,
      Survives merge.canonical.toMemoryRow merge.source.toMemoryRow) :
    Keeping env start session.data (canonical.id :: rest.map (·.id))
      (mergeGroup env taskId canonical rest progress oracle session).2.data := by
  induction rest generalizing canonical progress session with
  | nil => exact ⟨sound,fun _ touched => .inl touched⟩
  | cons source rest ih =>
    rw [List.map_cons,List.nodup_cons] at distinct
    unfold mergeGroup at survives ⊢
    split at survives
    · obtain ⟨kept,within⟩ := ih sound agrees alive distinct.2 (fun other member => stored other (List.mem_cons_of_mem _ member))
        (fun other member => untouched other (List.mem_cons_of_mem _ member)) survives
      rw [if_pos (by assumption)]
      refine ⟨kept,fun memoryId touched => (within memoryId touched).imp_right fun member => ?_⟩
      simp only [List.map_cons,List.mem_cons] at member ⊢
      tauto
    · rename_i apart
      rw [if_neg apart]
      simp only [Bool.or_eq_true,beq_iff_eq,not_or] at apart
      have noted := @mergingNoted env taskId oracle canonical source session
      rw [bindRuns] at survives ⊢
      have step := @mergingSound env taskId start oracle session canonical source sound agrees alive
        (untouched source List.mem_cons_self apart.1) apart.1 (stored source List.mem_cons_self)
      generalize merging env taskId canonical source oracle session = reply at *
      have merge : ⟨canonical,source⟩ ∈ reply.2.data.merges := noted ▸ List.mem_cons_self
      obtain ⟨error | updated,middle⟩ := reply
      · obtain ⟨kept,merges,_,_⟩ := step (survives ⟨canonical,source⟩ merge)
        refine ⟨kept,fun memoryId touched => ?_⟩
        simp only [touchedMerge merges,List.map_cons,List.mem_cons] at touched ⊢
        tauto
      · obtain ⟨kept,merges,others,answers⟩ := step (survives ⟨canonical,source⟩
          ((grownGroup oracle middle (List.suffix_refl _)).1.subset merge))
        obtain ⟨named,agreeing⟩ := answers updated rfl
        have fresh : updated.id ∉ sources middle.data.merges := by
          unfold sources at alive ⊢
          rw [merges,named]
          simp only [List.map_cons,List.mem_cons,not_or]
          exact ⟨Ne.symm apart.1,alive⟩
        obtain ⟨ends,within⟩ := ih kept agreeing fresh distinct.2 (fun other member => stored other (List.mem_cons_of_mem _ member))
          (fun other member away touched => by
            rw [named] at away
            rcases (touchedMerge merges).mp touched with same | same | old
            · exact away same
            · exact distinct.1 (same ▸ List.mem_map_of_mem member)
            · exact untouched other (List.mem_cons_of_mem _ member) away old) survives
        refine ⟨ends,fun memoryId touched => ?_⟩
        have reached := within memoryId touched
        simp only [touchedMerge merges,named,List.map_cons,List.mem_cons] at reached ⊢
        tauto

theorem choosing {session : Session Pass} (group : Group) :
    let reply := onRepository (chooseCanonicalFact env group) oracle session
    reply.2.data = session.data ∧ ∀ canonical, reply.1 = .ok canonical → canonical ∈ group.members := by
  obtain ⟨⟨t,merges⟩,moment⟩ := session
  have same : (chooseCanonicalFact env group oracle ⟨t,moment⟩).2.data = t := keepsChoose group oracle ⟨t,moment⟩
  exact ⟨congrArg (fun tables => Pass.mk tables merges) same,(chosen group oracle ⟨t,moment⟩ trivial).2⟩

theorem groupsSound {groups progress} {session : Session Pass} (sound : Sound env start session.data)
    (distinct : (memberIds groups).Nodup) (stored : ∀ group ∈ groups, ∀ member ∈ group.members, Stored start member)
    (untouched : ∀ memoryId ∈ memberIds groups, ¬ Touched session.data memoryId)
    (survives : ∀ merge ∈ (mergeGroups env taskId groups progress oracle session).2.data.merges,
      Survives merge.canonical.toMemoryRow merge.source.toMemoryRow) :
    Keeping env start session.data (memberIds groups) (mergeGroups env taskId groups progress oracle session).2.data := by
  induction groups generalizing progress session with
  | nil => exact ⟨sound,fun _ touched => .inl touched⟩
  | cons group rest ih =>
    have whole : memberIds (group::rest) = group.members.map (·.id) ++ memberIds rest := rfl
    rw [whole,List.nodup_append] at distinct
    rw [whole] at untouched ⊢
    unfold mergeGroups at survives ⊢
    rw [bindRuns] at survives ⊢
    obtain ⟨same,among⟩ := @choosing env oracle session group
    generalize onRepository (chooseCanonicalFact env group) oracle session = choice at *
    obtain ⟨error | canonical,first⟩ := choice
    · dsimp only at same ⊢
      rw [same]
      exact ⟨sound,fun _ touched => .inl touched⟩
    · have member := among canonical rfl
      dsimp only at same survives ⊢
      have here : canonical.id ∈ group.members.map (·.id) := List.mem_map_of_mem member
      have mine (memoryId) (inside : memoryId ∈ canonical.id :: group.members.map (·.id)) : memoryId ∈ group.members.map (·.id) := by
        rcases List.mem_cons.mp inside with rfl | other
        · exact here
        · exact other
      have fresh : ¬ Touched first.data canonical.id := same ▸ untouched canonical.id (List.mem_append_left _ here)
      have begun : Sound env start first.data := same ▸ sound
      rw [bindRuns] at survives ⊢
      have step := @groupSound env taskId start oracle canonical group.members progress first begun
        (storedSays begun (stored group List.mem_cons_self canonical member) fresh) (fun gone => fresh (.inr gone)) distinct.1
        (stored group List.mem_cons_self)
        fun source inside _ => same ▸ untouched source.id (List.mem_append_left _ (List.mem_map_of_mem inside))
      generalize mergeGroup env taskId canonical group.members progress oracle first = reply at *
      obtain ⟨error | progress,second⟩ := reply
      · obtain ⟨kept,within⟩ := step survives
        refine ⟨kept,fun memoryId touched => (within memoryId touched).imp (fun old => same ▸ old) fun inside => ?_⟩
        exact List.mem_append_left _ (mine memoryId inside)
      · dsimp only at survives ⊢
        obtain ⟨kept,within⟩ := step fun merge noted =>
          survives merge ((grownGroups oracle second (List.suffix_refl _)).1.subset noted)
        have reached : ∀ memoryId, Touched second.data memoryId →
            Touched session.data memoryId ∨ memoryId ∈ group.members.map (·.id) := fun memoryId touched =>
          (within memoryId touched).imp (fun old => same ▸ old) (mine memoryId)
        obtain ⟨ends,later⟩ := ih kept distinct.2.1 (fun other inside => stored other (List.mem_cons_of_mem _ inside))
          (fun memoryId inside touched => (reached memoryId touched).elim
            (untouched memoryId (List.mem_append_right _ inside)) fun before => distinct.2.2 memoryId before memoryId inside rfl) survives
        refine ⟨ends,fun memoryId touched => ?_⟩
        rcases later memoryId touched with old | inside
        · exact (reached memoryId old).imp_right (List.mem_append_left _)
        · exact .inr (List.mem_append_right _ inside)

end

/- The records that the second loop looks observations up in. -/

section
variable {env} {taskId : String} {start : Tables} {seeds : List MemoryRecord} {oracle : Oracle ActionError}

theorem setRecordSource {records memoryId record entry} (member : entry ∈ setRecord records memoryId record) :
    entry = (memoryId,record) ∨ entry ∈ records ∧ entry.1 ≠ memoryId := by
  unfold setRecord at member
  split at member
  · obtain ⟨old,there,same⟩ := List.mem_map.mp member
    split at same
    · exact .inl same.symm
    · rename_i apart
      exact .inr (same ▸ ⟨there,fun named => apart (beq_iff_eq.mpr named)⟩)
  · rename_i absent
    rcases List.mem_append.mp member with there | new
    · exact .inr ⟨there,fun named => absent (List.any_eq_true.mpr ⟨entry,there,beq_iff_eq.mpr named⟩)⟩
    · exact .inl (List.mem_singleton.mp new)

theorem setRecordKeys {records memoryId record key} (keyed : key = memoryId ∨ ∃ value, (key,value) ∈ records) :
    ∃ value, (key,value) ∈ setRecord records memoryId record := by
  unfold setRecord
  split
  · rename_i present
    by_cases same : key = memoryId
    · obtain ⟨old,there,named⟩ := List.any_eq_true.mp present
      exact ⟨record,List.mem_map.mpr ⟨old,there,by rw [if_pos named,same]⟩⟩
    · obtain ⟨value,there⟩ := keyed.resolve_left same
      exact ⟨value,List.mem_map.mpr ⟨(key,value),there,if_neg (by simpa using same)⟩⟩
  · rcases keyed with rfl | ⟨value,there⟩
    · exact ⟨record,List.mem_append_right _ List.mem_cons_self⟩
    · exact ⟨value,List.mem_append_left _ there⟩

theorem recordsSource {facts : List MemoryRecord} {records} :
    let last := facts.foldl (fun records record => setRecord records record.id record) records
    (∀ entry ∈ last, entry ∈ records ∨ ∃ fact ∈ facts, entry = (fact.id,fact)) ∧
    ∀ key, ((∃ value, (key,value) ∈ records) ∨ ∃ fact ∈ facts, fact.id = key) → ∃ value, (key,value) ∈ last := by
  induction facts generalizing records with
  | nil => exact ⟨fun _ member => .inl member,fun _ keyed => keyed.resolve_right (by simp)⟩
  | cons fact rest ih =>
    obtain ⟨every,keys⟩ := @ih (setRecord records fact.id fact)
    refine ⟨fun entry member => ?_,fun key keyed => keys key ?_⟩
    · rcases every entry member with old | ⟨other,there,same⟩
      · rcases setRecordSource old with same | ⟨before,_⟩
        · exact .inr ⟨fact,List.mem_cons_self,same⟩
        · exact .inl before
      · exact .inr ⟨other,List.mem_cons_of_mem _ there,same⟩
    · rcases keyed with old | ⟨other,member,named⟩
      · exact .inl (setRecordKeys (.inr old))
      · rcases List.mem_cons.mp member with rfl | there
        · exact .inl (setRecordKeys (.inl named.symm))
        · exact .inr ⟨other,there,named⟩

theorem bestSource {observation target : MemoryRecord} {facts : List MemoryRecord} {best}
    (found : (facts.foldl (bestTarget env observation) best).2 = some target) : best.2 = some target ∨ target ∈ facts := by
  induction facts generalizing best with
  | nil => exact .inl found
  | cons fact rest ih =>
    rcases ih found with here | there
    · unfold bestTarget at here
      dsimp only at here
      split at here
      · cases here
        exact .inr List.mem_cons_self
      · exact .inl here
    · exact .inr (List.mem_cons_of_mem _ there)

theorem targetSource {observation target : MemoryRecord} {facts} (found : findBestFactTarget env observation facts = some target) :
    target ∈ facts := (bestSource found).resolve_left nofun

theorem lookupKnown {records : List (String × MemoryRecord)} {key} (keyed : ∃ value, (key,value) ∈ records) :
    ∃ value, records.lookup key = some value ∧ (key,value) ∈ records := by
  induction records with
  | nil => simp at keyed
  | cons entry rest ih =>
    rw [List.lookup_cons]
    by_cases same : key = entry.1
    · exact ⟨entry.2,by simp [same],same ▸ List.mem_cons_self⟩
    · obtain ⟨value,found,there⟩ := ih (keyed.imp fun value member => (List.mem_cons.mp member).resolve_left fun here =>
        same (congrArg Prod.fst here))
      exact ⟨value,by rw [beq_eq_false_iff_ne.mpr same]; exact found,List.mem_cons_of_mem _ there⟩

def IsFact (start : Tables) (memoryId : String) : Prop := ∃ row, selectRow memoryId start = some row ∧ row.type = "fact"

/- The second loop between two observations. -/
structure Absorbing (env : Env) (start : Tables) (seeds : List MemoryRecord) (active : Active) (progress : Progress)
    (pass : Pass) : Prop where
  sound : Sound env start pass
  keeping : ∀ memoryId ∈ keepers pass.merges, IsFact start memoryId
  gone : ∀ memoryId ∈ sources pass.merges, memoryId ∈ groupedIds env seeds ∨
    memoryId ∈ progress.claimedSources ∧ ¬ IsFact start memoryId
  entries : ∀ entry ∈ active.byId, entry.2.id = entry.1 ∧ IsFact start entry.1 ∧
    (entry.1 ∉ groupedIds env seeds → Says pass.tables entry.2)
  facts : ∀ fact ∈ active.facts, ∃ record, (fact.id,record) ∈ active.byId

theorem notFact {observation : MemoryRecord} (stored : Stored start observation) (kind : observation.type = "observation") :
    ¬ IsFact start observation.id := by
  rintro ⟨row,there,fact⟩
  cases stored.symm.trans there
  exact absurd (kind.symm.trans fact) (by decide)

/- An absorption that answered, with the record that it answered. -/
theorem absorbing {active progress} {pass later : Pass} {canonical observation updated : MemoryRecord}
    (before : Absorbing env start seeds active progress pass) (sound : Sound env start later)
    (merges : later.merges = ⟨canonical,observation⟩ :: pass.merges)
    (others : ∀ memoryId, memoryId ≠ canonical.id → memoryId ≠ observation.id →
      selectRow memoryId later.tables = selectRow memoryId pass.tables)
    (named : updated.id = canonical.id) (agreeing : Says later.tables updated) (fact : IsFact start canonical.id)
    (apart : ¬ IsFact start observation.id) (merged archived absorbed : Nat) :
    let byId := setRecord active.byId updated.id updated
    Absorbing env start seeds ⟨byId.map (·.2),byId⟩ ⟨observation.id :: progress.claimedSources,merged,archived,absorbed⟩ later := by
  have entries : ∀ entry ∈ setRecord active.byId updated.id updated, entry.2.id = entry.1 ∧ IsFact start entry.1 ∧
      (entry.1 ∉ groupedIds env seeds → Says later.tables entry.2) := by
    intro entry member
    rcases setRecordSource member with rfl | ⟨old,away⟩
    · exact ⟨rfl,named ▸ fact,fun _ => agreeing⟩
    · obtain ⟨keyed,known,agrees⟩ := before.entries entry old
      refine ⟨keyed,known,fun free => ?_⟩
      obtain ⟨row,there,rest⟩ := agrees free
      have source : entry.2.id ≠ observation.id := fun same => apart (same ▸ keyed ▸ known)
      have target : entry.2.id ≠ canonical.id := fun same => away (keyed.symm.trans (same.trans named.symm))
      exact ⟨row,(others _ target source).trans there,rest⟩
  refine ⟨sound,fun memoryId member => ?_,fun memoryId member => ?_,entries,fun record member => ?_⟩
  · rw [keepers,merges] at member
    rcases List.mem_cons.mp member with rfl | old
    · exact fact
    · exact before.keeping memoryId old
  · rw [sources,merges] at member
    rcases List.mem_cons.mp member with rfl | old
    · exact .inr ⟨List.mem_cons_self,apart⟩
    · exact (before.gone memoryId old).imp_right fun claimed => ⟨List.mem_cons_of_mem _ claimed.1,claimed.2⟩
  · obtain ⟨entry,there,rfl⟩ := List.mem_map.mp member
    exact ⟨entry.2,by rw [(entries entry there).1]; exact there⟩

theorem absorbSound {observations active progress} {session : Session Pass}
    (before : Absorbing env start seeds active progress session.data)
    (grouped : ∀ memoryId ∈ groupedIds env seeds, IsFact start memoryId)
    (stored : ∀ observation ∈ observations, Stored start observation ∧ observation.type = "observation")
    (fine : ∀ merge ∈ (absorb env taskId observations active progress oracle session).2.data.merges, Fine env seeds merge) :
    Sound env start (absorb env taskId observations active progress oracle session).2.data := by
  induction observations generalizing active progress session with
  | nil => exact before.sound
  | cons observation rest ih =>
    have others : ∀ other ∈ rest, Stored start other ∧ other.type = "observation" := fun other member =>
      stored other (List.mem_cons_of_mem _ member)
    obtain ⟨here,kind⟩ := stored observation List.mem_cons_self
    have apart := notFact here kind
    unfold absorb at fine ⊢
    split at fine
    · rw [if_pos (by assumption)]
      exact ih before others fine
    · rename_i unclaimed
      rw [if_neg unclaimed]
      simp only [List.contains_iff_mem] at unclaimed
      cases found : findBestFactTarget env observation active.facts with
      | none =>
        simp only [found] at fine ⊢
        exact ih before others fine
      | some target =>
        simp only [found] at fine ⊢
        obtain ⟨canonical,known,entry⟩ := lookupKnown (before.facts target (targetSource found))
        rw [known,Option.getD_some] at fine ⊢
        obtain ⟨keyed,fact,agrees⟩ := before.entries (target.id,canonical) entry
        dsimp only at keyed fact agrees
        rw [← keyed] at fact agrees
        have noted := @mergingNoted env taskId oracle canonical observation session
        rw [bindRuns] at fine ⊢
        have step (merge : Fine env seeds ⟨canonical,observation⟩) :=
          @mergingSound env taskId start oracle session canonical observation before.sound (agrees (merge.2 kind))
            (fun gone => (before.gone canonical.id gone).elim (merge.2 kind) fun claimed => claimed.2 fact)
            (fun touched => touched.elim (fun keeps => apart (before.keeping _ keeps)) fun gone =>
              (before.gone _ gone).elim (fun group => apart (grouped _ group)) fun claimed => unclaimed claimed.1)
            (fun same => apart (same ▸ fact)) here merge.1
        generalize merging env taskId canonical observation oracle session = reply at *
        have merge : ⟨canonical,observation⟩ ∈ reply.2.data.merges := noted ▸ List.mem_cons_self
        obtain ⟨error | updated,middle⟩ := reply
        · exact (step (fine ⟨canonical,observation⟩ merge)).1
        · obtain ⟨kept,merges,frame,answers⟩ := step (fine ⟨canonical,observation⟩
            ((grownAbsorb oracle middle (List.suffix_refl _)).1.subset merge))
          obtain ⟨named,agreeing⟩ := answers updated rfl
          exact ih (absorbing before kept merges frame named agreeing fact apart _ _ _) others fine

theorem soundStart : Sound env start ⟨start,[]⟩ :=
  ⟨fun _ _ _ => rfl,fun _ _ => rfl,fun _ _ _ was now => by cases was.symm.trans now; exact List.Subset.refl _,
    fun _ ⟨_,_,was,now,live,gone⟩ => by cases was.symm.trans now; exact absurd gone live⟩

variable {candidates : List MemoryRecord}

theorem factsSource {records : List MemoryRecord} {record} : record ∈ factsOf records ↔ record ∈ records ∧ record.type = "fact" := by
  simp [factsOf]

theorem absorbingStart {pass : Pass} {progress : Progress} (keeping : Keeping env start ⟨start,[]⟩ (groupedIds env seeds) pass)
    (grouped : ∀ memoryId ∈ groupedIds env seeds, IsFact start memoryId) (stored : ∀ record ∈ candidates, Stored start record) :
    Absorbing env start seeds (activeFacts candidates) progress pass := by
  obtain ⟨sound,within⟩ := keeping
  have touched (memoryId) (touched : Touched pass memoryId) : memoryId ∈ groupedIds env seeds :=
    (within memoryId touched).resolve_left (by simp [Touched,keepers,sources])
  obtain ⟨every,keys⟩ := @recordsSource (factsOf candidates) []
  refine ⟨sound,fun memoryId keeps => grouped memoryId (touched memoryId (.inl keeps)),
    fun memoryId gone => .inl (touched memoryId (.inr gone)),fun entry member => ?_,fun fact member =>
      keys fact.id (.inr ⟨fact,member,rfl⟩)⟩
  obtain ⟨fact,there,rfl⟩ := (every entry member).resolve_left List.not_mem_nil
  obtain ⟨candidate,kind⟩ := factsSource.mp there
  exact ⟨rfl,⟨fact.toMemoryRow,stored fact candidate,kind⟩,fun free =>
    storedSays sound (stored fact candidate) fun reached => free (touched _ reached)⟩

theorem passSound {moment : Nat} (stored : ∀ record ∈ candidates ++ seeds, Stored start record)
    (fine : ∀ merge ∈ (runDeterministicDeduplicatorPass env taskId candidates seeds oracle ⟨⟨start,[]⟩,moment⟩).2.data.merges,
      Fine env seeds merge) :
    Sound env start (runDeterministicDeduplicatorPass env taskId candidates seeds oracle ⟨⟨start,[]⟩,moment⟩).2.data := by
  have seed (record) (member : record ∈ seeds) : Stored start record := stored record (List.mem_append_right _ member)
  obtain ⟨distinct,_,among⟩ := @collectSource env (factsOf seeds) (factsOf seeds) []
  have members : ∀ group ∈ collectSimilarFactGroups env (factsOf seeds), ∀ member ∈ group.members, member ∈ factsOf seeds :=
    fun group here member inside => (among group here member inside).elim id id
  have grouped : ∀ memoryId ∈ groupedIds env seeds, IsFact start memoryId := by
    intro memoryId here
    obtain ⟨group,there,inside⟩ := List.mem_flatMap.mp here
    obtain ⟨fact,member,rfl⟩ := List.mem_map.mp inside
    obtain ⟨given,kind⟩ := factsSource.mp (members group there fact member)
    exact ⟨fact.toMemoryRow,seed fact given,kind⟩
  unfold runDeterministicDeduplicatorPass at fine ⊢
  split at fine
  · rw [if_pos (by assumption)]
    exact soundStart
  · rw [if_neg (by assumption)]
    rw [bindRuns] at fine ⊢
    have first := @groupsSound env taskId start oracle (collectSimilarFactGroups env (factsOf seeds)) ⟨[],0,0,0⟩
      ⟨⟨start,[]⟩,moment⟩ soundStart distinct
      (fun group here member inside => seed member (factsSource.mp (members group here member inside)).1)
      (fun _ _ touched => by simp [Touched,keepers,sources] at touched)
    generalize mergeGroups env taskId (collectSimilarFactGroups env (factsOf seeds)) ⟨[],0,0,0⟩ oracle ⟨⟨start,[]⟩,moment⟩
      = reply at *
    obtain ⟨error | progress,middle⟩ := reply
    · exact (first fun merge noted => (fine merge noted).1).1
    · have kept := first fun merge noted =>
        (fine merge ((grownAbsorb oracle middle (List.suffix_refl _)).1.subset noted)).1
      refine absorbSound (absorbingStart kept grouped fun record member => stored record (List.mem_append_left _ member))
        grouped (fun observation member => ?_) fine
      obtain ⟨given,kind⟩ := List.mem_filter.mp member
      exact ⟨seed observation given,by simpa using kind⟩

/- However a pass ends, where every merge that it began loses nothing. -/
theorem passLossless {moment : Nat} (stored : ∀ record ∈ candidates ++ seeds, Stored start record)
    (fine : ∀ merge ∈ (runDeterministicDeduplicatorPass env taskId candidates seeds oracle ⟨⟨start,[]⟩,moment⟩).2.data.merges,
      Fine env seeds merge) :
    Lossless env start
      (runDeterministicDeduplicatorPass env taskId candidates seeds oracle ⟨⟨start,[]⟩,moment⟩).2.data.tables :=
  soundLossless (passSound stored fine)

end

/- Two facts that the first loop merges into `a`, and an observation that one of the facts absorbs. -/

def sampleEnv : Env := ⟨⟨⟨⟨ascii,fun _ => "digest"⟩,fun title _ _ => title⟩,fun _ => "",id⟩,fun _ _ => some 1,fun _ => 0⟩

def sampleMemory (memoryId title content type : String) : MemoryRow :=
  ⟨memoryId,none,title,content,none,type,"active","t0","t0",none,[]⟩

def sampleFacts : List MemoryRow :=
  [sampleMemory "a" "cache" "ttl 60" "fact",
    sampleMemory "b" "cache" "ttl 90" "fact"]

def sampleTables (observed : List MemoryRow) : Tables :=
  let memories := sampleFacts ++ observed
  { Memory.empty with memories := memories, workspaces := memories.map (·.id,"w") }

def sampleOracle : Oracle ActionError := fun moment => ⟨none,toString moment,"now",moment⟩

def sampleRecords (observed : List MemoryRow) : List MemoryRecord :=
  (sampleTables observed).memories.map (hydrateRecord (sampleTables observed))

def samplePass (observed : List MemoryRow) : Except ActionError Progress × Session Pass :=
  runDeterministicDeduplicatorPass sampleEnv "task" (sampleRecords observed) (sampleRecords observed) sampleOracle
    ⟨⟨sampleTables observed,[]⟩,0⟩

/- The absorption starts from the facts as they were before the first loop. -/
def nearGrouped : List MemoryRow :=
  [sampleMemory "o" "cache" "ttl 75" "observation"]

def apartFromGrouped : List MemoryRow :=
  [sampleMemory "f" "soil" "wet may" "fact",
    sampleMemory "o" "soil" "wet june" "observation"]

instance : Decidable (Fine env seeds merge) := inferInstanceAs (Decidable ((_ ∨ _) ∧ (_ → _)))

theorem passLosslessSample : Lossless sampleEnv (sampleTables apartFromGrouped) (samplePass apartFromGrouped).2.data.tables := by
  have stored : ∀ record ∈ sampleRecords apartFromGrouped, Stored (sampleTables apartFromGrouped) record := by
    intro record member
    simp only [sampleRecords,sampleTables,sampleFacts,apartFromGrouped,List.cons_append,List.nil_append,List.map_cons,
      List.map_nil,List.mem_cons,List.not_mem_nil,or_false] at member
    rcases member with rfl | rfl | rfl | rfl <;> rfl
  have fine : ∀ merge ∈ (samplePass apartFromGrouped).2.data.merges, Fine sampleEnv (sampleRecords apartFromGrouped) merge := by
    decide +kernel
  rw [samplePass] at fine ⊢
  exact passLossless (fun record member => stored record ((List.mem_append.mp member).elim id id)) fine

theorem samplePassLoses : (samplePass nearGrouped).1.toBool = true ∧
    ¬ Lossless sampleEnv (sampleTables nearGrouped) (samplePass nearGrouped).2.data.tables := by
  have ran : (samplePass nearGrouped).1.toBool = true ∧
      (selectRow "b" (samplePass nearGrouped).2.data.tables).map (·.status) = some "archived" ∧
      ∀ row ∈ (samplePass nearGrouped).2.data.tables.memories, "b" ∉ mergedIds sampleEnv row.metadata := by decide +kernel
  refine ⟨ran.1,fun lossless => ?_⟩
  obtain ⟨_,status,lists⟩ := ran
  generalize (samplePass nearGrouped).2.data.tables = last at *
  obtain ⟨once,now,gone⟩ := Option.map_eq_some_iff.mp status
  have there : (selectRow "b" (sampleTables nearGrouped)).map (·.status) = some "active" := by decide +kernel
  obtain ⟨first,was,live⟩ := Option.map_eq_some_iff.mp there
  have active : first.status ≠ "archived" := live ▸ by decide
  obtain ⟨before,keeper,after,_,found,_,_,listed,_⟩ := lossless "b" ⟨first,once,was,now,active,gone⟩
  exact lists after (List.mem_of_find?_eq_some found) listed

end McpMemory.Deduplicate
