import McpMemory.Curation.ExactlyOnce

/-! The footprint of an action: the memories that it names, and those that it makes. -/
namespace McpMemory.Curation
open Memory Text Transaction

variable (env : Env)

/- The memory is a target of the request, or it is there only afterwards. -/
def Affected (request : Request) (before after : Tables) (memoryId : String) : Prop :=
  (∃ given ∈ request.targetIds, canonicalId env given = memoryId) ∨
    before.has memoryId = false ∧ after.has memoryId

/- Nothing but a named memory changes, and each link that came or went has a named end. -/
structure Footprint (request : Request) (before after : Tables) : Prop where
  memories : ∀ memoryId, ¬ Affected env request before after memoryId →
    recordById memoryId after = recordById memoryId before
  links : ∀ link, ¬ (link ∈ after.links ↔ link ∈ before.links) →
    Affected env request before after link.sourceId ∨ Affected env request before after link.targetId

/- A target, or an id that nothing had before the action. -/
def Free (p : Prepared) (before : Tables) (memoryId : String) : Prop :=
  memoryId ∈ p.targets ∨ before.has memoryId = false

structure Kept (p : Prepared) (before : Tables) (work : Work) : Prop where
  outline : ∀ memoryId, ¬ Free p before memoryId → outline memoryId work.database.memory = outline memoryId before
  holds : Holds before work.database.memory
  targets : work.targetIds = p.targets
  created : ∀ memoryId ∈ work.newIds, Free p before memoryId

variable {request : Request} {p : Prepared} {before after : Tables}

theorem keptThere {work memoryId} (kept : Kept p before work) (apart : ¬ Free p before memoryId) :
    work.database.memory.has memoryId := by
  simp only [Free,not_or,Bool.not_eq_false] at apart
  have row := congrArg Portrait.row (kept.outline memoryId (by simp [Free,apart]))
  have there := hasIff.mp apart.2
  simp only [outline,portrait] at row there
  exact hasIff.mpr (by simp only [portrait,row,there])

theorem keptFrame : Frame (Free p before) (fun _ => True) (Kept p before) where
  guards work after start differs :=
    ⟨fun memoryId apart => (differs.outline memoryId apart).trans (start.outline memoryId apart),
      start.holds.trans differs.schema,start.targets,start.created⟩
  notes work after start notes := by
    refine ⟨fun memoryId apart => Eq.trans ?_ (start.outline memoryId apart),start.holds.trans ?_,start.targets,
      start.created⟩
    · simp only [outline,selectRow,port,notes.memories,notes.workspaces,notes.memoryTags,notes.links]
    · exact holdsBeside notes.memories notes.links (fun _ member => notes.memoryTags ▸ member) notes.tags notes.sequence
  ledger _ _ _ start := ⟨start.outline,start.holds,start.targets,start.created⟩
  touched _ _ start := ⟨start.outline,start.holds,start.targets,start.created⟩
  newIds work memoryId free start := by
    refine ⟨start.outline,start.holds,start.targets,fun other member => ?_⟩
    rcases List.mem_append.mp member with old | new
    · exact start.created other old
    · cases List.mem_singleton.mp new
      exact free
  access work memoryId start := by
    rintro (held | absent)
    · simp only [locked,Bool.or_eq_true,List.contains_iff_mem,start.targets] at held
      exact held.elim .inl (start.created memoryId)
    · by_contra apart
      rw [keptThere start apart] at absent
      cases absent
  within _ _ := trivial
  external _ _ := trivial

theorem keptStart {database : Database} : Kept p database.memory ⟨database,p.targets,[],[]⟩ :=
  ⟨fun _ _ => rfl,holdsRefl,rfl,fun _ member => (by cases member)⟩

theorem affectedFree (prepared : prepare env request = .ok p) {memoryId} (free : Free p before memoryId)
    (there : before.has memoryId ∨ after.has memoryId) : Affected env request before after memoryId := by
  rcases free with target | absent
  · exact .inl ((preparedTargets env prepared).mp target)
  · rw [absent] at there
    exact .inr ⟨absent,there.resolve_left Bool.false_ne_true⟩

theorem recordAbsent {t : Tables} {memoryId} (absent : ¬ t.has memoryId) : recordById memoryId t = none := by
  rw [hasIff,Option.not_isSome_iff_eq_none] at absent
  simp only [portrait] at absent
  rw [recordById,absent,Option.map_none]

theorem keptRecord {work memoryId} (schema : Schema before) (kept : Kept p before work)
    (apart : ¬ Free p before memoryId) : recordById memoryId work.database.memory = recordById memoryId before := by
  have same := kept.outline memoryId apart
  simp only [outline,Portrait.mk.injEq] at same
  exact recordKept schema kept.holds same.1 same.2.1 same.2.2.1

theorem keptLink {work} {link : MemoryLink} (kept : Kept p before work) (apart : ¬ Free p before link.sourceId) :
    link ∈ work.database.memory.links ↔ link ∈ before.links := by
  have same := congrArg Portrait.links (kept.outline _ apart)
  have among : ∀ t : Tables, link ∈ t.links ↔ link ∈ t.links.filter (·.sourceId == link.sourceId) := fun t => by simp
  simp only [outline] at same
  rw [among,same,← among]

theorem keptFootprint {work} (schema : Schema before) (prepared : prepare env request = .ok p)
    (kept : Kept p before work) : Footprint env request before work.database.memory where
  memories memoryId apart := by
    by_cases free : Free p before memoryId
    · -- An id that is on neither side has no record on either.
      have absent : ¬ (before.has memoryId ∨ work.database.memory.has memoryId) := fun there =>
        apart (affectedFree env prepared free there)
      rw [not_or] at absent
      rw [recordAbsent absent.1,recordAbsent absent.2]
    · exact keptRecord schema kept free
  links link differs := by
    have free : Free p before link.sourceId := by
      by_contra apart
      exact differs (keptLink kept apart)
    refine .inl (affectedFree env prepared free ?_)
    by_cases member : link ∈ before.links
    · exact .inl (schema.sources link member)
    · refine .inr ((kept.holds.schema schema).sources link ?_)
      by_contra away
      exact differs ⟨fun here => absurd here away,fun here => absurd here member⟩

theorem footprintRefl : Footprint env request before before :=
  ⟨fun _ _ => rfl,fun _ differs => (differs Iff.rfl).elim⟩

/- Whatever the callback does, and whether the call commits, replays or fails, at its first look
as well as in its transaction. -/
theorem actionFootprint {database : Database} (schema : Schema database.memory) (attempt : Attempt) (call : Call)
    (asked : call = .execute attempt ∨ ∃ p, prepare env attempt.request = .ok p ∧ call = .transacting attempt p) :
    Footprint env attempt.request database.memory (step env call database).2.1.memory ∧
      Schema (step env call database).2.1.memory := by
  rcases asked with rfl | ⟨p,prepared,rfl⟩
  · simp only [step]
    split
    · exact ⟨footprintRefl env,schema⟩
    · split <;> exact ⟨footprintRefl env,schema⟩
  · simp only [step]
    rcases framedTransaction env keptFrame.still keptFrame.toAside (fun _ _ _ ran start =>
      ((ensuresPlay (fun command => framedPerform env attempt.config keptFrame.guarded command (.inr fun _ => trivial))
        attempt.callback).kept ran start).1) keptStart with same | ⟨work,kept,same⟩
    · rw [same]
      exact ⟨footprintRefl env,schema⟩
    · rw [same]
      exact ⟨keptFootprint env schema prepared kept,kept.holds.schema schema⟩

/- A run that deletes the first of two linked memories. -/

def asciiEnv : Env := ⟨⟨ascii,id⟩,fun title _ _ => title⟩

def firstId : String := "00000000-0000-0000-0000-000000000001"

def secondId : String := "00000000-0000-0000-0000-000000000002"

def plainRow (memoryId : String) (memoryRef : Int) : MemoryRow :=
  ⟨memoryId,some memoryRef,"note","kept",some "note","fact","active","t0","t0",none,[]⟩

def linkedNotes : Database := { Database.empty with
  memory := { Memory.empty with
    memories := [plainRow firstId 1,plainRow secondId 2]
    links := [⟨secondId,firstId,"NEXT",""⟩,⟨firstId,secondId,"NEXT",""⟩] }
  curation := ⟨[⟨"run",none,"frontier","context",none,none,.executing,"t0"⟩],[]⟩ }

def forget : Callback := .call (.deleteMemory firstId) fun _ => .done (some ⟨"forget",[],none⟩)

def forgetting : Attempt :=
  ⟨⟨"",none⟩,⟨"run","action",[firstId],[],none,some "forget",.null,none,"curator",none,none⟩,forget,
    fun n => ⟨none,toString n,"t1",n⟩⟩

theorem forgetPrepared : prepare asciiEnv forgetting.request = .ok ⟨[firstId],[],"forget"⟩ := rfl

theorem actionFootprintSample :
    let after := (step asciiEnv (.transacting forgetting ⟨[firstId],[],"forget"⟩) linkedNotes).2.1.memory
    Footprint asciiEnv forgetting.request linkedNotes.memory after ∧ after.links = [⟨secondId,firstId,"NEXT",""⟩] := by
  have schema : Schema linkedNotes.memory := ⟨by decide,by decide,by decide⟩
  exact ⟨(actionFootprint asciiEnv schema forgetting _ (.inr ⟨_,forgetPrepared,rfl⟩)).1,by decide +kernel⟩

end McpMemory.Curation
