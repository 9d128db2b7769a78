import Mathlib.Data.List.Find
import McpMemory.Curation.Footprint
import McpMemory.Curation.Recorded
import McpMemory.Curation.Shapes

/-! The link revisions of a committed action as a history: which links they name, and what the
links are when the action is undone by them. A revision keeps the context after the action only,
and the links before it are read for the targets, those after it for all that it touched. -/
namespace McpMemory.Curation
open Memory Text Transaction Table

variable (env : Env) (config : Config)

/- The row of the links under its primary key. -/
def linkAt (links : List MemoryLink) (key : LinkKey) : Option MemoryLink := links.find? (keyOf · == key)

def revisionKey (revision : LinkRevision) : LinkKey := (revision.sourceId,revision.targetId,revision.linkType)

/- The change that `InverseLinkChange` asks for: the context is the one that the revision keeps. -/
def inverseLink (revision : LinkRevision) : Option MemoryLink :=
  if revision.beforeExists then
    some ⟨revision.sourceId,revision.targetId,revision.linkType,revision.context.getD ""⟩
  else none

def undoLink (revision : LinkRevision) (links : List MemoryLink) : List MemoryLink :=
  links.filter (keyOf · != revisionKey revision) ++ (inverseLink revision).toList

/- The last revision is undone first. -/
def undoLinks (revisions : List LinkRevision) (links : List MemoryLink) : List MemoryLink :=
  revisions.foldr undoLink links

/- The revisions name the links that came, went or changed and no other, say what each was and is,
and lead back from the links after the action to those before it. -/
structure LinkHistory (before after : List MemoryLink) (revisions : List LinkRevision) : Prop where
  exactly : ∀ key, (∃ revision ∈ revisions, revisionKey revision = key) ↔ linkAt before key ≠ linkAt after key
  told : ∀ revision ∈ revisions,
    revision.beforeExists = (linkAt before (revisionKey revision)).isSome ∧
    revision.afterExists = (linkAt after (revisionKey revision)).isSome ∧
    revision.context = (linkAt after (revisionKey revision)).map (·.context)
  undone : ∀ key, linkAt (undoLinks revisions after) key = linkAt before key

/- The history that the action wrote. -/
def addedRevisions (before after : Tables) : List LinkRevision := after.linkRevisions.drop before.linkRevisions.length

def firstPlay (attempt : Attempt) (p : Prepared) : Action (Option MutationResult) := do
  hook
  let _ ← select fun work => getReceipt attempt.request.runId attempt.request.actionId work.database.curation
  upToCallback env attempt.config attempt.request p attempt.callback

/- The work as the callback leaves it: what the action did to the links, and what it touched. -/
def played (attempt : Attempt) (p : Prepared) (database : Database) : Work :=
  (firstPlay env attempt p attempt.oracle ⟨⟨database,p.targets,[],[]⟩,0⟩).2.data

/- The ids that the links after the action are read for. -/
def reachedIds (p : Prepared) (work : Work) : List String :=
  sortedSet ((p.targets ++ work.touched).map (canonicalId env))

def touches (memoryIds : List String) (link : MemoryLink) : Bool :=
  memoryIds.contains link.sourceId || memoryIds.contains link.targetId

/- The callback changed no link's context and removed none that had one, and it touched nothing but
the targets that another link has an end at. -/
def Traceable (targets reached : List String) (before after : List MemoryLink) : Prop :=
  ∀ key link, linkAt before key = some link →
    linkAt after key = some link ∧ (touches reached link → touches targets link) ∨
    linkAt after key = none ∧ link.context = ""

variable {env config}

/- The table as a map. -/

theorem linkAtKey {links : List MemoryLink} {key link} (found : linkAt links key = some link) : keyOf link = key := by
  simpa using List.find?_some found

theorem linkAtNone {links : List MemoryLink} {key} : linkAt links key = none ↔ ∀ link ∈ links, keyOf link ≠ key := by
  simp [linkAt]

theorem inverseKey {revision : LinkRevision} {link} (made : inverseLink revision = some link) :
    keyOf link = revisionKey revision := by
  unfold inverseLink at made
  split at made <;> cases made
  rfl

theorem linkAtUndo (revision : LinkRevision) (links : List MemoryLink) (key : LinkKey) :
    linkAt (undoLink revision links) key =
      if revisionKey revision = key then inverseLink revision else linkAt links key := by
  unfold linkAt undoLink
  rw [List.find?_append]
  split
  · rename_i here
    have cleared : (links.filter (keyOf · != revisionKey revision)).find? (keyOf · == key) = none := by
      simp [← here]
    rw [cleared,Option.none_or]
    cases made : inverseLink revision with
    | none => rfl
    | some link => simp [inverseKey made,here]
  · rename_i apart
    have kept : (links.filter (keyOf · != revisionKey revision)).find? (keyOf · == key) =
        links.find? (keyOf · == key) := by
      rw [List.find?_filter]
      refine List.find?_congr fun link _ => ?_
      by_cases same : keyOf link = key <;> simp [same,Ne.symm apart]
    have absent : (inverseLink revision).toList.find? (keyOf · == key) = none := by
      cases made : inverseLink revision with
      | none => rfl
      | some link => simp [inverseKey made,apart]
    rw [kept,absent,Option.or_none]

/- A link is what the inverse of its revision makes it, or what it was when it has none. -/
theorem linkAtUndone (revisions : List LinkRevision) (links : List MemoryLink) (key : LinkKey) :
    linkAt (undoLinks revisions links) key = match revisions.find? (revisionKey · == key) with
      | some revision => inverseLink revision
      | none => linkAt links key := by
  induction revisions with
  | nil => rfl
  | cons revision rest ih =>
    show linkAt (undoLink revision (undoLinks rest links)) key = _
    rw [linkAtUndo,List.find?_cons,ih]
    by_cases here : revisionKey revision = key
    · rw [if_pos here,beq_iff_eq.mpr here]
    · rw [if_neg here,beq_eq_false_iff_ne.mpr here]

theorem linkAtLinks (memoryIds : List String) (t : Tables) (key : LinkKey) :
    linkAt (linksOf memoryIds t) key =
      if memoryIds.contains key.1 || memoryIds.contains key.2.1 then linkAt t.links key else none := by
  unfold linkAt linksOf
  rw [List.find?_filter]
  split
  · rename_i inside
    refine List.find?_congr fun link _ => ?_
    by_cases same : keyOf link = key
    · subst same
      simp only [keyOf] at inside
      simp only [inside,true_and,Bool.decide_eq_true]
    · simp [same]
  · rename_i outside
    refine List.find?_eq_none.mpr fun link _ => ?_
    by_cases same : keyOf link = key
    · subst same
      simp only [keyOf,Bool.not_eq_true] at outside
      rw [outside]
      exact Bool.false_ne_true
    · simp [same]

/- The revision of a key: none for a link that is there before and after with one context. -/
def linkRevision (eventId : String) (before after : List MemoryLink) (key : LinkKey) : Option LinkRevision :=
  if (linkAt before key).isSome && (linkAt after key).isSome &&
      (linkAt before key).map (·.context) == (linkAt after key).map (·.context) then none
  else some ⟨eventId,key.1,key.2.1,key.2.2,(linkAt after key).map (·.context),(linkAt before key).isSome,
    (linkAt after key).isSome⟩

def linkKeys (before after : List MemoryLink) : List LinkKey :=
  ((before ++ after).map keyOf).dedup.insertionSort (keyLe · ·)

def linkRevisions (eventId : String) (before after : List MemoryLink) : List LinkRevision :=
  (linkKeys before after).filterMap (linkRevision eventId before after)

theorem memLinkKeys {before after : List MemoryLink} {key : LinkKey} :
    key ∈ linkKeys before after ↔ (linkAt before key).isSome ∨ (linkAt after key).isSome := by
  rw [linkKeys,List.mem_insertionSort,List.mem_dedup,List.map_append,List.mem_append]
  simp [linkAt,List.find?_isSome]

/- Two links of one key that have one context are one link. -/
theorem linkAtSame {before after : List MemoryLink} {key : LinkKey} {old new}
    (found : linkAt before key = some old) (there : linkAt after key = some new) :
    old.context = new.context ↔ linkAt before key = linkAt after key := by
  have same := (linkAtKey found).trans (linkAtKey there).symm
  rw [found,there]
  obtain ⟨oldSource,oldTarget,oldType,oldContext⟩ := old
  obtain ⟨newSource,newTarget,newType,newContext⟩ := new
  simp only [keyOf,Prod.mk.injEq] at same
  simp [same.1,same.2.1,same.2.2]

theorem linkRevisionIff {eventId : String} {before after : List MemoryLink} {key : LinkKey} :
    (key ∈ linkKeys before after ∧ (linkRevision eventId before after key).isSome) ↔
      linkAt before key ≠ linkAt after key := by
  rw [memLinkKeys]
  unfold linkRevision
  cases found : linkAt before key with
  | none => cases there : linkAt after key <;> simp
  | some old =>
    cases there : linkAt after key with
    | none => simp
    | some new =>
      have same := linkAtSame found there
      rw [found,there] at same
      by_cases alike : old.context = new.context
      · simp [same.mp alike]
      · simp [alike,mt same.mpr alike]

theorem linkRevisionMade {eventId : String} {before after : List MemoryLink} {key revision}
    (made : linkRevision eventId before after key = some revision) :
    revision = ⟨eventId,key.1,key.2.1,key.2.2,(linkAt after key).map (·.context),(linkAt before key).isSome,
      (linkAt after key).isSome⟩ := by
  unfold linkRevision at made
  split at made <;> cases made
  rfl

theorem findLinkRevision {eventId : String} {before after : List MemoryLink} (key : LinkKey) :
    (linkRevisions eventId before after).find? (revisionKey · == key) =
      if key ∈ linkKeys before after then linkRevision eventId before after key else none := by
  unfold linkRevisions
  induction linkKeys before after with
  | nil => rfl
  | cons other rest ih =>
    rw [List.filterMap_cons]
    cases made : linkRevision eventId before after other with
    | none =>
      simp only [ih,List.mem_cons]
      by_cases here : key = other
      · subst here
        simp [made]
      · simp [here]
    | some revision =>
      have named : revisionKey revision = other := by rw [linkRevisionMade made]; rfl
      rw [List.find?_cons,named,ih]
      by_cases here : other = key
      · subst here
        simp [made]
      · simp only [beq_eq_false_iff_ne.mpr here,List.mem_cons,Ne.symm here,false_or]

theorem revisedIff {eventId : String} {before after : List MemoryLink} {key : LinkKey} :
    (∃ revision ∈ linkRevisions eventId before after, revisionKey revision = key) ↔
      linkAt before key ≠ linkAt after key := by
  rw [← @linkRevisionIff eventId]
  constructor
  · rintro ⟨revision,member,rfl⟩
    obtain ⟨key,listed,made⟩ := List.mem_filterMap.mp member
    have named : revisionKey revision = key := by rw [linkRevisionMade made]; rfl
    rw [named,made]
    exact ⟨listed,rfl⟩
  · rintro ⟨listed,some⟩
    obtain ⟨revision,made⟩ := Option.isSome_iff_exists.mp some
    exact ⟨revision,List.mem_filterMap.mpr ⟨key,listed,made⟩,by rw [linkRevisionMade made]; rfl⟩

/- What the reads of the links miss: a link that changed has an end among the targets, a new one an
end among what the action reached. -/
structure Followed (targets reached : List String) (before after : List MemoryLink) : Prop where
  within : ∀ memoryId ∈ targets, memoryId ∈ reached
  changed : ∀ key link, linkAt before key = some link → linkAt after key ≠ some link → key.1 ∈ targets
  created : ∀ key link, linkAt before key = none → linkAt after key = some link → key.1 ∈ reached

section
variable {targets reached : List String} {before after : Tables}

theorem linkAtTouches {memoryIds : List String} {t : Tables} {key link} (found : linkAt t.links key = some link) :
    linkAt (linksOf memoryIds t) key = if touches memoryIds link then some link else none := by
  rw [linkAtLinks,found]
  have named := linkAtKey found
  subst named
  rfl

/- A change is read as it is. -/
theorem Followed.seen (followed : Followed targets reached before.links after.links) {key}
    (differs : linkAt before.links key ≠ linkAt after.links key) :
    linkAt (linksOf targets before) key = linkAt before.links key ∧
      linkAt (linksOf reached after) key = linkAt after.links key := by
  have inside : (linkAt before.links key).isSome → key.1 ∈ targets := fun some => by
    obtain ⟨link,found⟩ := Option.isSome_iff_exists.mp some
    exact followed.changed key link found fun same => differs (found.trans same.symm)
  rw [linkAtLinks,linkAtLinks]
  cases found : linkAt before.links key with
  | some old =>
    have target : key.1 ∈ targets := inside (by rw [found]; rfl)
    have reach := followed.within _ target
    simp [target,reach]
  | none =>
    cases there : linkAt after.links key with
    | none => exact absurd (found.trans there.symm) differs
    | some new =>
      have reach := followed.created key new found there
      simp [reach]

/- Where nothing changed, only what was read on one side and not on the other looks like a change. -/
theorem Followed.looks (followed : Followed targets reached before.links after.links) {key link}
    (found : linkAt before.links key = some link) (there : linkAt after.links key = some link) :
    linkAt (linksOf targets before) key = linkAt (linksOf reached after) key ↔
      (touches reached link → touches targets link) := by
  have wider : touches targets link → touches reached link := by
    simp only [touches,Bool.or_eq_true,List.contains_iff_mem]
    exact Or.imp (followed.within _) (followed.within _)
  rw [linkAtTouches found,linkAtTouches there]
  cases target : touches targets link with
  | true => simp [wider target]
  | false => cases reach : touches reached link <;> simp

theorem inverseMade {eventId : String} {old new : List MemoryLink} {key revision}
    (made : linkRevision eventId old new key = some revision) :
    inverseLink revision = if (linkAt old key).isSome then
      some ⟨key.1,key.2.1,key.2.2,((linkAt new key).map (·.context)).getD ""⟩ else none := by
  rw [linkRevisionMade made]
  rfl

theorem historyTraces {eventId : String} (followed : Followed targets reached before.links after.links)
    (history : LinkHistory before.links after.links (linkRevisions eventId (linksOf targets before)
      (linksOf reached after))) : Traceable targets reached before.links after.links := by
  intro key link found
  by_cases same : linkAt before.links key = linkAt after.links key
  · have there := same ▸ found
    refine .inl ⟨there,(followed.looks found there).mp ?_⟩
    by_contra differs
    exact (history.exactly key).mp (revisedIff.mpr differs) same
  · right
    obtain ⟨seen,shown⟩ := followed.seen same
    have back := history.undone key
    have listed := (@linkRevisionIff eventId (linksOf targets before) (linksOf reached after) key).mpr (by
      rwa [seen,shown])
    obtain ⟨revision,made⟩ := Option.isSome_iff_exists.mp listed.2
    rw [linkAtUndone,findLinkRevision,if_pos listed.1,made] at back
    dsimp only at back
    rw [inverseMade made,seen,shown,found] at back
    cases there : linkAt after.links key with
    | none =>
      rw [there] at back
      exact ⟨rfl,(congrArg MemoryLink.context (Option.some.inj back)).symm⟩
    | some new =>
      rw [there] at back
      exact absurd ((linkAtSame found there).mp (congrArg MemoryLink.context (Option.some.inj back)).symm) same

theorem tracesHistory {eventId : String} (followed : Followed targets reached before.links after.links)
    (traceable : Traceable targets reached before.links after.links) :
    LinkHistory before.links after.links (linkRevisions eventId (linksOf targets before) (linksOf reached after)) := by
  -- A link that stayed is read on both sides or on neither.
  have looks : ∀ key, linkAt (linksOf targets before) key ≠ linkAt (linksOf reached after) key ↔
      linkAt before.links key ≠ linkAt after.links key := by
    intro key
    by_cases same : linkAt before.links key = linkAt after.links key
    · refine not_congr ⟨fun _ => same,fun _ => ?_⟩
      cases found : linkAt before.links key with
      | none =>
        rw [found] at same
        rw [linkAtLinks,linkAtLinks,found,← same]
        simp
      | some link =>
        have there := same ▸ found
        rcases traceable key link found with ⟨_,both⟩ | ⟨gone,_⟩
        · exact (followed.looks found there).mpr both
        · cases there.symm.trans gone
    · obtain ⟨seen,shown⟩ := followed.seen same
      rw [seen,shown]
  refine ⟨fun key => revisedIff.trans (looks key),fun revision member => ?_,fun key => ?_⟩
  · obtain ⟨key,listed,made⟩ := List.mem_filterMap.mp member
    have named : revisionKey revision = key := by rw [linkRevisionMade made]; rfl
    obtain ⟨seen,shown⟩ := followed.seen ((looks key).mp (revisedIff.mp ⟨revision,member,named⟩))
    rw [named,linkRevisionMade made,seen,shown]
    exact ⟨rfl,rfl,rfl⟩
  · rw [linkAtUndone,findLinkRevision]
    by_cases differs : linkAt before.links key ≠ linkAt after.links key
    · obtain ⟨seen,shown⟩ := followed.seen differs
      have listed := (@linkRevisionIff eventId _ _ _).mpr ((looks key).mpr differs)
      obtain ⟨revision,made⟩ := Option.isSome_iff_exists.mp listed.2
      rw [if_pos listed.1,made]
      dsimp only
      rw [inverseMade made,seen,shown]
      cases found : linkAt before.links key with
      | none => rfl
      | some link =>
        rcases traceable key link found with ⟨there,_⟩ | ⟨gone,bare⟩
        · exact absurd (found.trans there.symm) differs
        · have named := linkAtKey found
          subst named
          rw [gone,← bare]
          rfl
    · have none : (if key ∈ linkKeys (linksOf targets before) (linksOf reached after) then
          linkRevision eventId (linksOf targets before) (linksOf reached after) key else none) = none := by
        by_contra some
        split at some
        · exact differs ((looks key).mp (linkRevisionIff.mp ⟨‹_›,Option.isSome_iff_ne_none.mpr some⟩))
        · exact some rfl
      rw [none]
      exact (not_not.mp differs).symm

end

/- The source of a new link is among the touched memories. -/

/- Every link goes between two that a link went between. -/
def Rejoins (before after : Tables) : Prop := ∀ link ∈ after.links, ∃ old ∈ before.links, keyOf old = keyOf link

theorem rejoinsBeside {before after : Tables} (beside : Beside before after) : Rejoins before after :=
  fun link member => ⟨link,beside.links ▸ member,rfl⟩

theorem rejoinsUpsert {link : MemoryLink} {t : Tables} {a after} (ran : upsertLink link t = .ok (a,after))
    {other} (member : other ∈ after.links) : (∃ old ∈ t.links, keyOf old = keyOf other) ∨ other.sourceId = link.sourceId := by
  unfold upsertLink at ran
  dsimp only at ran
  split at ran
  · cases ran
    obtain ⟨old,there,rfl⟩ := memUpdate.mp member
    refine .inl ⟨old,there,?_⟩
    split <;> rfl
  · split at ran <;> cases ran
    rcases List.mem_append.mp member with old | new
    · exact .inl ⟨other,old,rfl⟩
    · cases List.mem_singleton.mp new
      exact .inr rfl

variable (env) in
def Noticed (before : Tables) (work : Work) : Prop := ∀ link ∈ work.database.memory.links,
  (∃ old ∈ before.links, keyOf old = keyOf link) ∨
    link.sourceId ∈ work.touched ∧ canonicalId env link.sourceId = link.sourceId

section
variable {before : Tables}

theorem noticedRejoins : Closed port Rejoins (Noticed env before) := by
  intro work after start rejoins link member
  obtain ⟨old,there,same⟩ := rejoins link member
  rcases start old there with ⟨first,known,alike⟩ | ⟨touched,canonical⟩
  · exact .inl ⟨first,known,alike.trans same⟩
  · have source : old.sourceId = link.sourceId := congrArg Prod.fst same
    exact .inr (source ▸ ⟨touched,canonical⟩)

theorem noticedBeside : Closed port Beside (Noticed env before) :=
  fun work after start beside => noticedRejoins work after start (rejoinsBeside beside)

theorem noticedSame : Closed port Eq (Noticed env before) :=
  fun work after start same => noticedBeside work after start (same ▸ ⟨rfl,rfl⟩)

theorem noticedTouch (memoryIds : List String) : Ensures (Noticed env before) (touch memoryIds) fun _ => True :=
  ensuresAdjust fun _ start link member => (start link member).imp id fun noticed =>
    ⟨List.mem_append_left _ noticed.1,noticed.2⟩

theorem noticedOnTables {α : Type} {sql : Statement α} (allowed : Allows Rejoins sql) :
    Ensures (Noticed env before) (onTables port sql) fun _ => True := closedOnTables noticedRejoins allowed

theorem noticedUpdateMemory (memoryId : String) (changes : UpdateValues) :
    Ensures (Noticed env before) (updateMemory env config memoryId changes) fun _ => True := by
  refine ensuresBind (closedAccess env noticedSame _) fun memoryId _ =>
    ensuresBind (closedGetMemory env noticedSame _) fun found _ => ?_
  cases found with
  | none => exact ensuresRaise _
  | some existing =>
    exact ensuresBind (ensuresLift _) fun prepared _ => ensuresBind ensuresObserve fun now _ =>
      ensuresBind (noticedOnTables fun _ _ _ ran link member => by cases ran; exact ⟨link,member,rfl⟩) fun _ _ =>
      ensuresBind (closedReplaceWorkspaces noticedBeside (mapsBeside _) _) fun _ _ =>
      ensuresBind (closedReplaceTags noticedBeside (mapsBeside _) _) fun _ _ =>
      ensuresBind (noticedTouch _) fun _ _ => ensuresBind (framedFailStage config _) fun _ _ =>
      ensuresBind (closedReplaceFts noticedBeside (mapsBeside "").toTolerates _ _ _ _) fun _ _ =>
      ensuresBind (framedFailStage config _) fun _ _ => closedGetMemory env noticedSame _

theorem noticedCreateMemory (values : CreateValues) :
    Ensures (Noticed env before) (createMemory env config values) fun _ => True := by
  refine ensuresBind ensuresObserve fun now _ => ensuresBind (ensuresLift _) fun prepared _ =>
    ensuresBind (closedSelect noticedSame (fun _ => rfl) _) fun taken _ => ?_
  cases taken with
  | true => exact ensuresRaise _
  | false =>
    refine ensuresBind (closedSelect noticedSame (fun _ => rfl) _) fun nextRef _ =>
      ensuresBind (noticedOnTables fun t a after ran link member => ?_) fun _ _ =>
      ensuresBind (closedReplaceWorkspaces noticedBeside (mapsBeside _) _) fun _ _ =>
      ensuresBind (closedReplaceTags noticedBeside (mapsBeside _) _) fun _ _ =>
      ensuresBind (noticedTouch _) fun _ _ => ensuresBind (ensuresAdjust fun _ start => start) fun _ _ =>
      ensuresBind (framedFailStage config _) fun _ _ =>
      ensuresBind (closedReplaceFts noticedBeside (mapsBeside "").toTolerates _ _ _ _) fun _ _ =>
      ensuresBind (framedFailStage config _) fun _ _ => ensuresBind (closedGetMemory env noticedSame _) fun made _ => ?_
    · unfold insertMemory at ran
      repeat' split at ran
      all_goals first | cases ran; done | cases ran; exact ⟨link,member,rfl⟩
    · cases made with
      | none => exact ensuresRaise _
      | some record => exact ensuresPure trivial

theorem noticedFiltered {α : Type} {sql : Statement α} (fewer : ∀ t a after, sql t = .ok (a,after) →
    after.links ⊆ t.links) : Ensures (Noticed env before) (onTables port sql) fun _ => True :=
  noticedOnTables fun t a after ran link member => ⟨link,fewer t a after ran member,rfl⟩

theorem noticedDeleteMemory (memoryId : String) :
    Ensures (Noticed env before) (deleteMemory env config memoryId) fun _ => True := by
  refine ensuresBind (closedAccess env noticedSame _) fun memoryId _ =>
    ensuresBind (closedGetMemory env noticedSame _) fun found _ => ?_
  cases found with
  | none => exact ensuresRaise _
  | some existing =>
    exact ensuresBind (closedOnTables noticedBeside ((mapsBeside "").deleteSearchDocuments _)) fun _ _ =>
      ensuresBind (noticedFiltered fun _ _ _ ran => by cases ran; exact List.filter_subset_self _) fun _ _ =>
      ensuresBind (noticedTouch _) fun _ _ => ensuresBind (framedFailStage config _) fun _ _ => ensuresPure trivial

/- Between the write of the link and the note that its source was touched nothing can fail. -/
theorem noticedAddLink (sourceId targetId linkType context : String) :
    Ensures (Noticed env before) (addLink env config sourceId targetId linkType context) fun _ => True := by
  refine ensuresBind (closedAccess env noticedSame _) fun source named => ensuresBind (closedEndpoint env noticedSame _)
    fun target _ => ensuresBind (ensuresLift _) fun linkType _ oracle session start => ?_
  rw [bindRuns]
  rcases ran : onTables port (upsertLink ⟨source,target,linkType,strip context⟩) oracle session with ⟨error | _,middle⟩
  · have still := statementError ran
    exact ⟨still ▸ start,fun _ same => by cases same⟩
  · obtain ⟨changed,taken,here⟩ := onTablesOk ran
    refine (ensuresBind (framedFailStage config _) fun _ _ => ensuresPure trivial) oracle _ fun link member => ?_
    have member : link ∈ middle.data.database.memory.links := member
    rw [here] at member
    rcases rejoinsUpsert taken member with ⟨old,there,same⟩ | made
    · have source : old.sourceId = link.sourceId := congrArg Prod.fst same
      exact (start old there).imp (fun ⟨first,known,alike⟩ => ⟨first,known,alike.trans same⟩) fun noticed => by
        rw [← source]
        exact ⟨List.mem_append_left _ (here ▸ noticed.1),noticed.2⟩
    · refine .inr ⟨List.mem_append_right _ (by simp [made]),?_⟩
      rw [made,named]
      exact canonicalIdem env sourceId

theorem noticedRemoveLink (sourceId targetId linkType : String) :
    Ensures (Noticed env before) (removeLink env config sourceId targetId linkType) fun _ => True :=
  ensuresBind (closedAccess env noticedSame _) fun _ _ => ensuresBind (closedEndpoint env noticedSame _) fun _ _ =>
    ensuresBind (ensuresLift _) fun _ _ =>
    ensuresBind (noticedFiltered fun _ _ _ ran => by cases ran; exact List.filter_subset_self _) fun _ _ =>
    ensuresBind (noticedTouch _) fun _ _ => ensuresBind (framedFailStage config _) fun _ _ => ensuresPure trivial

theorem noticedPerform (command : Command) : Ensures (Noticed env before) (perform env config command) fun _ => True := by
  cases command with
  | getMemory memoryId => exact closedGetMemory env noticedSame memoryId
  | getLinks memoryId incoming linkType =>
    exact ensuresBind (closedAccess env noticedSame _) fun _ _ => ensuresBind (ensuresLift _) fun _ _ =>
      closedSelect noticedSame (fun _ => rfl) _
  | getProtections memoryId =>
    exact ensuresBind (closedAccess env noticedSame _) fun _ _ => ensuresSelect _
  | updateMemory memoryId changes => exact noticedUpdateMemory memoryId changes
  | createMemory values => exact noticedCreateMemory values
  | deleteMemory memoryId => exact noticedDeleteMemory memoryId
  | addLink sourceId targetId linkType context => exact noticedAddLink sourceId targetId linkType context
  | removeLink sourceId targetId linkType => exact noticedRemoveLink sourceId targetId linkType
  | setLineage memoryId lineage =>
    refine ensuresBind (closedGetMemory env noticedSame _) fun found _ => ?_
    cases found with
    | none => exact ensuresRaise _
    | some record => exact noticedUpdateMemory _ _

end

/- What an action writes about the links, beside its callback. -/

abbrev Linkage := List MemoryLink × List LinkRevision

def linkage (t : Tables) : Linkage := (t.links,t.linkRevisions)

def Unlinked (before after : Tables) : Prop := linkage after = linkage before

theorem unlinkedClosed (value : Linkage) : Closed port Unlinked fun work => linkage work.database.memory = value :=
  fun _ _ start same => same.trans start

theorem unlinkedRecordRevision (revision : RecordRevision) : Allows Unlinked (insertRecordRevision revision) :=
  fun t a after ran => by rw [insertRecordRevisionOk ran]; rfl

theorem linksWritten {eventId : String} {before after : List MemoryLink} {keys : List LinkKey} {oracle session ended}
    (ran : each (writeLinkRevision eventId before after) keys oracle session = (.ok (),ended)) :
    linkage ended.data.database.memory = (session.data.database.memory.links,
      session.data.database.memory.linkRevisions ++ keys.filterMap (linkRevision eventId before after)) := by
  induction keys generalizing session with
  | nil =>
    obtain ⟨_,rfl⟩ := pureOk.mp ran
    rw [List.filterMap_nil,List.append_nil]
    rfl
  | cons key rest ih =>
    obtain ⟨_,middle,first,ran⟩ := bindOk.mp ran
    have tail := ih ran
    rw [List.filterMap_cons]
    unfold writeLinkRevision at first
    split at first
    · rename_i unchanged
      have none : linkRevision eventId before after key = none := if_pos unchanged
      obtain ⟨_,rfl⟩ := pureOk.mp first
      rw [none,tail]
    · rename_i changed
      obtain ⟨t,taken,here⟩ := onTablesOk first
      have some : linkRevision eventId before after key = _ := if_neg changed
      rw [some,tail,here,insertLinkRevisionOk taken]
      simp only [port,List.append_assoc,List.singleton_append]
      rfl

theorem historyWritten {eventId operation : String} {request : Request} {run : Option Run} {before after : Records}
    {beforeLinks afterLinks : List MemoryLink} {oracle session ended} (ran : writeHistory env eventId request run
      operation before after beforeLinks afterLinks oracle session = (.ok (),ended)) :
    linkage ended.data.database.memory = (session.data.database.memory.links,
      session.data.database.memory.linkRevisions ++ linkRevisions eventId beforeLinks afterLinks) := by
  unfold writeHistory at ran
  obtain ⟨_,_,first,ran⟩ := bindOk.mp ran
  obtain ⟨_,rfl⟩ := liftOk.mp first
  obtain ⟨_,_,second,ran⟩ := bindOk.mp ran
  obtain ⟨_,rfl⟩ := liftOk.mp second
  obtain ⟨now,timed,observed,ran⟩ := bindOk.mp ran
  obtain ⟨_,eventful,inserted,ran⟩ := bindOk.mp ran
  obtain ⟨_,noted,wrote,ran⟩ := bindOk.mp ran
  have begun : linkage eventful.data.database.memory = linkage session.data.database.memory := by
    obtain ⟨changed,taken,here⟩ := onTablesOk inserted
    rw [here,insertEventOk taken,← (observeOk.mp observed).2]
    rfl
  have held := ((ensuresEach fun memoryId _ => closedWriteRecordRevision (unlinkedClosed _) unlinkedRecordRevision _ _ _ _
    memoryId).kept wrote begun).1
  simp only [linkage,Prod.mk.injEq] at held
  rw [linksWritten ran,held.1,held.2]
  rfl

variable {start : Work}

/- The callback starts from the memory as it was; what it leaves is what the history is written of. -/
theorem linkedApplyAction {inv : Work → Prop} {request p callback oracle}
    (plays : ∀ session result after, callback.play (perform env config) oracle session = (.ok result,after) →
      Started start session.data → inv after.data) {session receipt ended}
    (run : applyAction env config request p callback oracle session = (.ok receipt,ended))
    (begun : Started start session.data) :
    ∃ result middle eventId, upToCallback env config request p callback oracle session = (.ok result,middle) ∧
      inv middle.data ∧ linkage ended.data.database.memory = (middle.data.database.memory.links,
        start.database.memory.linkRevisions ++ linkRevisions eventId (linksOf p.targets start.database.memory)
          (linksOf (reachedIds env p middle.data) middle.data.database.memory)) := by
  obtain ⟨applies⟩ := applyActionRuns run begun
  have reached : applies.afterIds = reachedIds env p applies.returned.data := by
    have canonical := applies.touched
    unfold canonicalTargetIds at canonical
    dsimp only at canonical
    split at canonical
    · cases canonical
    · exact (Except.ok.inj canonical).symm
  have earlier := congrArg (·.2.2) applies.unwritten
  refine ⟨applies.result,applies.returned,applies.eventId,applies.upTo,plays _ _ _ applies.plays applies.begun,?_⟩
  rw [applies.last,historyWritten applies.writes,applies.beside.links,← reached]
  exact congrArg (fun rows => (_,rows ++ _)) earlier

/- A first execution that answers has played its callback once. -/
theorem linkedTransaction {inv : Work → Prop} {attempt : Attempt} {p database receipt after}
    (plays : ∀ session result after, attempt.callback.play (perform env attempt.config) attempt.oracle session =
      (.ok result,after) → Started ⟨database,p.targets,[],[]⟩ session.data → inv after.data)
    (first : getReceipt attempt.request.runId attempt.request.actionId database.curation = none)
    (run : runTransaction env attempt p database = (.ok receipt,after)) :
    inv (played env attempt p database) ∧ ∃ eventId, linkage after.memory =
      ((played env attempt p database).database.memory.links,database.memory.linkRevisions ++ linkRevisions eventId
        (linksOf p.targets database.memory) (linksOf (reachedIds env p (played env attempt p database))
          (played env attempt p database).database.memory)) := by
  unfold runTransaction at run
  simp only [Prod.mk.injEq] at run
  rcases ended : transaction (body env attempt.config attempt.request p attempt.callback) attempt.oracle
    ⟨database,p.targets,[],[]⟩ with ⟨answer,work⟩
  rw [ended] at run
  cases answer with
  | error raised => cases run.1
  | ok stored =>
    rw [← run.2]
    unfold transaction at ended
    split at ended
    · rename_i value session taken
      split at ended <;> cases ended
      obtain ⟨_,hooked,hooking,ran⟩ := bindOk.mp taken
      unfold body at ran
      obtain ⟨existing,looked,looking,ran⟩ := bindOk.mp ran
      have begun : Started ⟨database,p.targets,[],[]⟩ looked.data := by
        rw [← (selectOk looking).2,← (selectOk hooking).2]
        exact startedSelf
      cases existing with
      | some existing =>
        obtain ⟨_,_,_,ran⟩ := bindOk.mp ran
        cases (pureOk.mp ran).1
      | none =>
        obtain ⟨made,mutated,changed,ran⟩ := bindOk.mp ran
        obtain ⟨_,inserted,insertion,ran⟩ := bindOk.mp ran
        obtain ⟨_,staged,stage,ran⟩ := bindOk.mp ran
        obtain ⟨_,rfl⟩ := pureOk.mp ran
        obtain ⟨result,middle,eventId,ran,held,wrote⟩ := linkedApplyAction plays changed begun
        have whole : firstPlay env attempt p attempt.oracle ⟨⟨database,p.targets,[],[]⟩,0⟩ = (.ok result,middle) :=
          bindOk.mpr ⟨_,_,hooking,bindOk.mpr ⟨_,_,looking,ran⟩⟩
        have last : staged.data = inserted.data := ((@framedFailStage attempt.config (· = inserted.data) _).kept stage rfl).1
        rw [played,whole,last,(insertReceiptOk insertion).2]
        exact ⟨held,eventId,wrote⟩
    · rename_i value session taken
      obtain ⟨_,hooked,hooking,ran⟩ := bindOk.mp taken
      have replayed := bodyReplayed env attempt.config ran
      rw [← (selectOk hooking).2,first] at replayed
      cases replayed.1
    · cases ended

section
variable {request : Request} {p : Prepared} {before : Tables} {work : Work}

theorem reachedMember {memoryId : String} (listed : memoryId ∈ p.targets ++ work.touched)
    (canonical : canonicalId env memoryId = memoryId) : memoryId ∈ reachedIds env p work :=
  memSortedSet.mpr (List.mem_map.mpr ⟨memoryId,listed,canonical⟩)

/- The links that leave a memory decide the rows of their keys. -/
theorem linkAtSource (links : List MemoryLink) (key : LinkKey) :
    linkAt links key = linkAt (links.filter (·.sourceId == key.1)) key := by
  unfold linkAt
  rw [List.find?_filter]
  refine List.find?_congr fun link _ => ?_
  by_cases same : keyOf link = key
  · subst same
    simp [keyOf]
  · simp [same]

theorem keptBegun {database : Database} (begun : Started ⟨database,p.targets,[],[]⟩ work) :
    Kept p database.memory work := by
  obtain ⟨ledger,receipts,rfl⟩ := begun
  exact keptFrame.toAside.ledger _ ledger receipts keptStart

theorem keptAt (kept : Kept p before work) {key : LinkKey} (apart : ¬ Free p before key.1) :
    linkAt work.database.memory.links key = linkAt before.links key := by
  have same := congrArg Portrait.links (kept.outline _ apart)
  simp only [outline] at same
  rw [linkAtSource,same,← linkAtSource]

theorem playedFollowed (schema : Schema before) (prepared : prepare env request = .ok p) (kept : Kept p before work)
    (noticed : Noticed env before work) :
    Followed p.targets (reachedIds env p work) before.links work.database.memory.links where
  within memoryId target := by
    obtain ⟨given,_,same⟩ := (preparedTargets env prepared).mp target
    exact reachedMember (List.mem_append_left _ target) (by rw [← same,canonicalIdem])
  changed key link found differs := by
    by_contra apart
    have named := linkAtKey found
    have there := schema.sources link (List.mem_of_find?_eq_some found)
    have bound : ¬ Free p before key.1 := by
      rw [← named] at apart ⊢
      rintro (target | absent)
      · exact apart target
      · exact Bool.false_ne_true (absent.symm.trans there)
    exact differs ((keptAt kept bound).trans found)
  created key link absent found := by
    have named := linkAtKey found
    subst named
    rcases noticed link (List.mem_of_find?_eq_some found) with ⟨old,member,same⟩ | ⟨touched,canonical⟩
    · exact absurd same (linkAtNone.mp absent old member)
    · exact reachedMember (List.mem_append_right _ touched) canonical

end

/- The history of a committed action is exact where its callback is traceable by it. -/
theorem linkHistoryExact {attempt : Attempt} {p database receipt after} (schema : Schema database.memory)
    (prepared : prepare env attempt.request = .ok p)
    (first : getReceipt attempt.request.runId attempt.request.actionId database.curation = none)
    (run : runTransaction env attempt p database = (.ok receipt,after)) :
    LinkHistory database.memory.links after.memory.links (addedRevisions database.memory after.memory) ↔
      Traceable p.targets (reachedIds env p (played env attempt p database)) database.memory.links
        (played env attempt p database).database.memory.links := by
  obtain ⟨⟨kept,noticed⟩,eventId,wrote⟩ := @linkedTransaction env (fun work => Kept p database.memory work ∧
    Noticed env database.memory work) attempt p database receipt after (fun session result ended ran begun => by
      have same := startedTables begun
      exact ⟨((ensuresPlay (fun command => framedPerform env attempt.config keptFrame.guarded command
          (.inr fun _ => trivial)) attempt.callback).kept ran (keptBegun begun)).1,
        ((ensuresPlay noticedPerform attempt.callback).kept ran fun link member =>
          .inl ⟨link,same.1 ▸ member,rfl⟩).1⟩) first run
  simp only [linkage,Prod.mk.injEq] at wrote
  have added : addedRevisions database.memory after.memory = linkRevisions eventId (linksOf p.targets database.memory)
      (linksOf (reachedIds env p (played env attempt p database)) (played env attempt p database).database.memory) := by
    rw [addedRevisions,wrote.2,List.drop_left]
  have followed := playedFollowed schema prepared kept noticed
  rw [added,wrote.1]
  exact ⟨historyTraces followed,tracesHistory followed⟩

/- Each link can be looked at by itself. -/
theorem traceableEach {targets reached : List String} {before after : List MemoryLink} (every : ∀ link ∈ before,
    linkAt after (keyOf link) = some link ∧ (touches reached link → touches targets link) ∨
      linkAt after (keyOf link) = none ∧ link.context = "") : Traceable targets reached before after := by
  intro key link found
  have named := linkAtKey found
  subst named
  exact every link (List.mem_of_find?_eq_some found)

def digestEnv : Env := ⟨⟨ascii,fun _ => "digest"⟩,fun title _ _ => title⟩

theorem answered {attempt : Attempt} {p database} (done : (runTransaction env attempt p database).1.isOk) :
    ∃ receipt, runTransaction env attempt p database = (.ok receipt,(runTransaction env attempt p database).2) := by
  cases ran : runTransaction env attempt p database with
  | mk answer after =>
    rw [ran] at done
    cases answer with
    | error raised => cases done
    | ok receipt => exact ⟨receipt,rfl⟩

/- What the transaction of an attempt leaves. -/
def leftBy (attempt : Attempt) (p : Prepared) (database : Database) : Tables :=
  (runTransaction digestEnv attempt p database).2.memory

def forgottenNotes : Tables := leftBy forgetting ⟨[firstId],[],"forget"⟩ linkedNotes

/- The first memory goes, and with it a link that says nothing; the link back to it stays. -/
theorem linkHistorySample :
    LinkHistory linkedNotes.memory.links forgottenNotes.links (addedRevisions linkedNotes.memory forgottenNotes) ∧
      (addedRevisions linkedNotes.memory forgottenNotes).map revisionKey = [(firstId,secondId,"NEXT")] := by
  have schema : Schema linkedNotes.memory := ⟨by decide,by decide,by decide⟩
  have prepared : prepare digestEnv forgetting.request = .ok ⟨[firstId],[],"forget"⟩ := rfl
  obtain ⟨receipt,ran⟩ := @answered digestEnv forgetting ⟨[firstId],[],"forget"⟩ linkedNotes (by decide +kernel)
  have traceable : Traceable [firstId] (reachedIds digestEnv ⟨[firstId],[],"forget"⟩ (played digestEnv forgetting
      ⟨[firstId],[],"forget"⟩ linkedNotes)) linkedNotes.memory.links (played digestEnv forgetting
      ⟨[firstId],[],"forget"⟩ linkedNotes).database.memory.links := traceableEach (by decide +kernel)
  have named : (addedRevisions linkedNotes.memory forgottenNotes).map revisionKey = [(firstId,secondId,"NEXT")] := by
    decide +kernel
  unfold forgottenNotes leftBy at named ⊢
  exact ⟨(linkHistoryExact schema prepared rfl ran).mpr traceable,named⟩

/- A run that removes a link with a context. -/

def explainedNotes : Database := { linkedNotes with
  memory := { linkedNotes.memory with links := [⟨firstId,secondId,"NEXT","because"⟩] } }

def unlink : Callback := .call (.removeLink firstId secondId "NEXT") fun _ => .done (some ⟨"remove_link",[],none⟩)

def unlinking : Attempt := { forgetting with
  request := { forgetting.request with targetIds := [firstId,secondId], operation := some "remove_link" }
  callback := unlink }

theorem unlinkPrepared : prepare digestEnv unlinking.request = .ok ⟨[firstId,secondId],[],"remove_link"⟩ := by
  have targets : canonicalTargetIds digestEnv unlinking.request.targetIds = .ok [firstId,secondId] := by decide +kernel
  have stripped : strip "remove_link" = "remove_link" := by decide +kernel
  have given := prepareGiven digestEnv targets (List.cons_ne_nil _ _) (by decide +kernel)
    (show unlinking.request.operation = some "remove_link" from rfl) (by rw [stripped]; decide)
  rw [given,stripped]
  rfl

/- A run that adds a link to a paper that another memory cites. -/

def paper : String := "ext:paper.md"

def citedPaper : Database := { linkedNotes with
  memory := { linkedNotes.memory with links := [⟨secondId,paper,"CITES","source"⟩] } }

def cite : Callback := .call (.addLink firstId paper "CITES" "") fun _ => .done (some ⟨"create_link",[],none⟩)

def citing : Attempt := { forgetting with
  request := { forgetting.request with operation := some "create_link" }, callback := cite }

def unlinkedNotes : Tables := leftBy unlinking ⟨[firstId,secondId],[],"remove_link"⟩ explainedNotes

def twiceCited : Tables := leftBy citing ⟨[firstId],[],"create_link"⟩ citedPaper

/- The revision of the removed link has no context, so undoing it makes another link; and the other
memory's link looks as if the action had made it, so undoing it takes that link away. -/
theorem linkHistoryLost :
    prepare digestEnv unlinking.request = .ok ⟨[firstId,secondId],[],"remove_link"⟩ ∧
      (runTransaction digestEnv unlinking ⟨[firstId,secondId],[],"remove_link"⟩ explainedNotes).1.isOk ∧
      ¬ LinkHistory explainedNotes.memory.links unlinkedNotes.links (addedRevisions explainedNotes.memory unlinkedNotes) ∧
    prepare digestEnv citing.request = .ok ⟨[firstId],[],"create_link"⟩ ∧
      (runTransaction digestEnv citing ⟨[firstId],[],"create_link"⟩ citedPaper).1.isOk ∧
      ¬ LinkHistory citedPaper.memory.links twiceCited.links (addedRevisions citedPaper.memory twiceCited) := by
  have lost : linkAt (undoLinks (addedRevisions explainedNotes.memory unlinkedNotes) unlinkedNotes.links)
      (firstId,secondId,"NEXT") ≠ linkAt explainedNotes.memory.links (firstId,secondId,"NEXT") := by decide +kernel
  have taken : linkAt (undoLinks (addedRevisions citedPaper.memory twiceCited) twiceCited.links)
      (secondId,paper,"CITES") ≠ linkAt citedPaper.memory.links (secondId,paper,"CITES") := by decide +kernel
  refine ⟨unlinkPrepared,by decide +kernel,?_,rfl,by decide +kernel,?_⟩
  · exact fun history => lost (history.undone _)
  · exact fun history => taken (history.undone _)

end McpMemory.Curation
