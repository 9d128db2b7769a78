import McpMemory.Journal.Store

/-! Claims on journal entries. The status and the claim column move together, a
claim passes from one task to another only through an unclaimed state, and a
thought leaves the table only through a purge after it was made recoverable. -/
namespace McpMemory.Journal
open Interleave Table

/- The status is `claimed` exactly when a task holds the entry. -/
def Entry.consistent (entry : Entry) : Prop := entry.status = .claimed ↔ entry.claimTaskId.isSome

/- What any step may do to one entry that it keeps. -/
structure Follows (entry later : Entry) : Prop where
  id : later.id = entry.id
  content : later.content = entry.content
  workspaceId : later.workspaceId = entry.workspaceId
  timestamp : later.timestamp = entry.timestamp
  claim : entry.status = .claimed → later.claimTaskId = entry.claimTaskId ∨ later.claimTaskId = none

theorem Follows.refl (entry : Entry) : Follows entry entry := ⟨rfl,rfl,rfl,rfl,fun _ => .inl rfl⟩

structure Rewrites (entry later : Entry) : Prop where
  follows : Follows entry later
  consistent : later.consistent

theorem claimRewrites {ids taskId now} {entry : Entry} (selected : isPendingIn ids entry) :
    Rewrites entry (claimSet taskId now entry) := by
  simp only [isPendingIn,Bool.and_eq_true,beq_iff_eq] at selected
  refine ⟨⟨rfl,rfl,rfl,rfl,?_⟩,by simp [Entry.consistent,claimSet]⟩
  intro claimed
  rw [claimed] at selected
  cases selected.2

theorem unclaimRewrites (u : Unclaim) (entry : Entry) : Rewrites entry (u.set entry) := by
  cases u <;> exact ⟨⟨rfl,rfl,rfl,rfl,fun _ => .inr rfl⟩,by simp [Entry.consistent,Unclaim.set]⟩

theorem markRewrites (m : Mark) (entry : Entry) : Rewrites entry (m.set entry) := by
  cases m <;> exact ⟨⟨rfl,rfl,rfl,rfl,fun _ => .inr rfl⟩,by simp [Entry.consistent,Mark.set]⟩

/- Everything one step can do to the table. -/
inductive Change (call : Call) (before : Store) : Store → List Emitted → Prop where
  | quiet : Change call before before []
  | insert {content workspaceId timestamp} (here : call = .inserting content workspaceId timestamp) :
      Change call before (insertEntry content workspaceId timestamp before)
        [.recorded (newEntry content workspaceId timestamp before)]
  | rewrite {selected set emitted}
      (rows : ∀ entry ∈ before.entries, selected entry → Rewrites entry (set entry))
      (moves : ∀ entry ∈ before.entries, selected entry → (set entry).status = .recoverable →
        .moved entry.id ∈ emitted)
      (only : ∀ event ∈ emitted, ∃ id, event = Emitted.moved id) :
      Change call before { before with entries := update selected set before.entries } emitted
  | purge {ids} (here : call = .purging ids) :
      Change call before (purge ids before) ((selectedIds (isRecoverableIn ids) before).map .purged)

theorem memSelectedIds {selected store} {entry : Entry} (member : entry ∈ store.entries)
    (hit : selected entry) : entry.id ∈ selectedIds selected store :=
  List.mem_map.mpr ⟨entry,List.mem_filter.mpr ⟨member,hit⟩,rfl⟩

theorem claimPendingSource {taskId limit workspace now store rows after}
    (ok : claimPending taskId limit workspace now store = .ok (rows,after)) :
    after = store ∨ after = { store with
      entries := update (isPendingIn (rows.map (·.id))) (claimSet taskId now) store.entries } := by
  unfold claimPending at ok
  dsimp only at ok
  split at ok
  · cases ok; exact .inl rfl
  · split at ok
    · cases ok; exact .inr rfl
    · cases ok

theorem stepChange (call : Call) (store : Store) :
    Change call store (step call store).2.1 (step call store).2.2 := by
  cases call with
  | record content workspaceId timestamp =>
    simp only [step]
    split
    · exact .quiet
    · split <;> exact .quiet
  | inserting => exact .insert rfl
  | claimPending taskId limit workspace now =>
    simp only [step]
    split
    · exact .quiet
    · split
      · exact .quiet
      · rename_i rows after ok
        rcases claimPendingSource ok with rfl | rfl
        · exact .quiet
        · refine .rewrite (fun entry _ hit => claimRewrites hit) ?_ (fun _ none => by cases none)
          intro entry _ _ recoverable
          cases recoverable
  | unclaimAll u taskId => simp only [step]; split <;> exact .quiet
  | unclaim u taskId entryIds => simp only [step]; split <;> exact .quiet
  | unclaiming u taskId ids =>
    refine .rewrite (fun entry _ _ => unclaimRewrites u entry) ?_ ?_
    · intro entry member hit recoverable
      cases u with
      | release => cases recoverable
      | moveToRecoverable => exact List.mem_map.mpr ⟨_,memSelectedIds member hit,rfl⟩
    · intro event member
      cases u with
      | release => cases member
      | moveToRecoverable =>
        obtain ⟨id,_,rfl⟩ := List.mem_map.mp member
        exact ⟨id,rfl⟩
  | releaseOrphanedClaims running => simp only [step]; split <;> exact .quiet
  | releasingOrphans ids =>
    refine .rewrite (fun entry _ _ => unclaimRewrites .release entry) ?_ (fun _ none => by cases none)
    intro entry _ _ recoverable
    cases recoverable
  | purgeExpiredRecoverable now => simp only [step]; split <;> exact .quiet
  | purging ids => exact .purge rfl
  | mark m entryIds =>
    simp only [step]
    split
    · exact .quiet
    · refine .rewrite (fun entry _ _ => markRewrites m entry) ?_ (fun _ none => by cases none)
      intro entry _ _ recoverable
      cases m <;> cases recoverable
  | answered => exact .quiet

/- The thought of an id that was recorded is in the table, or was purged after it
was made recoverable. -/
def Accounted (store : Store) (trace : List Emitted) (entry : Entry) : Prop :=
  (∃ later ∈ store.entries, later.id = entry.id ∧ later.content = entry.content ∧
    later.workspaceId = entry.workspaceId ∧ later.timestamp = entry.timestamp) ∨
  ∃ newer older, trace = newer ++ .purged entry.id :: older ∧ .moved entry.id ∈ older

structure Sound (store : Store) (trace : List Emitted) : Prop where
  unique : UniqueBy (·.id) store.entries
  bounded : ∀ entry ∈ store.entries, entry.id ≤ store.sequence
  consistent : ∀ entry ∈ store.entries, entry.consistent
  moved : ∀ entry ∈ store.entries, entry.status = .recoverable → .moved entry.id ∈ trace
  accounted : ∀ entry, .recorded entry ∈ trace → Accounted store trace entry

/- What becomes of one entry in one step. -/
theorem changeFollows {call before after emitted} (change : Change call before after emitted)
    {entry} (member : entry ∈ before.entries) : (∃ later ∈ after.entries, Follows entry later) ∨
      ∃ ids, call = .purging ids ∧ isRecoverableIn ids entry ∧ .purged entry.id ∈ emitted := by
  cases change with
  | quiet => exact .inl ⟨entry,member,.refl entry⟩
  | insert => exact .inl ⟨entry,List.mem_append_left _ member,.refl entry⟩
  | rewrite rows =>
    refine .inl ⟨_,memUpdate.mpr ⟨entry,member,rfl⟩,?_⟩
    split
    · rename_i hit; exact (rows entry member hit).follows
    · exact .refl entry
  | @purge ids here =>
    cases hit : isRecoverableIn ids entry with
    | false => exact .inl ⟨entry,List.mem_filter.mpr ⟨member,by simp [hit]⟩,.refl entry⟩
    | true => exact .inr ⟨ids,here,hit,List.mem_map.mpr ⟨_,memSelectedIds member hit,rfl⟩⟩

/- Where an entry comes from. -/
theorem changeOrigin {call before after emitted} (change : Change call before after emitted)
    {later} (member : later ∈ after.entries) :
    (∃ entry ∈ before.entries, Follows entry later ∧ (later = entry ∨ later.consistent ∧
      (later.status = .recoverable → .moved later.id ∈ emitted))) ∨
    ∃ content workspaceId timestamp, call = .inserting content workspaceId timestamp ∧
      later = newEntry content workspaceId timestamp before := by
  cases change with
  | quiet => exact .inl ⟨later,member,.refl later,.inl rfl⟩
  | insert here =>
    rcases List.mem_append.mp member with old | new
    · exact .inl ⟨later,old,.refl later,.inl rfl⟩
    · exact .inr ⟨_,_,_,here,List.mem_singleton.mp new⟩
  | @rewrite selected set emitted rows moves =>
    obtain ⟨entry,old,rfl⟩ := memUpdate.mp member
    by_cases hit : selected entry
    · simp only [if_pos hit]
      have kept := rows entry old hit
      refine .inl ⟨entry,old,kept.follows,.inr ⟨kept.consistent,fun recoverable => ?_⟩⟩
      rw [kept.follows.id]
      exact moves entry old hit recoverable
    · simp only [if_neg hit]
      exact .inl ⟨entry,old,.refl entry,.inl rfl⟩
  | purge => exact .inl ⟨later,(List.mem_filter.mp member).1,.refl later,.inl rfl⟩

theorem changeUnique {call before after emitted} (change : Change call before after emitted)
    (unique : UniqueBy (·.id) before.entries) (bounded : ∀ entry ∈ before.entries, entry.id ≤ before.sequence) :
    UniqueBy (·.id) after.entries := by
  cases change with
  | quiet => exact unique
  | insert =>
    refine insertUnique (fun entry member same => ?_) unique
    have le := bounded entry member
    simp only [newEntry] at same
    omega
  | rewrite rows => exact updateUnique (fun entry member hit => (rows entry member hit).follows.id) unique
  | purge => exact (unique.sublist ((List.filter_sublist).map _))

theorem changeBounded {call before after emitted} (change : Change call before after emitted)
    (bounded : ∀ entry ∈ before.entries, entry.id ≤ before.sequence) :
    ∀ entry ∈ after.entries, entry.id ≤ after.sequence := by
  intro later member
  cases change with
  | quiet => exact bounded later member
  | insert =>
    rcases List.mem_append.mp member with old | new
    · exact Int.le_trans (bounded later old) (Int.le_of_lt (Int.lt_succ _))
    · rw [List.mem_singleton.mp new]; exact Int.le_refl _
  | rewrite rows =>
    obtain ⟨entry,old,rfl⟩ := memUpdate.mp member
    split
    · rename_i hit; rw [(rows entry old hit).follows.id]; exact bounded entry old
    · exact bounded entry old
  | purge => exact bounded later (List.mem_filter.mp member).1

theorem changeAccounted {call before after emitted trace} (change : Change call before after emitted)
    (sound : Sound before trace) {entry} (was : Accounted before trace entry) :
    Accounted after (emitted ++ trace) entry := by
  rcases was with ⟨row,member,same⟩ | ⟨newer,older,shape,moved⟩
  · rcases changeFollows change member with ⟨later,present,follows⟩ | ⟨ids,_,hit,purged⟩
    · exact .inl ⟨later,present,follows.id.trans same.1,follows.content.trans same.2.1,
        follows.workspaceId.trans same.2.2.1,follows.timestamp.trans same.2.2.2⟩
    · simp only [isRecoverableIn,Bool.and_eq_true,beq_iff_eq] at hit
      have moved := sound.moved row member hit.2
      obtain ⟨newer,older,shape⟩ := List.append_of_mem purged
      rw [same.1] at moved shape
      exact .inr ⟨newer,older ++ trace,by simp [shape],List.mem_append_right _ moved⟩
  · exact .inr ⟨emitted ++ newer,older,by simp [shape],moved⟩

theorem changeSound {call before after emitted trace} (change : Change call before after emitted)
    (sound : Sound before trace) : Sound after (emitted ++ trace) where
  unique := changeUnique change sound.unique sound.bounded
  bounded := changeBounded change sound.bounded
  consistent := by
    intro later member
    rcases changeOrigin change member with ⟨entry,old,_,rfl | ⟨consistent,_⟩⟩ | ⟨_,_,_,_,rfl⟩
    · exact sound.consistent later old
    · exact consistent
    · simp [Entry.consistent,newEntry]
  moved := by
    intro later member recoverable
    rcases changeOrigin change member with ⟨entry,old,_,rfl | ⟨_,moves⟩⟩ | ⟨_,_,_,_,rfl⟩
    · exact List.mem_append_right _ (sound.moved later old recoverable)
    · exact List.mem_append_left _ (moves recoverable)
    · cases recoverable
  accounted := by
    intro entry logged
    rcases List.mem_append.mp logged with new | old
    · cases change with
      | insert =>
        rw [List.mem_singleton] at new
        cases new
        exact .inl ⟨_,List.mem_append_right _ (List.mem_singleton.mpr rfl),rfl,rfl,rfl,rfl⟩
      | quiet => cases new
      | rewrite _ _ only => obtain ⟨id,same⟩ := only _ new; cases same
      | purge => obtain ⟨id,_,same⟩ := List.mem_map.mp new; cases same
    · exact changeAccounted change sound (sound.accounted entry old)

theorem reachedSound (events : Schedule) : Sound (reached events).store (reached events).trace :=
  runKeeps (fun call store _ sound => changeSound (stepChange call store) sound) events
    ⟨List.nodup_nil,by simp [empty],by simp [empty],by simp [empty],by simp⟩

theorem changePositive {call before after emitted} (change : Change call before after emitted)
    (counted : 0 ≤ before.sequence) (positive : ∀ entry ∈ before.entries, 0 < entry.id) :
    0 ≤ after.sequence ∧ ∀ entry ∈ after.entries, 0 < entry.id := by
  refine ⟨?_,fun later member => ?_⟩
  · cases change with
    | insert => exact Int.le_trans counted (Int.le_of_lt (Int.lt_succ _))
    | quiet | rewrite | purge => exact counted
  · rcases changeOrigin change member with ⟨entry,old,follows,_⟩ | ⟨_,_,_,_,rfl⟩
    · rw [follows.id]
      exact positive entry old
    · exact Int.lt_of_le_of_lt counted (Int.lt_succ _)

/- AUTOINCREMENT counts from one. -/
theorem reachedPositive (events : Schedule) : ∀ entry ∈ (reached events).store.entries, 0 < entry.id :=
  (@runKeeps _ _ _ _ journal (fun store _ => 0 ≤ store.sequence ∧ ∀ entry ∈ store.entries, 0 < entry.id)
    (fun call store _ held => changePositive (stepChange call store) held.1 held.2) empty events
    ⟨Int.le_refl 0,fun _ member => absurd member List.not_mem_nil⟩).2

/- In every reachable state ids are unique, an entry is claimed exactly when one task
holds it, and every thought ever recorded is there or was purged after it became
recoverable. The next step of any call keeps every entry, its id and its thought,
with its claim unchanged or ended, except a purge, which drops recoverable entries
only; and nothing but `record` adds one. -/
theorem journalClaims (events : Schedule) :
    UniqueBy (·.id) (reached events).store.entries ∧
    (∀ entry ∈ (reached events).store.entries, entry.status = .claimed ↔ entry.claimTaskId.isSome) ∧
    (∀ entry, .recorded entry ∈ (reached events).trace →
      Accounted (reached events).store (reached events).trace entry) ∧
    ∀ call : Call,
      (∀ entry ∈ (reached events).store.entries,
        (∃ later ∈ (step call (reached events).store).2.1.entries, Follows entry later) ∨
        ∃ ids, call = .purging ids ∧ entry.id ∈ ids ∧ entry.status = .recoverable ∧
          .moved entry.id ∈ (reached events).trace) ∧
      ∀ later ∈ (step call (reached events).store).2.1.entries,
        (∃ entry ∈ (reached events).store.entries, Follows entry later) ∨
        ∃ content workspaceId timestamp, call = .inserting content workspaceId timestamp ∧
          later = newEntry content workspaceId timestamp (reached events).store := by
  have sound := reachedSound events
  refine ⟨sound.unique,sound.consistent,sound.accounted,fun call => ⟨?_,?_⟩⟩
  · intro entry member
    rcases changeFollows (stepChange call _) member with kept | ⟨ids,here,hit,_⟩
    · exact .inl kept
    · simp only [isRecoverableIn,Bool.and_eq_true,List.contains_iff_mem,beq_iff_eq] at hit
      exact .inr ⟨ids,here,hit.1,hit.2,sound.moved entry member hit.2⟩
  · intro later member
    rcases changeOrigin (stepChange call _) member with ⟨entry,old,follows,_⟩ | new
    · exact .inl ⟨entry,old,follows⟩
    · exact .inr new

end McpMemory.Journal
