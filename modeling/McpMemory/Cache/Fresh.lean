import McpMemory.Cache.Provenance

/-! Fresh hits of the search cache. A search reads first and captures the epochs for its row later,
so a row is as old as its epochs say only where they had not moved in between. -/
namespace McpMemory.Cache
open Epochs Interleave Memory Reading

/- The epochs are still those of all that was read. -/
def Unmoved (seen : List Repository) (epochs : SearchEpochs) : Prop := ∀ state ∈ seen, getSearchEpochs state = epochs

instance (seen : List Repository) (epochs : SearchEpochs) : Decidable (Unmoved seen epochs) :=
  inferInstanceAs (Decidable (∀ state ∈ seen, getSearchEpochs state = epochs))

/- Results that a search gave, of the key that was asked for, over states with the epochs and the
rows of the one that was checked. -/
structure Current (env : CacheEnv) (trace : List Emitted) (checked : Repository) (search : Search)
    (results : List SearchResult) (computed : Search) (found : List Found) (seen : List Repository) : Prop where
  event : .computed computed found seen ∈ trace
  results : results = found.map searchResultPayloadCompact
  key : searchCacheKey env.sha256 (buildSearchCacheRequest computed) ∈ searchKeys env.sha256 (buildSearchCacheRequest search)
  answer : (env.search computed).after seen = .done (.ok found)
  epochs : ∀ state ∈ seen, getSearchEpochs state = getSearchEpochs checked
  rows : ∀ state ∈ seen, state.counted.rows = checked.counted.rows

section
variable {env : CacheEnv} {trace : List Emitted} {checked : Repository} {search : Search} {results : List SearchResult}

theorem servedCurrent (served : Served env Unmoved trace (.fresh checked) search results) :
    ∃ computed found seen, Current env trace checked search results computed found seen := by
  obtain ⟨key,listed,computed,found,seen,made,unmoved,past⟩ := served
  refine ⟨computed,found,seen,made.event,made.results,made.key.symm ▸ listed,made.answer,unmoved,fun state member => ?_⟩
  exact ((past state member).still (epochsCounts.mp (unmoved state member)).symm).symm

theorem freshCurrent {repository : Repository} {reads : List ReadRow} {events : List (Event Op)}
    (meets : Meets (cached env) (Capturing Unmoved) (idle (unused repository reads)) events)
    (served : .served (.fresh checked) search results ∈ ((cached env).run (idle (unused repository reads)) events).trace) :
    ∃ computed found seen,
      Current env ((cached env).run (idle (unused repository reads)) events).trace checked search results computed found seen :=
  servedCurrent ((runSound meets).served _ _ _ served)

end

/- A search for all that there is, before and after a first memory is written. -/

def listing : CacheEnv := ⟨fun _ => "digest",fun _ => see fun r =>
  .ok (r.memories.map fun row => ⟨row.id,none,row.title,"",row.status,none,none⟩)⟩

def anything : Asking := ⟨⟨"anything",none,10,true,none,none,[],false,.hybrid,none,none⟩,1,1,1⟩

def emptyRepository : Repository := ⟨⟨fun _ => [],fun _ => 0⟩,[]⟩

def firstMemory : Write :=
  .row (.insert .memories (⟨"m",some 1,"first","written meanwhile",some "first","fact","active","t0","t0",none,[]⟩ : MemoryRow))

def repeatedSearch : List (Event Op) :=
  [.start (.search anything)] ++ List.replicate 9 (.advance 0) ++ [.start (.search anything)] ++ List.replicate 3 (.advance 1)

/- The write is between the reading of the first search and its look at the epochs. -/
def lateSearch : List (Event Op) :=
  [.start (.search anything)] ++ List.replicate 5 (.advance 0) ++ [.start (.mutate [firstMemory]),.advance 1] ++
  List.replicate 4 (.advance 0) ++ [.start (.search anything)] ++ List.replicate 3 (.advance 2)

theorem lateTrace : ((cached listing).run (idle (unused emptyRepository [])) lateSearch).trace =
    [.served (.fresh (commit [firstMemory] emptyRepository)) anything.search [],
      .computed anything.search [] [emptyRepository]] := rfl

theorem lateFresh : ¬ ∀ (env : CacheEnv) (repository : Repository) (reads : List ReadRow) (events : List (Event Op))
    (checked : Repository) (search : Search) (results : List SearchResult),
    .served (.fresh checked) search results ∈ ((cached env).run (idle (unused repository reads)) events).trace →
    ∃ computed found seen,
      Current env ((cached env).run (idle (unused repository reads)) events).trace checked search results computed found seen := by
  intro claimed
  have served : .served (.fresh (commit [firstMemory] emptyRepository)) anything.search [] ∈
      ((cached listing).run (idle (unused emptyRepository [])) lateSearch).trace := by
    rw [lateTrace]
    exact List.mem_cons_self
  obtain ⟨computed,found,seen,current⟩ := claimed _ _ _ _ _ _ _ served
  have event := current.event
  rw [lateTrace] at event
  rcases List.mem_cons.mp event with other | first
  · cases other
  cases List.mem_singleton.mp first
  have epochs := current.epochs emptyRepository List.mem_cons_self
  exact absurd epochs (by decide)

theorem freshCurrentRepeated : ∃ computed found seen, Current listing
    ((cached listing).run (idle (unused emptyRepository [])) repeatedSearch).trace emptyRepository anything.search []
    computed found seen :=
  freshCurrent (by decide +kernel) List.mem_cons_self

end McpMemory.Cache
