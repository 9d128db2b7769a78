import Mathlib.Data.List.Nodup
import Mathlib.Order.Nat

/-! Breadth-first search over labelled edges, level by level, with the list of what was seen.
A node is found once, at its distance, by the first edge that leads to it from the level before. -/
namespace McpMemory.BreadthFirst

variable {α β : Type} (out : α → List (α × β))

def Edge (a b : α) : Prop := ∃ label, (b,label) ∈ out a

inductive Steps (a : α) : Nat → α → Prop
  | here : Steps a 0 a
  | step {n b c} (steps : Steps a n b) (edge : Edge out b c) : Steps a (n + 1) c

def Distance (a : α) (n : Nat) (b : α) : Prop := Steps out a n b ∧ ∀ m, m < n → ¬ Steps out a m b

variable {out} {a b c : α} {n m : Nat}

theorem stepsZero : Steps out a 0 b ↔ b = a := by
  constructor
  · rintro ⟨⟩
    rfl
  · rintro rfl
    exact .here

theorem stepsLast (steps : Steps out a (n + 1) c) : ∃ b, Steps out a n b ∧ Edge out b c := by
  cases steps with
  | step steps edge => exact ⟨_,steps,edge⟩

/- Whatever can be reached has a distance. -/
theorem stepsDistance (steps : Steps out a n b) : ∃ m, m ≤ n ∧ Distance out a m b := by
  induction n using Nat.strongRecOn with
  | ind n ih =>
    by_cases shorter : ∃ m, m < n ∧ Steps out a m b
    · obtain ⟨m,less,steps⟩ := shorter
      obtain ⟨k,least,distance⟩ := ih m less steps
      exact ⟨k,least.trans less.le,distance⟩
    · exact ⟨n,le_rfl,steps,fun m less steps => shorter ⟨m,less,steps⟩⟩

theorem distanceBefore (distance : Distance out a (n + 1) c) {b} (steps : Steps out a n b) (edge : Edge out b c) :
    Distance out a n b :=
  ⟨steps,fun m less shorter => distance.2 (m + 1) (Nat.succ_lt_succ less) (.step shorter edge)⟩

variable [DecidableEq α]

/- `found` has each node with the label of the edge and the level that it was found by. -/
structure Wave (α β : Type) where
  frontier : List α
  visited : List α
  found : List (α × β × Nat)

def visit (distance : Nat) (wave : Wave α β) (edge : α × β) : Wave α β :=
  if edge.1 ∈ wave.visited then wave
  else ⟨wave.frontier ++ [edge.1],edge.1 :: wave.visited,wave.found ++ [(edge.1,edge.2,distance)]⟩

variable (out)

def level (distance : Nat) (wave : Wave α β) : Wave α β :=
  wave.frontier.foldl (fun wave node => (out node).foldl (visit distance) wave) { wave with frontier := [] }

def search : Nat → Nat → Wave α β → Wave α β
  | 0,_,wave => wave
  | rest + 1,distance,wave => search rest (distance + 1) (level out distance wave)

def begin (source : α) : Wave α β := ⟨[source],[source],[]⟩

variable {out} {distance : Nat} {wave : Wave α β} {edges : List (α × β)}

/- What a list of edges adds to a wave. -/
structure Visits (distance : Nat) (edges : List (α × β)) (before after : Wave α β) : Prop where
  visited : ∀ node, node ∈ after.visited ↔ node ∈ before.visited ∨ node ∈ edges.map Prod.fst
  frontier : ∀ node, node ∈ after.frontier ↔ node ∈ before.frontier ∨ node ∉ before.visited ∧ node ∈ edges.map Prod.fst
  found : ∃ added, after.found = before.found ++ added ∧ (added.map Prod.fst).Nodup ∧
    (∀ node, node ∈ added.map Prod.fst ↔ node ∉ before.visited ∧ node ∈ edges.map Prod.fst) ∧
    ∀ entry ∈ added, (entry.1,entry.2.1) ∈ edges ∧ entry.2.2 = distance

theorem visitEach (distance : Nat) (edges : List (α × β)) (wave : Wave α β) :
    Visits distance edges wave (edges.foldl (visit distance) wave) := by
  induction edges generalizing wave with
  | nil => exact ⟨by simp,by simp,[],by simp⟩
  | cons edge rest ih =>
    obtain ⟨visited,frontier,added,found,once,nodes,entries⟩ := ih (visit distance wave edge)
    rw [List.foldl_cons]
    by_cases seen : edge.1 ∈ wave.visited
    · have same : visit distance wave edge = wave := if_pos seen
      rw [same] at visited frontier found nodes ⊢
      have known : ∀ node, node ∉ wave.visited ∧ node ∈ (edge::rest).map Prod.fst ↔
          node ∉ wave.visited ∧ node ∈ rest.map Prod.fst := by
        intro node
        rw [List.map_cons,List.mem_cons]
        refine and_congr_right fun new => or_iff_right ?_
        rintro rfl
        exact new seen
      refine ⟨fun node => ?_,fun node => ?_,added,found,once,fun node => ?_,fun entry member => ?_⟩
      · rw [visited,List.map_cons,List.mem_cons]
        constructor
        · exact fun either => either.imp id .inr
        · rintro (old | rfl | later)
          · exact .inl old
          · exact .inl seen
          · exact .inr later
      · rw [frontier,known]
      · rw [nodes,known]
      · exact ⟨List.mem_cons_of_mem _ (entries entry member).1,(entries entry member).2⟩
    · have same : visit distance wave edge =
          ⟨wave.frontier ++ [edge.1],edge.1 :: wave.visited,wave.found ++ [(edge.1,edge.2,distance)]⟩ := if_neg seen
      rw [same] at visited frontier found nodes ⊢
      refine ⟨fun node => ?_,fun node => ?_,(edge.1,edge.2,distance)::added,?_,?_,fun node => ?_,?_⟩
      · rw [visited]
        simp only [List.mem_cons,List.map_cons]
        tauto
      · rw [frontier]
        simp only [List.mem_cons,List.mem_append,List.map_cons,List.not_mem_nil,or_false,not_or]
        constructor
        · rintro ((old | rfl) | ⟨⟨_,new⟩,later⟩)
          · exact .inl old
          · exact .inr ⟨seen,.inl rfl⟩
          · exact .inr ⟨new,.inr later⟩
        · rintro (old | ⟨new,rfl | later⟩)
          · exact .inl (.inl old)
          · exact .inl (.inr rfl)
          · by_cases here : node = edge.1
            · exact .inl (.inr here)
            · exact .inr ⟨⟨here,new⟩,later⟩
      · rw [found,List.append_assoc]
        rfl
      · refine List.nodup_cons.mpr ⟨fun again => ?_,once⟩
        exact ((nodes edge.1).mp again).1 List.mem_cons_self
      · rw [List.map_cons,List.mem_cons,nodes]
        simp only [List.mem_cons,List.map_cons,not_or]
        constructor
        · rintro (rfl | ⟨⟨_,new⟩,later⟩)
          · exact ⟨seen,.inl rfl⟩
          · exact ⟨new,.inr later⟩
        · rintro ⟨new,rfl | later⟩
          · exact .inl rfl
          · by_cases here : node = edge.1
            · exact .inl here
            · exact .inr ⟨⟨here,new⟩,later⟩
      · intro entry member
        rcases List.mem_cons.mp member with rfl | member
        · exact ⟨List.mem_cons_self,rfl⟩
        · exact ⟨List.mem_cons_of_mem _ (entries entry member).1,(entries entry member).2⟩

theorem levelVisits : Visits distance (wave.frontier.flatMap out) { wave with frontier := [] } (level out distance wave) := by
  unfold level
  rw [← List.foldl_flatMap]
  exact visitEach distance _ _

/- Up to a level: what was seen, what was seen last and what was found. -/
structure Reached (out : α → List (α × β)) (source : α) (levels : Nat) (wave : Wave α β) : Prop where
  visited : ∀ node, node ∈ wave.visited ↔ ∃ n, n ≤ levels ∧ Steps out source n node
  frontier : ∀ node, node ∈ wave.frontier ↔ Distance out source levels node
  once : (wave.found.map Prod.fst).Nodup
  nodes : ∀ node, node ∈ wave.found.map Prod.fst ↔ node ≠ source ∧ ∃ n, n ≤ levels ∧ Steps out source n node
  entries : ∀ entry ∈ wave.found, ∃ n, entry.2.2 = n + 1 ∧ n + 1 ≤ levels ∧ Distance out source (n + 1) entry.1 ∧
    ∃ before, Distance out source n before ∧ (entry.1,entry.2.1) ∈ out before

omit [DecidableEq α] in
theorem reachedBegin (source : α) : Reached out source 0 (begin source : Wave α β) where
  visited node := by
    simp only [begin,List.mem_singleton,Nat.le_zero,exists_eq_left,stepsZero]
  frontier node := by
    simp [begin,Distance,stepsZero]
  once := List.nodup_nil
  nodes node := by
    simp only [begin,List.map_nil,List.not_mem_nil,false_iff,not_and,Nat.le_zero,exists_eq_left,stepsZero]
    exact fun apart same => apart same
  entries := nofun

theorem reachedLevel {source : α} {levels : Nat} (reached : Reached out source levels wave) :
    Reached out source (levels + 1) (level out (levels + 1) wave) := by
  obtain ⟨visited,frontier,added,found,once,nodes,entries⟩ := @levelVisits _ _ out _ (levels + 1) wave
  dsimp only at visited frontier found nodes
  -- the nodes that the edges of the last level lead to
  have targets : ∀ node, node ∈ (wave.frontier.flatMap out).map Prod.fst ↔
      ∃ before, Distance out source levels before ∧ Edge out before node := by
    intro node
    simp only [List.mem_map,List.mem_flatMap]
    constructor
    · rintro ⟨edge,⟨before,here,there⟩,rfl⟩
      exact ⟨before,(reached.frontier before).mp here,edge.2,there⟩
    · rintro ⟨before,here,label,there⟩
      exact ⟨(node,label),⟨before,(reached.frontier before).mpr here,there⟩,rfl⟩
  -- the new ones among them are those that are one level further
  have fresh : ∀ node, node ∉ wave.visited ∧ node ∈ (wave.frontier.flatMap out).map Prod.fst ↔
      Distance out source (levels + 1) node := by
    intro node
    rw [targets,reached.visited]
    constructor
    · rintro ⟨unseen,before,distance,edge⟩
      exact ⟨.step distance.1 edge,fun m less steps => unseen ⟨m,Nat.lt_succ_iff.mp less,steps⟩⟩
    · intro distance
      refine ⟨fun ⟨m,bound,steps⟩ => distance.2 m (Nat.lt_succ_iff.mpr bound) steps,?_⟩
      obtain ⟨before,steps,edge⟩ := stepsLast distance.1
      exact ⟨before,distanceBefore distance steps edge,edge⟩
  have further : ∀ node, (∃ n, n ≤ levels + 1 ∧ Steps out source n node) ↔
      (∃ n, n ≤ levels ∧ Steps out source n node) ∨ Distance out source (levels + 1) node := by
    intro node
    constructor
    · rintro ⟨n,bound,steps⟩
      obtain ⟨m,least,distance⟩ := stepsDistance steps
      rcases Nat.lt_or_ge levels m with more | within
      · obtain rfl : m = levels + 1 := by omega
        exact .inr distance
      · exact .inl ⟨m,within,distance.1⟩
    · rintro (⟨n,bound,steps⟩ | distance)
      · exact ⟨n,bound.trans (Nat.le_succ _),steps⟩
      · exact ⟨_,le_rfl,distance.1⟩
  have apart : ∀ node, Distance out source (levels + 1) node → node ≠ source := by
    rintro node distance rfl
    exact distance.2 0 (Nat.succ_pos _) .here
  refine ⟨fun node => ?_,fun node => ?_,?_,fun node => ?_,fun entry member => ?_⟩
  · rw [visited,further,← reached.visited,← fresh]
    by_cases seen : node ∈ wave.visited
    · simp [seen]
    · simp [seen]
  · rw [frontier,fresh]
    simp
  · rw [found,List.map_append]
    refine List.nodup_append.mpr ⟨reached.once,once,?_⟩
    rintro node old _ new rfl
    exact ((nodes node).mp new).1 ((reached.visited node).mpr ((reached.nodes node).mp old).2)
  · rw [found,List.map_append,List.mem_append,reached.nodes,nodes,fresh,further]
    exact ⟨fun either => either.elim (fun old => ⟨old.1,.inl old.2⟩) fun new => ⟨apart node new,.inr new⟩,
      fun ⟨other,either⟩ => either.imp (fun old => ⟨other,old⟩) id⟩
  · rw [found] at member
    rcases List.mem_append.mp member with old | new
    · obtain ⟨n,at_,bound,rest⟩ := reached.entries entry old
      exact ⟨n,at_,bound.trans (Nat.le_succ _),rest⟩
    · obtain ⟨listed,at_⟩ := entries entry new
      obtain ⟨before,here,there⟩ := List.mem_flatMap.mp listed
      have distance := (fresh entry.1).mp ((nodes entry.1).mp (List.mem_map_of_mem new))
      exact ⟨levels,at_,le_rfl,distance,before,(reached.frontier before).mp here,there⟩

theorem reachedSearch {source : α} {levels : Nat} (rest : Nat) (reached : Reached out source levels wave) :
    Reached out source (levels + rest) (search out rest (levels + 1) wave) := by
  induction rest generalizing levels wave with
  | zero => exact reached
  | succ rest ih =>
    rw [Nat.add_succ,← Nat.succ_add]
    exact ih (reachedLevel reached)

/- A search that has nothing left to follow is over. -/
theorem searchEnded (ended : wave.frontier = []) (rest distance : Nat) : search out rest distance wave = wave := by
  induction rest generalizing distance with
  | zero => rfl
  | succ rest ih =>
    have still : level out distance wave = wave := by
      unfold level
      rw [ended,List.foldl_nil,← ended]
    show search out rest (distance + 1) (level out distance wave) = wave
    rw [still]
    exact ih (distance + 1)

end McpMemory.BreadthFirst
