import Mathlib.Data.List.Sort
import McpMemory.Maintenance.Statuses

/-! `reconcile_dangling_links` of `storage/sqlite_maintenance_housekeeping.py`: a loop that reads a
batch of dangling links and deletes them, until there is none. Here with what it counts and where a
batch is too large for the DELETE; `Maintenance.Statuses` has what it does to the tables. -/
namespace McpMemory.Maintenance.Reconcile
open Memory Text Table

/- The primary key, in which the rows come. -/
def linkKey (link : MemoryLink) : String × String × String := (link.sourceId,link.targetId,link.linkType)

def linkKeyLe (a b : MemoryLink) : Bool :=
  a.sourceId < b.sourceId || a.sourceId == b.sourceId &&
    (a.targetId < b.targetId || a.targetId == b.targetId && a.linkType ≤ b.linkType)

def danglingLinks (batchSize : Nat) (t : Tables) : List MemoryLink :=
  ((t.links.filter (isDangling t)).insertionSort (linkKeyLe · ·)).take batchSize

structure DanglingLinkReconciliationResult where
  scanned : Nat
  deleted : Nat
  deletedLinkExamples : List (String × String × String)
  deriving DecidableEq, Repr

def danglingLinkExampleLimit : Nat := 10

/- `SQLITE_MAX_EXPR_DEPTH`, where the library has one. Each comparison of the DELETE is two deep,
the three of a row four, and each further OR one more. -/
def fitsExpression (depthLimit : Option Nat) (rows : Nat) : Bool := depthLimit.all (rows + 3 ≤ ·)

def deleteLinks (rows : List MemoryLink) (t : Tables) : Tables :=
  { t with links := t.links.filter fun link => !(rows.map linkKey).contains (linkKey link) }

/- One round, of the rows that were read. -/
def tallied (rows : List MemoryLink) (t : Tables) (result : DanglingLinkReconciliationResult) :
    DanglingLinkReconciliationResult where
  scanned := result.scanned + rows.length
  deleted := result.deleted + (t.links.length - (deleteLinks rows t).links.length)
  deletedLinkExamples := (result.deletedLinkExamples ++ rows.map linkKey).take danglingLinkExampleLimit

/- `OperationalError` rolls the pass back. Nothing where the fuel does not last. -/
def reconcileLoop (depthLimit : Option Nat) (batchSize : Nat) :
    Nat → DanglingLinkReconciliationResult → Tables → Option (Except String (DanglingLinkReconciliationResult × Tables))
  | 0,_,_ => none
  | fuel + 1,result,t =>
    let rows := danglingLinks batchSize t
    if rows.isEmpty then some (.ok (result,t))
    else if !fitsExpression depthLimit rows.length then some (.error "Expression tree is too large")
    else reconcileLoop depthLimit batchSize fuel (tallied rows t result) (deleteLinks rows t)

def reconcileDanglingLinks (depthLimit : Option Nat) (batchSize fuel : Nat) (t : Tables) :
    Option (Except String (DanglingLinkReconciliationResult × Tables)) :=
  reconcileLoop depthLimit batchSize fuel ⟨0,0,[]⟩ t

/- What a link is that leads nowhere. -/
def Dangling (t : Tables) (link : MemoryLink) : Prop :=
  ¬ t.has link.sourceId ∨ startsWith link.targetId "ext:" = false ∧ ¬ t.has link.targetId

instance {t link} : Decidable (Dangling t link) :=
  inferInstanceAs (Decidable (¬ t.has link.sourceId ∨ startsWith link.targetId "ext:" = false ∧ ¬ t.has link.targetId))

/- The pass ends, takes away the links that lead nowhere and nothing else, and says how many. -/
def Reconciles (depthLimit : Option Nat) (batchSize : Nat) (t : Tables) : Prop :=
  ∃ result enough, (∀ fuel ≥ enough, reconcileDanglingLinks depthLimit batchSize fuel t =
      some (.ok (result,{ t with links := t.links.filter fun link => ¬ Dangling t link }))) ∧
    result.deleted = t.links.countP fun link => Dangling t link

section
variable {t : Tables} {link other : MemoryLink} {rows : List MemoryLink} {batchSize : Nat}

theorem startsLike {targetId : String} (external : startsWith targetId "ext:") : likeExternal targetId := by
  obtain ⟨rest,same⟩ := List.isPrefixOf_iff_prefix.mp external
  unfold likeExternal
  rw [← same]
  rfl

theorem danglingLeads (found : isDangling t link) : Dangling t link := by
  unfold isDangling at found
  rcases Bool.or_eq_true_iff.mp found with source | target
  · exact .inl (by simpa using source)
  · obtain ⟨internal,missing⟩ := Bool.and_eq_true_iff.mp target
    refine .inr ⟨Bool.eq_false_iff.mpr fun external => ?_,by simpa using missing⟩
    rw [startsLike external] at internal
    cases internal

/- The two part only at a reference in other letters. -/
theorem leadsDangling : (Dangling t link → isDangling t link) ↔
    (t.has link.sourceId → likeExternal link.targetId → startsWith link.targetId "ext:" ∨ t.has link.targetId) := by
  unfold Dangling isDangling
  cases t.has link.sourceId <;> cases likeExternal link.targetId <;> cases startsWith link.targetId "ext:" <;>
    cases t.has link.targetId <;> simp

theorem danglingKey (same : linkKey link = linkKey other) : isDangling t link = isDangling t other := by
  obtain ⟨sources,rest⟩ := Prod.mk.inj same
  obtain ⟨targets,_⟩ := Prod.mk.inj rest
  rw [isDangling,isDangling,sources,targets]

theorem memDanglingLinks (member : link ∈ danglingLinks batchSize t) : isDangling t link :=
  (List.mem_filter.mp ((List.mem_insertionSort _).mp (List.mem_of_mem_take member))).2

theorem lengthDanglingLinks : (danglingLinks batchSize t).length = min batchSize (t.links.countP (isDangling t)) := by
  rw [danglingLinks,List.length_take,List.length_insertionSort,List.countP_eq_length_filter]

/- Only dangling links have the key of one. -/
theorem deletedDangles (member : !(!((danglingLinks batchSize t).map linkKey).contains (linkKey link))) : isDangling t link := by
  rw [Bool.not_not,List.contains_iff_mem] at member
  obtain ⟨row,listed,same⟩ := List.mem_map.mp member
  exact danglingKey same ▸ memDanglingLinks listed

theorem keptLinks : (deleteLinks (danglingLinks batchSize t) t).links.filter (!isDangling t ·) = t.links.filter (!isDangling t ·) := by
  rw [deleteLinks,List.filter_filter]
  refine List.filter_congr fun link _ => ?_
  cases here : isDangling t link with
  | true => rfl
  | false =>
    simp only [Bool.not_false,Bool.true_and]
    by_contra gone
    have dangles := @deletedDangles t link batchSize (by simpa using gone)
    rw [here] at dangles
    cases dangles

theorem countDeleted : t.links.countP (isDangling t) = (deleteLinks (danglingLinks batchSize t) t).links.countP (isDangling t) +
    (t.links.length - (deleteLinks (danglingLinks batchSize t) t).links.length) := by
  let kept (link : MemoryLink) : Bool := !((danglingLinks batchSize t).map linkKey).contains (linkKey link)
  have split := List.countP_eq_countP_filter_add t.links (isDangling t) kept
  have lengths := List.length_eq_length_filter_add (l := t.links) kept
  have all : (t.links.filter (!kept ·)).countP (isDangling t) = (t.links.filter (!kept ·)).length :=
    List.countP_eq_length.mpr fun link member => deletedDangles (List.mem_filter.mp member).2
  show _ = (t.links.filter kept).countP (isDangling t) + (t.links.length - (t.links.filter kept).length)
  omega

theorem batchFirst (room : 1 ≤ batchSize) : danglingLinks batchSize t = [] ↔ t.links.countP (isDangling t) = 0 := by
  rw [← List.length_eq_zero_iff,lengthDanglingLinks]
  omega

theorem countShrinks (some : danglingLinks batchSize t ≠ []) :
    (deleteLinks (danglingLinks batchSize t) t).links.countP (isDangling t) < t.links.countP (isDangling t) := by
  obtain ⟨row,listed⟩ := List.exists_mem_of_ne_nil _ some
  have there : row ∈ t.links := (List.mem_filter.mp ((List.mem_insertionSort _).mp (List.mem_of_mem_take listed))).1
  have gone : row ∉ (deleteLinks (danglingLinks batchSize t) t).links := by
    intro kept
    have absent := (List.mem_filter.mp kept).2
    rw [Bool.not_eq_true',← Bool.not_eq_true,List.contains_iff_mem] at absent
    exact absent (List.mem_map.mpr ⟨row,listed,rfl⟩)
  have fewer : (deleteLinks (danglingLinks batchSize t) t).links.length < t.links.length := by
    refine Nat.lt_of_le_of_ne (List.length_filter_le _ _) fun same => gone ?_
    rw [deleteLinks,List.filter_eq_self.mpr (List.length_filter_eq_length_iff.mp same)]
    exact there
  have count := @countDeleted t batchSize
  omega

/- The links that the condition of the SELECT finds, all of them. -/
theorem loopDeletes {depthLimit : Option Nat} (room : 1 ≤ batchSize) (n : Nat) :
    ∀ {t : Tables} {result}, t.links.countP (isDangling t) ≤ n →
      (t.links.countP (isDangling t) = 0 ∨ fitsExpression depthLimit (min batchSize (t.links.countP (isDangling t)))) →
      ∃ last, last.deleted = result.deleted + t.links.countP (isDangling t) ∧ ∀ fuel ≥ n + 1,
        reconcileLoop depthLimit batchSize fuel result t =
          some (.ok (last,{ t with links := t.links.filter (!isDangling t ·) })) := by
  induction n with
  | zero =>
    intro t result few _
    have none := Nat.le_zero.mp few
    refine ⟨result,by rw [none]; rfl,fun fuel enough => ?_⟩
    obtain ⟨fuel,rfl⟩ := Nat.exists_eq_add_of_le' enough
    have clean : t.links.filter (!isDangling t ·) = t.links :=
      List.filter_eq_self.mpr fun link member => by simpa using List.countP_eq_zero.mp none link member
    rw [Nat.zero_add,reconcileLoop,(batchFirst room).mpr none,clean]
    rfl
  | succ n ih =>
    intro t result few fits
    by_cases none : t.links.countP (isDangling t) = 0
    · obtain ⟨last,deleted,ran⟩ := @ih t result (by omega) (.inl none)
      exact ⟨last,deleted,fun fuel enough => ran fuel (by omega)⟩
    have some : danglingLinks batchSize t ≠ [] := fun empty => none ((batchFirst room).mp empty)
    have fitting := fits.resolve_left none
    let next := deleteLinks (danglingLinks batchSize t) t
    have fewer : next.links.countP (isDangling next) < t.links.countP (isDangling t) := countShrinks some
    have count : t.links.countP (isDangling t) = next.links.countP (isDangling next) + (t.links.length - next.links.length) :=
      countDeleted
    have kept : next.links.filter (!isDangling next ·) = t.links.filter (!isDangling t ·) := @keptLinks t batchSize
    have later : fitsExpression depthLimit (min batchSize (next.links.countP (isDangling next))) := by
      unfold fitsExpression at fitting ⊢
      cases depthLimit with
      | none => rfl
      | some depth =>
        rw [Option.all_some,decide_eq_true_eq] at fitting ⊢
        omega
    obtain ⟨last,deleted,ran⟩ := @ih next (tallied (danglingLinks batchSize t) t result) (by omega) (.inr later)
    refine ⟨last,?_,fun fuel enough => ?_⟩
    · rw [deleted,show (tallied (danglingLinks batchSize t) t result).deleted =
        result.deleted + (t.links.length - next.links.length) from rfl]
      omega
    · obtain ⟨fuel,rfl⟩ := Nat.exists_eq_add_of_le' (Nat.le_trans (Nat.le_add_left 1 _) enough)
      have fine : fitsExpression depthLimit (danglingLinks batchSize t).length = true := lengthDanglingLinks ▸ fitting
      have unread : (danglingLinks batchSize t).isEmpty = false := List.isEmpty_eq_false_iff.mpr some
      rw [reconcileLoop]
      simp only [unread,fine,Bool.not_true,Bool.false_eq_true,if_false]
      rw [ran fuel (by omega),kept]
      rfl

/- What it does to the tables is what the handlers' model of the pass does. -/
theorem loopBatches (fuel : Nat) : ∀ {t : Tables} {result last after},
    reconcileLoop none batchSize fuel result t = some (.ok (last,after)) → deleteBatches batchSize fuel t = after := by
  have deletes (rows : List MemoryLink) (t : Tables) : deleteLinks rows t = deleteBatch rows t := by
    unfold deleteLinks deleteBatch
    congr 1
    refine List.filter_congr fun link _ => congrArg Bool.not (Bool.eq_iff_iff.mpr ?_)
    rw [List.contains_iff_mem,List.mem_map,List.any_eq_true]
    refine exists_congr fun row => and_congr_right fun _ => ?_
    simp only [linkKey,isLink,Prod.mk.injEq,Bool.and_eq_true,beq_iff_eq,and_assoc]
    exact ⟨fun same => ⟨same.1.symm,same.2.1.symm,same.2.2.symm⟩,fun same => ⟨same.1.symm,same.2.1.symm,same.2.2.symm⟩⟩
  induction fuel with
  | zero =>
    intro t result last after ran
    cases ran
  | succ fuel ih =>
    intro t result last after ran
    rw [reconcileLoop] at ran
    rw [deleteBatches]
    split at ran
    · rename_i done
      cases ran
      exact if_pos done
    · rename_i more
      rw [if_neg (show ¬ (danglingBatch batchSize t).isEmpty from more),← deletes]
      exact ih ran

theorem deletesDangling (room : 1 ≤ batchSize) :
    Maintenance.reconcileDanglingLinks batchSize t = { t with links := t.links.filter (!isDangling t ·) } := by
  obtain ⟨last,_,ran⟩ := @loopDeletes batchSize none room t.links.length t ⟨0,0,[]⟩ List.countP_le_length (.inr rfl)
  exact loopBatches _ (ran _ (Nat.le_refl _))

/- A batch that makes the condition of the DELETE too deep fails the pass. -/
theorem loopRefuses {depthLimit : Option Nat} (room : 1 ≤ batchSize) (there : t.links.countP (isDangling t) ≠ 0)
    (deep : fitsExpression depthLimit (min batchSize (t.links.countP (isDangling t))) = false) (fuel : Nat) {result} :
    reconcileLoop depthLimit batchSize (fuel + 1) result t = some (.error "Expression tree is too large") := by
  have unread : (danglingLinks batchSize t).isEmpty = false :=
    List.isEmpty_eq_false_iff.mpr fun empty => there ((batchFirst room).mp empty)
  rw [reconcileLoop]
  simp only [unread,lengthDanglingLinks,deep,Bool.not_false,Bool.false_eq_true,if_false,if_true]

theorem reconcilesFits {depthLimit : Option Nat} (room : 1 ≤ batchSize) (reconciles : Reconciles depthLimit batchSize t) :
    t.links.countP (isDangling t) = 0 ∨ fitsExpression depthLimit (min batchSize (t.links.countP (isDangling t))) := by
  obtain ⟨result,enough,ran,_⟩ := reconciles
  by_contra neither
  obtain ⟨there,deep⟩ := not_or.mp neither
  have refused := @loopRefuses t batchSize depthLimit room there (Bool.eq_false_iff.mpr deep) enough ⟨0,0,[]⟩
  cases refused.symm.trans (ran (enough + 1) (Nat.le_succ _))

theorem reconcilesFinds {depthLimit : Option Nat} (room : 1 ≤ batchSize) (reconciles : Reconciles depthLimit batchSize t)
    (member : link ∈ t.links) (dangles : Dangling t link) : isDangling t link := by
  have fits := reconcilesFits room reconciles
  obtain ⟨result,enough,ran,_⟩ := reconciles
  obtain ⟨last,_,deletes⟩ := @loopDeletes batchSize depthLimit room _ t ⟨0,0,[]⟩ (Nat.le_refl _) fits
  have same := (ran _ (Nat.le_max_left enough (t.links.countP (isDangling t) + 1))).symm.trans
    (deletes _ (Nat.le_max_right _ _))
  have links := congrArg (fun after : Tables => after.links) (Prod.mk.inj (Except.ok.inj (Option.some.inj same))).2
  by_contra missed
  have stays : link ∈ t.links.filter (!isDangling t ·) := List.mem_filter.mpr ⟨member,by simpa using missed⟩
  rw [← show t.links.filter (fun link => ¬ Dangling t link) = t.links.filter (!isDangling t ·) from links] at stays
  exact absurd dangles (of_decide_eq_true (List.mem_filter.mp stays).2)

/- LIKE takes the letters in either case, so that a link to "EXT:…" that leads nowhere stays. -/
theorem danglingReconciled (depthLimit : Option Nat) (t : Tables) (room : 1 ≤ batchSize) :
    Reconciles depthLimit batchSize t ↔
      (∀ link ∈ t.links, t.has link.sourceId → likeExternal link.targetId →
        startsWith link.targetId "ext:" ∨ t.has link.targetId) ∧
      (t.links.countP (isDangling t) = 0 ∨ fitsExpression depthLimit (min batchSize (t.links.countP (isDangling t)))) := by
  constructor
  · intro reconciles
    exact ⟨fun link member => leadsDangling.mp (reconcilesFinds room reconciles member),reconcilesFits room reconciles⟩
  · rintro ⟨lower,fits⟩
    have leads link (member : link ∈ t.links) := leadsDangling.mpr (lower link member)
    have alike : ∀ link ∈ t.links, decide (Dangling t link) = isDangling t link := fun link member =>
      Bool.eq_iff_iff.mpr ⟨fun dangles => leads link member (of_decide_eq_true dangles),
        fun found => decide_eq_true (danglingLeads found)⟩
    obtain ⟨last,deleted,deletes⟩ := @loopDeletes batchSize depthLimit room _ t ⟨0,0,[]⟩ (Nat.le_refl _) fits
    have counts : t.links.countP (fun link => Dangling t link) = t.links.countP (isDangling t) :=
      List.countP_congr fun link member => by rw [alike link member]
    have links : t.links.filter (fun link => ¬ Dangling t link) = t.links.filter (!isDangling t ·) :=
      List.filter_congr fun link member => by rw [← alike link member,decide_not]
    refine ⟨last,t.links.countP (isDangling t) + 1,fun fuel enough => ?_,?_⟩
    · rw [links]
      exact deletes fuel enough
    · rw [deleted,counts]
      exact Nat.zero_add _

end

/- A reference in other letters. -/

def danglingNote (targetId : String) : Tables := { empty with
  memories := [⟨"m",some 1,"note","kept",some "note","fact","active","t0","t0",none,[]⟩]
  links := [⟨"m",targetId,"NEXT",""⟩,⟨"gone","m","NEXT",""⟩] }

theorem danglingReconciledSample : Reconciles (some 1000) 100 (danglingNote "ext:a.md") :=
  (danglingReconciled (some 1000) (danglingNote "ext:a.md") (by decide)).mpr ⟨by decide +kernel,by decide +kernel⟩

theorem upperCaseKept : Dangling (danglingNote "EXT:a.md") ⟨"m","EXT:a.md","NEXT",""⟩ ∧
    ¬ Reconciles none 100 (danglingNote "EXT:a.md") := by
  have dangles : Dangling (danglingNote "EXT:a.md") ⟨"m","EXT:a.md","NEXT",""⟩ := by decide +kernel
  refine ⟨dangles,fun reconciles => ?_⟩
  have found := reconcilesFinds (by decide) reconciles List.mem_cons_self dangles
  exact absurd found (by decide +kernel)

end McpMemory.Maintenance.Reconcile
