import Mathlib.Logic.Function.Basic
import Mathlib.Data.List.Perm.Subperm
import Mathlib.Data.List.Nodup

/-!
# Kahn's algorithm

A topological order by counting: a node is ready when its count of open dependencies is zero, and
a node that is taken off the ready list lowers the counts of its dependents. `sort` puts the
dependents and the ready list in order; the results here hold for every `sort` that permutes.

`deps` may have duplicates: a node is then counted, and released, as often. The counts are integers
because nothing in the loop keeps them from falling below zero; the invariant does
(`Inv.count_eq`).

The order that comes out has no duplicates and has nodes only (`order_nodup`, `order_subset`), and
every node comes after its dependencies (`order_sorted`).
-/

namespace Graph

open Function

variable {α : Type}

/-- Every node of the list comes after its dependencies. -/
def Sorted (deps : α → List α) (order : List α) : Prop :=
  ∀ pre n post, order = pre ++ n :: post → ∀ d ∈ deps n, d ∈ pre

theorem Sorted.nil (deps : α → List α) : Sorted deps [] := by
  intro pre n post h
  simp at h

theorem Sorted.snoc {deps : α → List α} {order : List α} {n : α} (h : Sorted deps order)
    (hn : ∀ d ∈ deps n, d ∈ order) : Sorted deps (order ++ [n]) := by
  intro pre m post heq
  rcases List.eq_nil_or_concat post with rfl | ⟨post', k, rfl⟩
  · obtain ⟨rfl, hm⟩ := List.append_inj' heq rfl
    obtain rfl : n = m := by simpa using hm
    exact hn
  · rw [List.concat_eq_append, ← List.cons_append, ← List.append_assoc] at heq
    exact h pre m post' (List.append_inj' heq rfl).1

variable [DecidableEq α]

namespace Kahn

section

variable (nodes : List α) (deps : α → List α) (sort : List α → List α)

/-- The dependents of `n`, once for each time that they depend on it. -/
def dependents (n : α) : List α := nodes.flatMap fun m => ((deps m).filter (· = n)).map fun _ => m

/-- The counts of some nodes go down by one, and a node whose count becomes zero is ready. -/
def release : List α → (α → Int) → List α → (α → Int) × List α
  | [], count, ready => (count, ready)
  | m :: ms, count, ready =>
    let count := Function.update count m (count m - 1)
    release ms count (if count m = 0 then ready ++ [m] else ready)

/-- The loop: take the first ready node and release its dependents. -/
def loop : Nat → (α → Int) → List α → List α → List α
  | 0, _, _, order => order
  | _ + 1, _, [], order => order
  | fuel + 1, count, n :: ready, order =>
    let r := release (sort (dependents nodes deps n)) count ready
    loop fuel r.1 (sort r.2) (order ++ [n])

/-- The counts at the start: all dependencies are open. -/
def counts (m : α) : Int := (deps m).length

/-- The order in which the nodes become ready. On a cycle nodes are missing from it. Every round lists
one node, and none twice (`loop_spec`), so there are no more rounds than nodes. -/
def order : List α :=
  loop nodes deps sort nodes.length (counts deps)
    (sort (nodes.filter fun m => counts deps m = 0)) []

end

/-! ## Releasing -/

variable {nodes : List α} {deps : α → List α} {sort : List α → List α}

theorem release_count (ms : List α) (count : α → Int) (ready : List α) (m : α) :
    (release ms count ready).1 m = count m - ms.count m := by
  induction ms generalizing count ready with
  | nil => simp [release]
  | cons n ms ih =>
    rw [release, ih]
    by_cases h : m = n
    · subst h
      simp only [update_self, List.count_cons_self]
      omega
    · simp [h, Ne.symm h]

/-- Nodes become ready once each, when their count is used up. -/
theorem release_ready (ms : List α) (count : α → Int) (ready : List α)
    (hcount : ∀ m ∈ ms, (ms.count m : Int) ≤ count m) :
    ∃ new, (release ms count ready).2 = ready ++ new ∧ new.Nodup ∧
      ∀ m, m ∈ new ↔ m ∈ ms ∧ count m = ms.count m := by
  induction ms generalizing count ready with
  | nil => exact ⟨[], by simp [release]⟩
  | cons n ms ih =>
    have htail : ∀ m ∈ ms, (ms.count m : Int) ≤ update count n (count n - 1) m := by
      intro m hm
      have h := hcount m (List.mem_cons_of_mem _ hm)
      by_cases hmn : m = n
      · subst hmn
        simp only [List.count_cons_self, update_self] at h ⊢
        omega
      · simpa [hmn, Ne.symm hmn] using h
    have hn := hcount n List.mem_cons_self
    rw [List.count_cons_self] at hn
    by_cases hzero : count n - 1 = 0
    · -- The count is used up, so `n` does not come again.
      have hnot : n ∉ ms := by
        intro hmem
        have := List.count_pos_iff.mpr hmem
        omega
      obtain ⟨new, hnew, hnodup, hmem⟩ := ih _ (ready ++ [n]) htail
      refine ⟨n :: new, ?_, ?_, fun m => ?_⟩
      · simp only [release, update_self, hzero, if_true]
        rw [← hzero, hnew]
        simp
      · exact List.nodup_cons.mpr ⟨fun h => hnot ((hmem n).mp h).1, hnodup⟩
      · by_cases hmn : m = n
        · subst hmn
          refine ⟨fun _ => ⟨List.mem_cons_self, ?_⟩, fun _ => List.mem_cons_self⟩
          rw [List.count_cons_self, List.count_eq_zero.mpr hnot]
          omega
        · simp [hmem, hmn, Ne.symm hmn]
    · obtain ⟨new, hnew, hnodup, hmem⟩ := ih _ ready htail
      refine ⟨new, ?_, hnodup, fun m => ?_⟩
      · simp only [release, update_self, hzero, if_false]
        exact hnew
      · by_cases hmn : m = n
        · subst hmn
          simp only [hmem, update_self, List.mem_cons, true_or, true_and,
            List.count_cons_self]
          constructor
          · rintro ⟨-, h⟩
            omega
          · intro h
            have hpos : 0 < ms.count m := by omega
            exact ⟨List.count_pos_iff.mp hpos, by omega⟩
        · simp [hmem, hmn, Ne.symm hmn]

variable {m n : α} {count : α → Int} {ready : List α} {fuel : Nat}

theorem count_dependents (hnodup : nodes.Nodup) (hm : m ∈ nodes) (n : α) :
    (dependents nodes deps n).count m = ((deps m).filter (· = n)).length := by
  unfold dependents
  induction nodes with
  | nil => cases hm
  | cons k ks ih =>
    rw [List.flatMap_cons, List.count_append]
    obtain ⟨hk, hks⟩ := List.nodup_cons.mp hnodup
    rcases List.mem_cons.mp hm with rfl | hm'
    · have hnone : (ks.flatMap fun k => ((deps k).filter (· = n)).map fun _ => k).count m = 0 := by
        rw [List.count_eq_zero]
        intro hmem
        obtain ⟨k, hk', hmk⟩ := List.mem_flatMap.mp hmem
        obtain ⟨d, -, rfl⟩ := List.mem_map.mp hmk
        exact hk hk'
      rw [hnone]
      simp [List.map_const', List.count_replicate_self]
    · have hne : k ≠ m := fun h => hk (h ▸ hm')
      rw [ih hks hm']
      simp [List.map_const', List.count_replicate, hne]

theorem mem_dependents (h : m ∈ dependents nodes deps n) : m ∈ nodes := by
  obtain ⟨k, hk, hmk⟩ := List.mem_flatMap.mp h
  obtain ⟨d, -, rfl⟩ := List.mem_map.mp hmk
  exact hk

/-! ## The invariant of the loop -/

/-- Nothing is listed twice, a count is the number of open dependencies, and the nodes without open
dependencies are the listed ones. -/
structure Inv (nodes : List α) (deps : α → List α) (count : α → Int) (ready order : List α) :
    Prop where
  nodup : (order ++ ready).Nodup
  subset : ∀ m ∈ order ++ ready, m ∈ nodes
  count_eq : ∀ m ∈ nodes, count m = ((deps m).filter (· ∉ order)).length
  listed : ∀ m ∈ nodes, m ∈ order ++ ready ↔ count m = 0
  sorted : Sorted deps order

theorem Inv.perm {ready' order : List α} (h : Inv nodes deps count ready order)
    (hp : ready'.Perm ready) :
    Inv nodes deps count ready' order := by
  have hperm : (order ++ ready').Perm (order ++ ready) := hp.append_left order
  exact ⟨hperm.nodup_iff.mpr h.nodup, fun m hm => h.subset m (hperm.mem_iff.mp hm), h.count_eq,
    fun m hm => hperm.mem_iff.trans (h.listed m hm), h.sorted⟩

/-- A listed node has no open dependency. -/
theorem Inv.closed {order : List α} (h : Inv nodes deps count ready order)
    (hn : n ∈ order ++ ready) : ∀ d ∈ deps n, d ∈ order := by
  have hnode := h.subset n hn
  have hzero := (h.listed n hnode).mp hn
  rw [h.count_eq n hnode] at hzero
  have hnil : (deps n).filter (· ∉ order) = [] := List.length_eq_zero_iff.mp (by omega)
  intro d hd
  simpa using List.filter_eq_nil_iff.mp hnil d hd

/-- The dependencies that `n` closes. -/
theorem length_open {ds order : List α} (hn : n ∉ order) :
    (ds.filter (· ∉ order ++ [n])).length + (ds.filter (· = n)).length =
      (ds.filter (· ∉ order)).length := by
  induction ds with
  | nil => rfl
  | cons d ds ih =>
    by_cases hd : d = n
    · subst hd
      simp only [List.mem_append, List.mem_singleton, or_true, not_true_eq_false, decide_false,
        Bool.false_eq_true, not_false_eq_true, List.filter_cons_of_neg, decide_true,
        List.filter_cons_of_pos, List.length_cons, hn] at ih ⊢
      omega
    · by_cases ho : d ∈ order
      · simpa [hd, ho] using ih
      · simp only [List.mem_append, List.mem_singleton, hd, ho, or_self, not_false_eq_true,
          decide_true, List.filter_cons_of_pos, List.length_cons, decide_false,
          Bool.false_eq_true, List.filter_cons_of_neg] at ih ⊢
        omega

/-- One round of the loop. -/
theorem Inv.step (hnodes : nodes.Nodup) {order : List α}
    (h : Inv nodes deps count (n :: ready) order) {ms : List α}
    (hms : ms.Perm (dependents nodes deps n)) :
    Inv nodes deps (release ms count ready).1 (release ms count ready).2 (order ++ [n]) := by
  have hn : n ∉ order := fun hmem =>
    (List.nodup_append.mp h.nodup).2.2 n hmem n List.mem_cons_self rfl
  have hopen : ∀ m ∈ nodes,
      count m - ms.count m = ((deps m).filter (· ∉ order ++ [n])).length := by
    intro m hm
    rw [h.count_eq m hm, hms.count_eq, count_dependents hnodes hm, ← length_open hn]
    omega
  have hms_nodes : ∀ m ∈ ms, m ∈ nodes := fun m hm => mem_dependents (hms.mem_iff.mp hm)
  obtain ⟨new, hnew, hnodup, hmem⟩ := release_ready ms count ready fun m hm => by
    have := hopen m (hms_nodes m hm)
    omega
  -- A released node had open dependencies, so it was not listed.
  have hfresh : ∀ m ∈ new, m ∉ order ++ n :: ready := by
    intro m hm hlisted
    obtain ⟨hin, heq⟩ := (hmem m).mp hm
    have hpos := List.count_pos_iff.mpr hin
    have hzero := (h.listed m (hms_nodes m hin)).mp hlisted
    omega
  have hsplit : order ++ [n] ++ (release ms count ready).2 = (order ++ n :: ready) ++ new := by
    rw [hnew]
    simp
  refine ⟨?_, fun m hm => ?_, fun m hm => ?_, fun m hm => ?_,
    h.sorted.snoc (h.closed (List.mem_append_right _ List.mem_cons_self))⟩
  · rw [hsplit]
    refine List.nodup_append.mpr ⟨h.nodup, hnodup, ?_⟩
    rintro a ha _ hb rfl
    exact hfresh a hb ha
  · rw [hsplit] at hm
    rcases List.mem_append.mp hm with hm | hm
    · exact h.subset m hm
    · exact hms_nodes m ((hmem m).mp hm).1
  · rw [release_count]
    exact hopen m hm
  · rw [hsplit, release_count, List.mem_append, h.listed m hm, hmem]
    have hle := hopen m hm
    by_cases hin : m ∈ ms
    · simp only [hin, true_and]
      omega
    · simp [hin, List.count_eq_zero.mpr hin]

theorem Inv.start (hnodes : nodes.Nodup) (deps : α → List α) :
    Inv nodes deps (counts deps) (nodes.filter fun m => counts deps m = 0) [] where
  nodup := hnodes.filter _
  subset _ hm := (List.mem_filter.mp hm).1
  count_eq m _ := by simp [counts]
  listed m hm := by simp [hm]
  sorted := .nil deps

theorem loop_spec (hnodes : nodes.Nodup) (hsort : ∀ l, (sort l).Perm l)
    {order : List α} (h : Inv nodes deps count ready order) :
    (loop nodes deps sort fuel count ready order).Nodup ∧
      (∀ m ∈ loop nodes deps sort fuel count ready order, m ∈ nodes) ∧
      Sorted deps (loop nodes deps sort fuel count ready order) := by
  have hret : order.Nodup ∧ (∀ m ∈ order, m ∈ nodes) ∧ Sorted deps order :=
    ⟨h.nodup.of_append_left, fun m hm => h.subset m (List.mem_append_left _ hm), h.sorted⟩
  induction fuel generalizing count ready order with
  | zero => exact hret
  | succ fuel ih =>
    cases ready with
    | nil => exact hret
    | cons n ready =>
      have hnext := (h.step hnodes (hsort (dependents nodes deps n))).perm (hsort _)
      exact ih hnext ⟨hnext.nodup.of_append_left,
        fun m hm => hnext.subset m (List.mem_append_left _ hm), hnext.sorted⟩

section

variable (hnodes : nodes.Nodup) (hsort : ∀ l, (sort l).Perm l)

include hnodes hsort

theorem order_nodup : (order nodes deps sort).Nodup :=
  (loop_spec hnodes hsort ((Inv.start hnodes deps).perm (hsort _))).1

theorem order_subset : ∀ m ∈ order nodes deps sort, m ∈ nodes :=
  (loop_spec hnodes hsort ((Inv.start hnodes deps).perm (hsort _))).2.1

theorem order_sorted : Sorted deps (order nodes deps sort) :=
  (loop_spec hnodes hsort ((Inv.start hnodes deps).perm (hsort _))).2.2

/-- An order that is as long as the list of nodes has them all. -/
theorem order_perm (hlen : (order nodes deps sort).length = nodes.length) :
    (order nodes deps sort).Perm nodes :=
  ((order_nodup hnodes hsort).subperm (order_subset hnodes hsort)).perm_of_length_le
    (Nat.le_of_eq hlen.symm)

end

end Kahn

end Graph
