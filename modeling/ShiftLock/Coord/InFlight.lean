import ShiftLock.Coord.Drain
import ShiftLock.Conc.Run
import Mathlib.Data.List.Count

/-!
# The books of a drain group (`drain.go`)

A drain group with the release functions that it has returned, under any interleaving of the critical
sections of `BeginNamed`, of the release functions and of `StartDrain`, and of the store of `Close`.
`Wait` is `StartDrain` and a wait, and `Close` is the store and `StartDrain`. A release function that is
called waits for the mutex first: until then its operation counts (`release_waits`).
-/

namespace ShiftLock.DrainGroup

open Conc

/-- A release function: `called` is the state of its `sync.Once`, and `released` says that its critical
section is over. -/
structure Op where
  name : String
  called : Bool := false
  released : Bool := false
  deriving DecidableEq, Repr

/-- A drain group and what it has returned. -/
structure State where
  group : DrainGroup
  ops : List Op := []

/-- The atomic steps. -/
inductive Step where
  | begin (name : String)
  | call (k : Nat)
  | release (k : Nat)
  | startDrain
  | setClosed

/-- One step. Only the first call of a release function has a critical section. -/
def step (s : State) : Step → State
  | .begin name =>
    match s.group.beginNamed name with
    | (group, none) => { group, ops := s.ops ++ [⟨name, false, false⟩] }
    | (_, some _) => s
  | .call k => { s with ops := s.ops.modify k fun op => { op with called := true } }
  | .release k =>
    match s.ops[k]? with
    | some ⟨name, true, false⟩ =>
      { group := s.group.release name, ops := s.ops.set k ⟨name, true, true⟩ }
    | _ => s
  | .startDrain => { s with group := s.group.startDrain }
  | .setClosed => { s with group := { s.group with closed := true } }

/-- The number of unreleased operations whose name satisfies `p`. -/
def unreleased (p : String → Bool) (ops : List Op) : Nat := ops.countP fun op => !op.released && p op.name

theorem unreleased_begin (p : String → Bool) (ops : List Op) (name : String) :
    unreleased p (ops ++ [⟨name, false, false⟩]) = unreleased p ops + if p name then 1 else 0 := by
  cases h : p name <;> simp [unreleased, h]

theorem unreleased_call (p : String → Bool) (ops : List Op) (k : Nat) :
    unreleased p (ops.modify k fun op => { op with called := true }) = unreleased p ops := by
  induction ops generalizing k with
  | nil => cases k <;> rfl
  | cons op ops ih =>
    cases k with
    | zero => simp [unreleased, List.countP_cons]
    | succ k => simpa [unreleased, List.countP_cons] using ih k

theorem unreleased_release (p : String → Bool) {ops : List Op} {k : Nat} {name : String}
    (h : ops[k]? = some ⟨name, true, false⟩) :
    unreleased p ops = unreleased p (ops.set k ⟨name, true, true⟩) + if p name then 1 else 0 := by
  induction ops generalizing k with
  | nil => cases h
  | cons op ops ih =>
    cases k with
    | zero =>
      obtain rfl : op = ⟨name, true, false⟩ := by simpa using h
      cases hp : p name <;> simp [unreleased, hp]
    | succ k =>
      have := ih (k := k) (by simpa using h)
      simp only [unreleased, List.set_cons_succ, List.countP_cons] at this ⊢
      omega

/-- The books are right. -/
structure Inv (maxNamed : Int) (s : State) : Prop where
  active : s.group.active = unreleased (fun _ => true) s.ops
  done : s.group.done = true ↔ s.group.draining = true ∧ s.group.active = 0
  calm : s.group.panicked = false
  limit : s.group.maxNamed = maxNamed
  named : 0 < maxNamed → ∀ name, name ≠ "" →
    s.group.named name = unreleased (· = name) s.ops ∧ s.group.named name ≤ maxNamed

/-- A begin that succeeds. -/
theorem beginNamed_ok {g g' : DrainGroup} {name : String} (h : g.beginNamed name = (g', none)) :
    g.draining = false ∧ ∃ named, g' = { g with active := g.active + 1, named } ∧
      (0 < g.maxNamed → if name = "" then named = g.named else
        g.named name < g.maxNamed ∧ named = Function.update g.named name (g.named name + 1)) := by
  unfold beginNamed at h
  split at h
  · cases h
  split at h
  · cases h
  rename_i hdrain
  refine ⟨Bool.eq_false_iff.mpr hdrain, ?_⟩
  split at h
  · rename_i hname
    split at h
    · cases h
    · rename_i hbelow
      cases h
      exact ⟨_, rfl, fun _ => by simpa [hname.1] using hbelow⟩
  · rename_i hanon
    cases h
    refine ⟨_, rfl, fun hpos => ?_⟩
    rw [if_pos (by_contra fun hne => hanon ⟨hne, hpos⟩)]

theorem release_eq (g : DrainGroup) (name : String) :
    g.release name = { g with
      active := g.active - 1
      named := if name = "" then g.named else Function.update g.named name (max 0 (g.named name - 1))
      done := g.done || (g.draining && g.active - 1 = 0) } := by
  simp only [release, finish_eq]
  by_cases hname : name = "" <;> cases g.draining <;> by_cases hzero : g.active - 1 = 0 <;>
    simp [hname, hzero]

section

variable {maxNamed : Int} {s : State} (h : Inv maxNamed s)

include h

theorem Inv.begin (name : String) : Inv maxNamed (step s (.begin name)) := by
  simp only [step]
  split
  · rename_i group hbegin
    obtain ⟨hdrain, named, rfl, hname⟩ := beginNamed_ok hbegin
    refine ⟨by simp [unreleased_begin, h.active], by simp [h.done, hdrain], h.calm, h.limit, fun hpos m hm => ?_⟩
    obtain ⟨hcount, hle⟩ := h.named hpos m hm
    have hname := hname (h.limit ▸ hpos)
    split at hname
    · rename_i hanon
      simpa [unreleased_begin, hname, hanon, Ne.symm hm] using ⟨hcount, hle⟩
    · obtain ⟨hbelow, rfl⟩ := hname
      rw [h.limit] at hbelow
      by_cases hmn : m = name
      · subst hmn
        simp [unreleased_begin, hcount] at hbelow ⊢
        omega
      · simpa [unreleased_begin, hmn, Ne.symm hmn] using ⟨hcount, hle⟩
  · exact h

theorem Inv.release (k : Nat) : Inv maxNamed (step s (.release k)) := by
  simp only [step]
  split
  · rename_i name hk
    have hall := unreleased_release (fun _ => true) hk
    have hactive := h.active
    simp only [if_true] at hall
    -- There is an unreleased operation, so the channel was not closed before.
    have hopen : s.group.done = false := by
      rw [Bool.eq_false_iff, ne_eq, h.done]
      omega
    rw [release_eq]
    refine ⟨by simp only; omega, by simp [hopen], h.calm, h.limit, fun hpos m hm => ?_⟩
    obtain ⟨hnamed, hle⟩ := h.named hpos m hm
    have hm' := unreleased_release (· = m) hk
    by_cases hmn : m = name
    · subst hmn
      simp [hm] at hm' ⊢
      omega
    · by_cases hname : name = "" <;> simp [hmn, Ne.symm hmn, hname, hm] at hm' ⊢ <;> omega
  · exact h

theorem Inv.step (x : Step) : Inv maxNamed (step s x) := by
  cases x with
  | begin name => exact h.begin name
  | call k =>
    simp only [DrainGroup.step]
    exact ⟨by rw [unreleased_call, h.active], h.done, h.calm, h.limit,
      by simpa [unreleased_call] using h.named⟩
  | release k => exact h.release k
  | startDrain =>
    simp only [DrainGroup.step, startDrain_eq]
    have hdone := h.done
    refine ⟨h.active, ?_, h.calm, h.limit, h.named⟩
    cases hdrain : s.group.draining <;> simp_all
  | setClosed => exact ⟨h.active, h.done, h.calm, h.limit, h.named⟩

end

theorem step_done {s : State} (h : s.group.done = true) (x : Step) : (step s x).group.done = true := by
  cases x with
  | begin name =>
    simp only [step]
    split
    · rename_i group hbegin
      obtain ⟨-, named, rfl, -⟩ := beginNamed_ok hbegin
      exact h
    · exact h
  | release k =>
    simp only [step]
    split
    · simp [release_eq, h]
    · exact h
  | startDrain => simp [step, startDrain_eq, h]
  | call k | setClosed => exact h

/-- The state after the first `i` steps. -/
abbrev stateAt (maxNamed : Int) (xs : List Step) (i : Nat) : State :=
  Run.stateAt step { group := .new maxNamed } xs i

theorem inv (maxNamed : Int) (xs : List Step) (i : Nat) : Inv maxNamed (stateAt maxNamed xs i) := by
  refine Run.invariant (C := fun _ => True) (fun _ x h _ => h.step x) ?_ (fun _ _ => trivial) i
  exact ⟨rfl, by simp [new], rfl, rfl, fun hpos _ _ => ⟨rfl, Int.le_of_lt hpos⟩⟩

/-- **The accounts of a drain group.** In every state: the active operations are those whose release
function has not had its critical section; the channel is closed exactly when draining has started and
there is none, it is never closed twice, and stays so; and no name has too many of them. -/
theorem drain_accounts (maxNamed : Int) (xs : List Step) :
    let s := stateAt maxNamed xs
    (∀ i, (s i).group.active = unreleased (fun _ => true) (s i).ops ∧ 0 ≤ (s i).group.active) ∧
    (∀ i, (s i).group.done = true ↔ (s i).group.draining = true ∧ (s i).group.active = 0) ∧
    (∀ i, (s i).group.panicked = false) ∧
    (∀ i j, i ≤ j → (s i).group.done = true → (s j).group.done = true ∧ (s j).group.active = 0) ∧
    (0 < maxNamed → ∀ i name, name ≠ "" → (unreleased (· = name) (s i).ops : Int) ≤ maxNamed) := by
  intro s
  have hkept {i j : Nat} (hij : i ≤ j) (hi : (s i).group.done = true) : (s j).group.done = true :=
    Run.kept (I := fun s : State => s.group.done = true) hi hij fun _ x _ _ _ h => step_done h x
  refine ⟨fun i => ?_, fun i => (inv maxNamed xs i).done, fun i => (inv maxNamed xs i).calm,
    fun i j hij hi => ?_, fun hpos i name hname => ?_⟩
  · have h := (inv maxNamed xs i).active
    exact ⟨h, by simp only [s]; omega⟩
  · exact ⟨hkept hij hi, ((inv maxNamed xs j).done.mp (hkept hij hi)).2⟩
  · obtain ⟨hcount, hle⟩ := (inv maxNamed xs i).named hpos name hname
    rwa [hcount] at hle

/-- The release function of the only operation has been called, but does not have the mutex yet. -/
theorem release_waits :
    let s := stateAt 0 [.begin "a", .call 0] 2
    s.ops.countP (fun op => !op.called) = 0 ∧ s.group.active = 1 := by decide

end ShiftLock.DrainGroup
