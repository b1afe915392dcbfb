import Mathlib.Data.List.Induction

/-!
# Hash chains

In a hash chain every record holds the hash of the one before it, and the first one a fixed value.
A record is known by a key that its hash determines and that determines the hash it holds.

* `Linked.map_eq_of_tip`: two chains of one length with the same last hash have the same keys and
  hashes throughout.
* `Linked.length_eq_of_tip`: if no hash is the fixed value, the same last hash implies the same
  length.
-/

namespace ShiftLock.HashChain

universe u v w

variable {R : Type u} {H : Type v} {K : Type w} (prev hash : R → H)

/-- Every record holds the hash of the one before it, and the first one holds `z`. -/
def Linked : H → List R → Prop
  | _, [] => True
  | z, r :: l => prev r = z ∧ Linked (hash r) l

/-- The last hash of a chain that starts from `z`. -/
def tip (z : H) (l : List R) : H := (l.getLast?.map hash).getD z

variable {prev hash} {z : H} {l l' : List R} {r : R}

@[simp] theorem tip_nil : tip hash z [] = z := rfl

@[simp] theorem tip_concat : tip hash z (l ++ [r]) = hash r := by simp [tip]

theorem tip_cons : tip hash z (r :: l) = tip hash (hash r) l := by
  unfold tip
  cases l with
  | nil => rfl
  | cons s l => simp [List.getLast?_cons]

theorem linked_append :
    Linked prev hash z (l ++ l') ↔ Linked prev hash z l ∧ Linked prev hash (tip hash z l) l' := by
  induction l generalizing z with
  | nil => simp [Linked]
  | cons s l ih => rw [List.cons_append, Linked, Linked, ih, tip_cons, and_assoc]

theorem linked_map {R' : Type u} {f : R' → R} {m : List R'} :
    Linked prev hash z (m.map f) ↔ Linked (prev ∘ f) (hash ∘ f) z m := by
  induction m generalizing z with
  | nil => exact Iff.rfl
  | cons s m ih => rw [List.map_cons, Linked, Linked, ih]; rfl

theorem linked_concat :
    Linked prev hash z (l ++ [r]) ↔ Linked prev hash z l ∧ prev r = tip hash z l := by
  rw [linked_append]
  simp [Linked]

/-- What is known of the keys of two lists of records. -/
structure Keyed (prev hash : R → H) (key : R → K) (l l' : List R) : Prop where
  /-- Within the two lists a hash determines the key. -/
  keys : ∀ r ∈ l, ∀ r' ∈ l', hash r = hash r' → key r = key r'
  prevs : ∀ r r' : R, key r = key r' → prev r = prev r'

variable {key : R → K}

theorem Keyed.left_right {m m' : List R} (h : Keyed prev hash key l l') (hm : ∀ r ∈ m, r ∈ l)
    (hm' : ∀ r ∈ m', r ∈ l') : Keyed prev hash key m m' :=
  ⟨fun r hr r' hr' => h.keys r (hm r hr) r' (hm' r' hr'), h.prevs⟩

/-- Two chains that end in the same hash end in records of one key, before which the hashes are the
same again. -/
theorem Keyed.concat {r' : R} (hk : Keyed prev hash key (l ++ [r]) (l' ++ [r']))
    (hl : Linked prev hash z (l ++ [r])) (hl' : Linked prev hash z (l' ++ [r']))
    (h : hash r = hash r') : key r = key r' ∧ tip hash z l = tip hash z l' := by
  have hkey : key r = key r' := hk.keys r (by simp) r' (by simp) h
  have hprev : prev r = prev r' := hk.prevs r r' hkey
  rw [(linked_concat.mp hl).2, (linked_concat.mp hl').2] at hprev
  exact ⟨hkey, hprev⟩

/-- **Two chains of one length with the same last hash have the same keys and hashes.** -/
theorem Linked.map_eq_of_tip (hk : Keyed prev hash key l l') (hl : Linked prev hash z l)
    (hl' : Linked prev hash z l') (hlen : l.length = l'.length)
    (htip : tip hash z l = tip hash z l') :
    l.map (fun r => (key r, hash r)) = l'.map fun r => (key r, hash r) := by
  induction l using List.reverseRecOn generalizing l' with
  | nil => simp [List.length_eq_zero_iff.mp hlen.symm]
  | append_singleton l r ih =>
    cases l' using List.reverseRecOn with
    | nil => simp at hlen
    | append_singleton l' r' =>
      simp only [tip_concat] at htip
      obtain ⟨hkey, hrest⟩ := hk.concat hl hl' htip
      have hmap := ih (hk.left_right (by simp +contextual) (by simp +contextual))
        (linked_concat.mp hl).1 (linked_concat.mp hl').1 (by simpa using hlen) hrest
      rw [List.map_append, List.map_append, hmap, List.map_singleton, List.map_singleton, hkey, htip]

/-- **Two chains with the same last hash have the same length if no hash is the value they start
from.** -/
theorem Linked.length_eq_of_tip (hk : Keyed prev hash key l l') (hl : Linked prev hash z l)
    (hl' : Linked prev hash z l') (hz : ∀ r ∈ l, hash r ≠ z) (hz' : ∀ r ∈ l', hash r ≠ z)
    (htip : tip hash z l = tip hash z l') : l.length = l'.length := by
  induction l using List.reverseRecOn generalizing l' with
  | nil =>
    cases l' using List.reverseRecOn with
    | nil => rfl
    | append_singleton l' r' =>
      simp only [tip_nil, tip_concat] at htip
      exact absurd htip.symm (hz' r' (by simp))
  | append_singleton l r ih =>
    cases l' using List.reverseRecOn with
    | nil =>
      simp only [tip_nil, tip_concat] at htip
      exact absurd htip (hz r (by simp))
    | append_singleton l' r' =>
      simp only [tip_concat] at htip
      have hrest := (hk.concat hl hl' htip).2
      have hlen := ih (hk.left_right (by simp +contextual) (by simp +contextual))
        (linked_concat.mp hl).1 (linked_concat.mp hl').1 (fun s hs => hz s (by simp [hs]))
        (fun s hs => hz' s (by simp [hs])) hrest
      simp [hlen]

end ShiftLock.HashChain
