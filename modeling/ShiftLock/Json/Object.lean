import Mathlib.Data.List.Pairwise
import Mathlib.Order.Lattice

/-!
# Sorted lists as maps

A map from `κ` to `α` as the list of its entries in the order of their keys. `insert` assigns a value to
a key, and `ofList` assigns the entries of a list one after the other, so that the last entry of a key
wins. The result is sorted (`ofList_sorted`), and a sorted list is the map of itself
(`ofList_of_sorted`).

A record writes each of its fields under a key of its own, or leaves it out. `ofFields_injective`: the
map of a record determines all its fields.
-/

namespace Json
namespace Object

variable {κ α : Type} [LinearOrder κ]

/-- The value of a key. -/
def find (k : κ) : List (κ × α) → Option α
  | [] => none
  | e :: m => if k = e.1 then some e.2 else find k m

/-- Assigns a value to a key. -/
def insert (k : κ) (v : α) : List (κ × α) → List (κ × α)
  | [] => [(k, v)]
  | e :: m => if k < e.1 then (k, v) :: e :: m else if k = e.1 then (k, v) :: m else e :: insert k v m

/-- The map of the entries of a list; the last one of a key wins. -/
def ofList (l : List (κ × α)) : List (κ × α) := l.foldl (fun m e => insert e.1 e.2 m) []

/-- The entries are in the order of their keys. -/
def Sorted (m : List (κ × α)) : Prop := m.Pairwise fun e e' => e.1 < e'.1

/-! ## Lookup -/

variable {k : κ} {m l : List (κ × α)} {e : κ × α} {fs : List (κ × Option α)}

theorem find_none (h : ∀ e ∈ m, k ≠ e.1) : find k m = none := by
  induction m with
  | nil => rfl
  | cons e m ih =>
    rw [find, if_neg (h e List.mem_cons_self)]
    exact ih fun e' he' => h e' (List.mem_cons_of_mem _ he')

theorem find_insert_self (k : κ) (v : α) (m : List (κ × α)) : find k (insert k v m) = some v := by
  induction m with
  | nil => simp [insert, find]
  | cons e m ih =>
    rw [insert]
    split
    · simp [find]
    split
    · simp [find]
    · rename_i hne
      rw [find, if_neg hne, ih]

theorem find_insert_ne {k' : κ} (h : k' ≠ k) (v : α) (m : List (κ × α)) :
    find k' (insert k v m) = find k' m := by
  induction m with
  | nil => simp [insert, find, h]
  | cons e m ih =>
    rw [insert]
    split
    · rw [find, if_neg h]
    split
    · rename_i heq
      rw [find, if_neg h, find, if_neg (heq ▸ h)]
    · rw [find, find, ih]

theorem find_foldl (hl : (l.map Prod.fst).Nodup) (m : List (κ × α)) :
    find k (l.foldl (fun m e => insert e.1 e.2 m) m) = (find k l).or (find k m) := by
  induction l generalizing m with
  | nil => simp [find]
  | cons e l ih =>
    obtain ⟨hnot, hl⟩ := List.nodup_cons.mp hl
    rw [List.foldl_cons, ih hl, find]
    split
    · rename_i heq
      subst heq
      have hnone : find e.1 l = none :=
        find_none fun e' he' heq => hnot (heq ▸ List.mem_map_of_mem he')
      rw [hnone, find_insert_self]
      rfl
    · rename_i hne
      rw [find_insert_ne hne]

theorem find_ofList (hl : (l.map Prod.fst).Nodup) : find k (ofList l) = find k l := by
  rw [ofList, find_foldl hl]
  simp [find]

/-! ## Order -/

theorem insert_mem {v : α} (h : e ∈ insert k v m) : e = (k, v) ∨ e ∈ m := by
  induction m with
  | nil => exact .inl (List.mem_singleton.mp h)
  | cons e' m ih =>
    rw [insert] at h
    split at h
    · exact List.mem_cons.mp h
    split at h
    · rcases List.mem_cons.mp h with rfl | hmem
      · exact .inl rfl
      · exact .inr (List.mem_cons_of_mem _ hmem)
    · rcases List.mem_cons.mp h with rfl | hmem
      · exact .inr List.mem_cons_self
      · exact (ih hmem).imp_right (List.mem_cons_of_mem _)

theorem mem_ofList (h : e ∈ ofList l) : e ∈ l := by
  have hfold : ∀ l m : List (κ × α), e ∈ l.foldl (fun m e => insert e.1 e.2 m) m → e ∈ l ∨ e ∈ m := by
    intro l
    induction l with
    | nil => exact fun m hm => .inr hm
    | cons e' l ih =>
      intro m hm
      rcases ih _ hm with hl | hm
      · exact .inl (List.mem_cons_of_mem _ hl)
      · rcases insert_mem hm with rfl | hm
        · exact .inl List.mem_cons_self
        · exact .inr hm
  exact (hfold l [] h).resolve_right List.not_mem_nil

theorem Sorted.insert (h : Sorted m) (k : κ) (v : α) : Sorted (Object.insert k v m) := by
  induction m with
  | nil => exact List.pairwise_singleton _ _
  | cons e m ih =>
    obtain ⟨hhead, htail⟩ := List.pairwise_cons.mp h
    rw [Object.insert]
    split
    · rename_i hlt
      refine List.pairwise_cons.mpr ⟨fun e' he' => ?_, h⟩
      rcases List.mem_cons.mp he' with rfl | hmem
      · exact hlt
      · exact lt_trans hlt (hhead e' hmem)
    rename_i hnlt
    split
    · rename_i heq
      subst heq
      exact List.pairwise_cons.mpr ⟨hhead, htail⟩
    · rename_i hne
      refine List.pairwise_cons.mpr ⟨fun e' he' => ?_, ih htail⟩
      rcases insert_mem he' with rfl | hmem
      · exact lt_of_le_of_ne (not_lt.mp hnlt) (Ne.symm hne)
      · exact hhead e' hmem

theorem ofList_sorted (l : List (κ × α)) : Sorted (ofList l) := by
  have hfold : ∀ m : List (κ × α), Sorted m → Sorted (l.foldl (fun m e => Object.insert e.1 e.2 m) m) := by
    induction l with
    | nil => exact fun m hm => hm
    | cons e l ih => exact fun m hm => ih _ (hm.insert e.1 e.2)
  exact hfold [] List.Pairwise.nil

theorem insert_append (h : ∀ e ∈ m, e.1 < k) (v : α) : insert k v m = m ++ [(k, v)] := by
  induction m with
  | nil => rfl
  | cons e m ih =>
    have hlt := h e List.mem_cons_self
    rw [insert, if_neg (not_lt_of_gt hlt), if_neg (ne_of_gt hlt),
      ih fun e' he' => h e' (List.mem_cons_of_mem _ he')]
    rfl

theorem ofList_of_sorted (h : Sorted m) : ofList m = m := by
  have hfold : ∀ m' : List (κ × α), Sorted (m' ++ m) →
      m.foldl (fun m e => insert e.1 e.2 m) m' = m' ++ m := by
    clear h
    induction m with
    | nil => exact fun m' _ => (List.append_nil m').symm
    | cons e m ih =>
      intro m' hsorted
      have hlt : ∀ e' ∈ m', e'.1 < e.1 := fun e' he' =>
        (List.pairwise_append.mp hsorted).2.2 e' he' e List.mem_cons_self
      rw [List.foldl_cons, insert_append hlt, ih _ (by simpa using hsorted)]
      simp
  exact hfold [] h

theorem insert_ne_nil (k : κ) (v : α) (m : List (κ × α)) : insert k v m ≠ [] := by
  intro h
  have hfind := find_insert_self k v m
  rw [h] at hfind
  cases hfind

theorem ofList_eq_nil : ofList l = [] ↔ l = [] := by
  have hfold : ∀ (l m : List (κ × α)), m ≠ [] → l.foldl (fun m e => insert e.1 e.2 m) m ≠ [] := by
    intro l
    induction l with
    | nil => exact fun m hm => hm
    | cons e l ih => exact fun m _ => ih _ (insert_ne_nil e.1 e.2 m)
  cases l with
  | nil => exact iff_of_true rfl rfl
  | cons e l => exact iff_of_false (hfold l _ (insert_ne_nil e.1 e.2 [])) (List.cons_ne_nil e l)

/-! ## Records -/

/-- The members of a record: its fields that are not left out. -/
def present (fs : List (κ × Option α)) : List (κ × α) := fs.filterMap fun f => f.2.map (f.1, ·)

/-- The map of a record. -/
def ofFields (fs : List (κ × Option α)) : List (κ × α) := ofList (present fs)

omit [LinearOrder κ] in
theorem mem_present (h : e ∈ present fs) : (e.1, some e.2) ∈ fs := by
  obtain ⟨f, hf, hmap⟩ := List.mem_filterMap.mp h
  obtain ⟨k, o⟩ := f
  obtain ⟨v, hv, rfl⟩ := Option.map_eq_some_iff.mp hmap
  exact hv ▸ hf

omit [LinearOrder κ] in
theorem present_keys (h : e ∈ present fs) : e.1 ∈ fs.map Prod.fst :=
  List.mem_map_of_mem (mem_present h)

omit [LinearOrder κ] in
theorem present_nodup (h : (fs.map Prod.fst).Nodup) : ((present fs).map Prod.fst).Nodup := by
  induction fs with
  | nil => exact List.nodup_nil
  | cons f fs ih =>
    obtain ⟨k, o⟩ := f
    obtain ⟨hnot, hfs⟩ := List.nodup_cons.mp h
    cases o with
    | none => exact ih hfs
    | some v =>
      refine List.nodup_cons.mpr ⟨fun hmem => ?_, ih hfs⟩
      obtain ⟨e, he, heq⟩ := List.mem_map.mp hmem
      exact hnot (heq ▸ present_keys he)

theorem find_present_none (h : k ∉ fs.map Prod.fst) : find k (present fs) = none :=
  find_none fun _ he heq => h (heq ▸ present_keys he)

theorem find_present_head {o : Option α} (h : k ∉ fs.map Prod.fst) :
    find k (present ((k, o) :: fs)) = o := by
  cases o with
  | some v => simp [present, find]
  | none => exact (find_present_none h : find k (present fs) = none)

theorem find_present_tail {k' : κ} (h : k' ≠ k) (o : Option α) (fs : List (κ × Option α)) :
    find k' (present ((k, o) :: fs)) = find k' (present fs) := by
  cases o with
  | some v => simp [present, find, h]
  | none => rfl

/-- The map of a record determines its fields. -/
theorem ofFields_injective {fs' : List (κ × Option α)} (hnodup : (fs.map Prod.fst).Nodup)
    (hkeys : fs.map Prod.fst = fs'.map Prod.fst) (h : ofFields fs = ofFields fs') : fs = fs' := by
  have hfind : ∀ k, find k (present fs) = find k (present fs') := by
    intro k
    rw [← find_ofList (present_nodup hnodup), ← find_ofList (present_nodup (hkeys ▸ hnodup))]
    exact congrArg (find k) h
  clear h
  induction fs generalizing fs' with
  | nil =>
    cases fs' with
    | nil => rfl
    | cons f' fs' => cases hkeys
  | cons f fs ih =>
    cases fs' with
    | nil => cases hkeys
    | cons f' fs' =>
      obtain ⟨k, o⟩ := f
      obtain ⟨k', o'⟩ := f'
      obtain ⟨hk, hrest⟩ := List.cons.inj hkeys
      obtain rfl : k = k' := hk
      obtain ⟨hnot, hnodup⟩ := List.nodup_cons.mp hnodup
      have hnot' : k ∉ fs'.map Prod.fst := hrest ▸ hnot
      have hhead : o = o' := by
        rw [← find_present_head (o := o) hnot, ← find_present_head (o := o') hnot']
        exact hfind k
      have htail : ∀ k', find k' (present fs) = find k' (present fs') := by
        intro k'
        by_cases heq : k' = k
        · rw [heq, find_present_none hnot, find_present_none hnot']
        · rw [← find_present_tail heq o fs, ← find_present_tail heq o' fs', hfind]
      rw [hhead, ih hnodup hrest htail]

end Object
end Json
