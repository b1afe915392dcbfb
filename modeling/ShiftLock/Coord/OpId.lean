import ShiftLock.Coord.Flow

/-!
# Operation IDs of one coordinator

The number at the end of an operation ID determines it among the IDs of a generation, whatever the
names contain (`opID_number`). One coordinator never uses a number twice, so as long as the other
clients of the backend keep to their own IDs, no claim operation of the coordinator is answered
from the operation table (`Fresh`, `fresh_at`, `Fresh.call`).
-/

namespace ShiftLock

open Function

/-! ## The number of an ID -/

/-- The number that a list of digits stands for, after the digits of `acc`. -/
def digitsValue (acc : Nat) (l : List Char) : Nat :=
  l.foldl (fun v c => v * 10 + (c.toNat - '0'.toNat)) acc

theorem digit_spec : ∀ d < 10, (Char.ofNat ('0'.toNat + d)).toNat - '0'.toNat = d ∧
    Char.ofNat ('0'.toNat + d) ≠ ':' := by
  decide

theorem value_itoaLoop {fuel n : Nat} (h : n ≤ fuel) (b : List Char) :
    digitsValue 0 (itoaLoop fuel n b) = digitsValue n b := by
  induction fuel generalizing n b with
  | zero =>
    have : n = 0 := by omega
    subst this
    rfl
  | succ fuel ih =>
    unfold itoaLoop
    split
    · rename_i h0; rw [h0]
    · rw [ih (by omega)]
      simp only [digitsValue, List.foldl_cons]
      rw [(digit_spec (n % 10) (by omega)).1, show n / 10 * 10 + n % 10 = n by omega]

theorem colon_not_mem_itoaLoop (fuel n : Nat) {b : List Char} (h : ':' ∉ b) :
    ':' ∉ itoaLoop fuel n b := by
  induction fuel generalizing n b with
  | zero => exact h
  | succ fuel ih =>
    unfold itoaLoop
    split
    · exact h
    · refine ih _ ?_
      rw [List.mem_cons, not_or]
      exact ⟨(digit_spec (n % 10) (by omega)).2.symm, h⟩

theorem itoa64_spec (n : Nat) : digitsValue 0 (itoa64 n).toList = n ∧ ':' ∉ (itoa64 n).toList := by
  unfold itoa64
  split
  · rename_i h; subst h; decide
  · rw [String.toList_ofList]
    exact ⟨value_itoaLoop (Nat.le_refl n) [], colon_not_mem_itoaLoop n n (by simp)⟩

/-- The part behind the last colon. -/
theorem last_segment {p p' d d' : List Char} (h : p ++ ':' :: d = p' ++ ':' :: d')
    (hd : ':' ∉ d) (hd' : ':' ∉ d') : d = d' := by
  have key : ∀ {p e : List Char}, ':' ∉ e →
      (p ++ ':' :: e).reverse.takeWhile (· ≠ ':') = e.reverse := by
    intro p e he
    rw [List.reverse_append, List.reverse_cons, List.append_assoc, List.takeWhile_append_of_pos]
    · simp
    · intro c hc
      simp only [ne_eq, decide_eq_true_eq]
      rintro rfl
      exact he (List.mem_reverse.mp hc)
  have hk := key (p := p) hd
  rw [h, key hd'] at hk
  exact (List.reverse_injective hk).symm

theorem opID_number {g op op' claim claim' : String} {n n' : Nat}
    (h : opID g op claim n = opID g op' claim' n') : n = n' := by
  have hl : ∀ op claim n, (opID g op claim n).toList =
      (g ++ ":" ++ op ++ ":" ++ claim).toList ++ ':' :: (itoa64 n).toList := fun _ _ _ => by
    simp [opID]
  have hd := last_segment (by rw [← hl, ← hl, h]) (itoa64_spec n).2 (itoa64_spec n').2
  rw [← (itoa64_spec n).1, hd, (itoa64_spec n').1]

/-- The operation has an ID that the coordinator of the generation does not build. -/
def Memory.Op.Foreign (genID : String) (op : Memory.Op) : Prop :=
  ∀ op' claim n, op.operationID ≠ some (opID genID op' claim n)

/-- The coordinator belongs to the configuration, and the operation table has none of the IDs that
it will build. -/
structure World.Ready (cfg : Config) (w : World) : Prop where
  genID : w.genID = cfg.generationID
  unused : ∀ op claim n, w.coord.opSeq < n →
    w.backend.ops (opID cfg.generationID op claim n) = none

namespace Coord

/-! ## IDs in flight -/

/-- The IDs that threads have built and not used: they are not in the table, and no two threads
have the same one. -/
structure Fresh (cfg : Config) (w : World) (G : Nat → Option Flow) : Prop extends
    World.Ready cfg w where
  issued : ∀ u f id, G u = some f → f.opID = some id →
    (∃ op claim n, id = opID cfg.generationID op claim n ∧ n ≤ w.coord.opSeq) ∧
      w.backend.ops id = none
  distinct : ∀ u v f f' id, G u = some f → G v = some f' → f.opID = some id →
    f'.opID = some id → u = v

variable {cfg : Config} {w w' : World} {G G' : Nat → Option Flow} {e : Env} {u : Nat} {f : Flow}
  {a : Act}

/-- Nothing changes that the invariant speaks of. -/
theorem Fresh.congr (h : Fresh cfg w G) (hops : w'.backend.ops = w.backend.ops)
    (hseq : w'.coord.opSeq = w.coord.opSeq) (hgen : w'.genID = w.genID)
    (hG : ∀ u f' id, G' u = some f' → f'.opID = some id → ∃ f, G u = some f ∧ f.opID = some id) :
    Fresh cfg w' G' where
  genID := hgen.trans h.genID
  unused op claim n hn := by rw [hops]; exact h.unused op claim n (by omega)
  issued u f' id hu hid := by
    obtain ⟨f, hf, hfid⟩ := hG u f' id hu hid
    rw [hops, hseq]
    exact h.issued u f id hf hfid
  distinct u v f₁ f₂ id hu hv hid hid' := by
    obtain ⟨g₁, hg₁, hgid₁⟩ := hG u f₁ id hu hid
    obtain ⟨g₂, hg₂, hgid₂⟩ := hG v f₂ id hv hid'
    exact h.distinct u v g₁ g₂ id hg₁ hg₂ hgid₁ hgid₂

/-- A thread at the start of a task has no ID. -/
theorem Fresh.start (h : Fresh cfg w G) (v : Nat) :
    Fresh cfg w (update G v (some {})) := by
  refine h.congr rfl rfl rfl fun u f' id hu hid => ?_
  by_cases huv : u = v
  · subst huv
    rw [update_self] at hu
    cases hu
    cases hid
  · exact ⟨f', by rwa [update_of_ne huv] at hu, hid⟩

variable {id : OperationID} {op : Memory.Op}

/-- The operation table gets an entry that no thread waits for and no ID will need. -/
theorem Fresh.stores (h : Fresh cfg w G) {b : Memory.Backend} (hs : Memory.Stores id w.backend b)
    (hid : ∀ op claim n, id = opID cfg.generationID op claim n → n ≤ w.coord.opSeq)
    (hG : ∀ v f', G' v = some f' → f'.opID ≠ none → G v = some f' ∧ f'.opID ≠ some id) :
    Fresh cfg { w with backend := b } G' where
  genID := h.genID
  unused op claim n hn := by
    by_contra hne
    have hlt : w.coord.opSeq < n := hn
    have := hid op claim n (hs.id_eq (h.unused op claim n hn) hne).symm
    omega
  issued v f' id' hv hid' := by
    obtain ⟨hGv, hne'⟩ := hG v f' hv (by simp [hid'])
    obtain ⟨hform, hnone⟩ := h.issued v f' id' hGv hid'
    refine ⟨hform, ?_⟩
    by_contra hne
    exact hne' (by rw [hid', hs.id_eq hnone hne])
  distinct v v' f₁ f₂ id' hv hv' hid₁ hid₂ :=
    h.distinct v v' f₁ f₂ id' (hG v f₁ hv (by simp [hid₁])).1 (hG v' f₂ hv' (by simp [hid₂])).1
      hid₁ hid₂

theorem Fresh.newOpID (h : Fresh cfg w G) (op claim : String) :
    Fresh cfg (exec cfg (.newOpID op claim) e w).1
      (update G u (some (f.after (.newOpID op claim) (exec cfg (.newOpID op claim) e w).2)))
    where
  genID := h.genID
  unused op' claim' n hn := h.unused op' claim' n (Nat.lt_of_succ_lt hn)
  issued v f' id hv hid := by
    by_cases hvu : v = u
    · subst hvu
      rw [update_self] at hv
      cases hv
      cases hid
      refine ⟨⟨op, claim, w.coord.opSeq + 1, ?_, Nat.le_refl _⟩, ?_⟩
      · rw [← h.genID]; rfl
      · have := h.unused op claim (w.coord.opSeq + 1) (Nat.lt_succ_self _)
        rwa [← h.genID] at this
    · rw [update_of_ne hvu] at hv
      obtain ⟨⟨op', claim', n, hn, hle⟩, hnone⟩ := h.issued v f' id hv hid
      exact ⟨⟨op', claim', n, hn, Nat.le_succ_of_le hle⟩, hnone⟩
  distinct v v' f₁ f₂ id hv hv' hid₁ hid₂ := by
    -- The new number is larger than every number in flight.
    have hnew : ∀ {v f' id}, G v = some f' → f'.opID = some id →
        id ≠ opID cfg.generationID op claim (w.coord.opSeq + 1) := by
      rintro v f' id hv hid rfl
      obtain ⟨⟨op', claim', n, hn, hle⟩, -⟩ := h.issued v f' _ hv hid
      have := opID_number hn
      omega
    have hid : ∀ {f'}, (some (f.after (.newOpID op claim) (exec cfg (.newOpID op claim) e w).2)) =
        some f' → f'.opID = some id → id = opID cfg.generationID op claim (w.coord.opSeq + 1) := by
      rintro f' hf hid
      cases hf
      cases hid
      rw [← h.genID]; rfl
    by_cases h₁ : v = u <;> by_cases h₂ : v' = u
    · rw [h₁, h₂]
    · subst h₁
      rw [update_self] at hv
      rw [update_of_ne h₂] at hv'
      exact absurd (hid hv hid₁) (hnew hv' hid₂)
    · subst h₂
      rw [update_self] at hv'
      rw [update_of_ne h₁] at hv
      exact absurd (hid hv' hid₂) (hnew hv hid₁)
    · rw [update_of_ne h₁] at hv
      rw [update_of_ne h₂] at hv'
      exact h.distinct v v' f₁ f₂ id hv hv' hid₁ hid₂

theorem Fresh.call (h : Fresh cfg w G) (hu : G u = some f) (ha : Flow.allows cfg f (.call op)) :
    Fresh cfg (exec cfg (.call op) e w).1
      (update G u (some (f.after (.call op) (exec cfg (.call op) e w).2))) := by
  -- The thread has no ID any more; the others are as they were.
  have hG : ∀ (r : Memory.Reply) v f',
      update G u (some (f.after (.call op) r)) v = some f' → f'.opID ≠ none →
        G v = some f' ∧ v ≠ u := by
    intro r v f' hv hne
    by_cases hvu : v = u
    · subst hvu
      rw [update_self] at hv
      cases hv
      exact absurd rfl hne
    · exact ⟨by rwa [update_of_ne hvu] at hv, hvu⟩
  have hsame : ∀ w' : World, w'.backend.ops = w.backend.ops → w'.coord = w.coord →
      ∀ r : Memory.Reply, Fresh cfg w' (update G u (some (f.after (.call op) r))) := by
    intro w' hops hcoord r
    refine h.congr hops (by rw [hcoord]) (by rw [World.genID, hcoord]; rfl) fun v f' id hv hid => ?_
    exact ⟨f', (hG r v f' hv (by simp [hid])).1, hid⟩
  unfold exec
  cases he : e.fault with
  | some err => exact hsame w rfl rfl _
  | none =>
    rcases w.backend.locked_ops e.call op with hops | ⟨id, hid, hs⟩
    · exact hsame { w with backend := (w.backend.locked e.call op).1 } hops rfl _
    · have hfid : f.opID = some id := by
        rcases ha.1 op rfl with hn | ⟨hn, -⟩
        · rw [hid] at hn; cases hn
        · rw [← hn, hid]
      obtain ⟨⟨op', claim', m, hm, hle⟩, -⟩ := h.issued u f id hu hfid
      refine h.stores hs (fun op claim n hn => ?_) fun v f' hv hne => ?_
      · have := opID_number (hn.symm.trans hm)
        omega
      · obtain ⟨hv, hvu⟩ := hG _ v f' hv hne
        exact ⟨hv, fun hid' => hvu (h.distinct v u f' f id hv hu hid' hfid)⟩

/-- Every action of a thread keeps the invariant. -/
theorem Fresh.act (h : Fresh cfg w G) (hu : G u = some f) (ha : Flow.allows cfg f a) :
    Fresh cfg (exec cfg a e w).1
      (update G u (some (f.after a (exec cfg a e w).2))) := by
  by_cases hn : ∃ op claim, a = .newOpID op claim
  · obtain ⟨op, claim, rfl⟩ := hn
    exact h.newOpID op claim
  by_cases hc : ∃ op, a = .call op
  · obtain ⟨op, rfl⟩ := hc
    exact h.call hu ha
  push Not at hn hc
  refine h.congr (by rw [exec_backend cfg e w hc]) (exec_opSeq cfg e w hn) (exec_genID cfg e w a)
    fun v f' id hv hid => ?_
  by_cases hvu : v = u
  · subst hvu
    rw [update_self] at hv
    cases hv
    exact ⟨f, hu, by rwa [Flow.after_opID f hn hc] at hid⟩
  · exact ⟨f', by rwa [update_of_ne hvu] at hv, hid⟩

theorem Fresh.outside (h : Fresh cfg w G) {x : Outside}
    (hx : ∀ c op, x = .client c op → op.Foreign cfg.generationID) :
    Fresh cfg (Coord.outside x w) G := by
  cases x with
  | client c op =>
    rcases w.backend.apply_ops c op with hops | ⟨id, hid, hs⟩
    · exact h.congr hops rfl rfl fun u f id hu hid => ⟨f, hu, hid⟩
    · have hne : ∀ op' claim n, id ≠ opID cfg.generationID op' claim n := fun op' claim n e =>
        hx c op rfl op' claim n (by rw [hid, e])
      refine h.stores hs (fun op' claim n e => absurd e (hne op' claim n)) fun v f' hv _ => ⟨hv, ?_⟩
      intro hid'
      obtain ⟨⟨op', claim, n, hn, -⟩, -⟩ := h.issued v f' id hv hid'
      exact hne op' claim n hn
  | beginWork claim name | endWork claim name => exact h.congr rfl rfl rfl fun u f id hu hid => ⟨f, hu, hid⟩

/-- **Operation IDs are fresh** along every schedule in which the other clients keep to their own
IDs. -/
theorem fresh_at {xs : Schedule} (hw : w.Ready cfg)
    (hxs : ∀ c op, Conc.Move.env (.client c op) ∈ xs → op.Foreign cfg.generationID) {i : Nat}
    (hi : i ≤ xs.length) : Fresh cfg (stateAt cfg w xs i).shared (watchAt cfg w xs i) := by
  refine Conc.Run.along (J := fun i => Fresh cfg (stateAt cfg w xs i).shared (watchAt cfg w xs i))
    { hw with issued := fun _ _ _ h => (by cases h), distinct := fun _ _ _ _ _ h => by cases h }
    (fun i x hx ih => ?_) hi
  have hmoved := moved_at cfg w hx
  generalize stateAt cfg w xs (i + 1) = c' at hmoved
  generalize watchAt cfg w xs (i + 1) = G' at hmoved
  cases hmoved with
  | idle => exact ih
  | start t => exact ih.start _
  | env y => exact ih.outside fun c op e => hxs c op (by rw [← e]; exact List.mem_of_getElem? hx)
  | jump u e th g t => exact ih.start u
  | act u e th g a k hth hp hg ha => exact ih.act hg ha
  | fork u e th g a k t hth hp hg ha => exact (ih.act hg ha).start _

/-- A claim operation that a thread performs now is not recalled from the table. -/
theorem Fresh.recallOp (h : Fresh cfg w G) (hu : G u = some f) (ha : Flow.allows cfg f (.call op))
    (hid : op.operationID = some id) : w.backend.recallOp id = none := by
  have hf : f.opID = some id := by
    rcases ha.1 op rfl with hn | ⟨hn, -⟩
    · rw [hid] at hn; cases hn
    · rw [← hn, hid]
  simp [Memory.Backend.recallOp, (h.issued u f id hu hf).2]

/-- A record that a claim operation returns is the stored one. -/
theorem Fresh.confirmed (h : Fresh cfg w G) {n : String} (hu : G u = some f)
    (ha : Flow.allows cfg f (.call op)) (hn : op.claimName = some n)
    (hid : op.operationID = some id) {record : ClaimRecord}
    (hr : (exec cfg (.call op) e w).2.result = .ok record) :
    (exec cfg (.call op) e w).1.backend.claims n = some record ∧ op.Confirms record := by
  unfold exec at hr ⊢
  cases he : e.fault with
  | some err =>
    simp only [he] at hr
    cases hr
  | none =>
    simp only [he] at hr ⊢
    exact Memory.Backend.locked_confirmed hn hid (h.recallOp hu ha hid) record hr

end Coord

/-! ## New coordinators -/

section

variable (cfg : Config) (now : Time) (b : Memory.Backend)

theorem World.new_claims : (new cfg now b).coord.claims = fun name => { name } := rfl

theorem World.new_ready
    (hb : ∀ op claim n, b.ops (opID cfg.generationID op claim n) = none) :
    (new cfg now b).Ready cfg := ⟨rfl, fun op claim n _ => hb op claim n⟩

end

end ShiftLock
