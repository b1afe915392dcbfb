import ShiftLock.Conc.Pool

/-!
# Calls made one after another

In a sequential schedule a task is started only when every thread has returned. A rule for such
schedules has two invariants (`Sys.Rule`): one for the state between two calls, and one for the state
during a call, which depends on the monitor state of the one thread that has not returned. Every state
of a sequential schedule meets one of the two (`Sys.Rule.holds`).

The same with other threads beside them: the tasks of a class `K` take turns, and everything else runs
at any time (`Sys.TakesTurns`, `Sys.TakesTurns.turns`). A rule is the case in which `K` has all tasks.
-/

namespace Conc

open Function

variable {A : Type} {R : A → Type} {σ ε ι T ρ Γ : Type}

def Config.idle (c : Config A R σ T ρ) : Bool :=
  (List.range c.clock).all fun u => (c.threads u).all fun th => th.result.isSome

/-- A task is started only when every thread has returned. -/
def Config.inTurn (c : Config A R σ T ρ) : Move ε ι T → Bool
  | .start _ => c.idle
  | _ => true

/-- The invariants of a system whose calls are made one after another: `Rest` between two calls and
`Busy` during one. `K` is a condition on the calls and `C` one on the actions. -/
structure Sys.Rule (S : Sys A R σ ε ι T ρ) (M : Prog.Monitor A R Γ) (init : T → Γ)
    (Q : T → Γ → ρ ⊕ T → Prop) (K : T → Bool) (C : A → ε → σ → Bool) (Rest : σ → Prop)
    (Busy : σ → Γ → Prop) : Prop where
  obeys : ∀ t, Prog.Obeys M (Q t) (S.code t) (init t)
  fork : ∀ a r, S.fork a r = none
  call : ∀ t w, K t = true → Rest w → Busy w (init t)
  act : ∀ a e w g, M.allows g a → C a e w = true → Busy w g →
    Busy (S.exec a e w).1 (M.after g a (S.exec a e w).2)
  jump : ∀ t t' w g, Q t g (.inr t') → Busy w g → Busy w (init t')
  ret : ∀ t x w g, Q t g (.inl x) → Busy w g → Rest w
  rest : ∀ x w, Rest w → Rest (S.env x w)
  busy : ∀ x w g, Busy w g → Busy (S.env x w) g

variable {S : Sys A R σ ε ι T ρ} {M : Prog.Monitor A R Γ} {init : T → Γ}
  {Q : T → Γ → ρ ⊕ T → Prop} {K : T → Bool} {C : A → ε → σ → Bool} {Rest : σ → Prop}
  {Busy : σ → Γ → Prop} {c c' : Config A R σ T ρ} {G G' : Nat → Option Γ}

/-- Every thread but `u` has returned. -/
def Config.OnlyAt (c : Config A R σ T ρ) (u : Nat) : Prop :=
  ∀ v th, v ≠ u → c.threads v = some th → th.result ≠ none

/-- What holds in every state of a sequential schedule. -/
structure InTurn (Rest : σ → Prop) (Busy : σ → Γ → Prop) (c : Config A R σ T ρ)
    (G : Nat → Option Γ) : Prop where
  rest : (∀ u th, c.threads u = some th → th.result ≠ none) → Rest c.shared
  busy : ∀ u th, c.threads u = some th → th.result = none →
    c.OnlyAt u ∧ ∃ g, G u = some g ∧ Busy c.shared g

/-! ## Calls in turn among other threads -/

/-- Every thread whose task is in `K` has returned. -/
def Config.idleOf (K : T → Bool) (c : Config A R σ T ρ) : Bool :=
  (List.range c.clock).all fun u => (c.threads u).all fun th => !K th.task || th.result.isSome

/-- Every thread but `u` whose task is in `K` has returned. -/
def Config.OnlyOf (K : T → Bool) (c : Config A R σ T ρ) (u : Nat) : Prop :=
  ∀ v th, v ≠ u → c.threads v = some th → K th.task = true → th.result ≠ none

/-- What holds in every state when the tasks in `K` take turns: `Rest` when each of them has returned,
and `Busy` with the monitor state of the one that has not. -/
structure Turns (K : T → Bool) (Rest : σ → Prop) (Busy : σ → Γ → Prop) (c : Config A R σ T ρ)
    (G : Nat → Option Γ) : Prop where
  rest : (∀ u th, c.threads u = some th → K th.task = true → th.result ≠ none) → Rest c.shared
  busy : ∀ u th, c.threads u = some th → K th.task = true → th.result = none →
    c.OnlyOf K u ∧ ∃ g, G u = some g ∧ Busy c.shared g

/-- What the moves of a schedule have to keep when the tasks in `K` take turns: `own` is an action of
such a task, and `beside` is any other move. -/
structure Sys.TakesTurns (S : Sys A R σ ε ι T ρ) (M : Prog.Monitor A R Γ) (init : T → Γ)
    (Q : T → Γ → ρ ⊕ T → Prop) (K : T → Bool) (s : σ) (xs : List (Move ε ι T))
    (Rest : Nat → σ → Prop) (Busy : Nat → σ → Γ → Prop) : Prop where
  obeys : ∀ t, Prog.Obeys M (Q t) (S.code t) (init t)
  fork : ∀ a r t, S.fork a r = some t → K t = false
  call : ∀ i t, xs[i]? = some (.start t) → K t = true →
    (S.stateAt s xs i).idleOf K = true ∧
      (Rest i (S.stateAt s xs i).shared → Busy (i + 1) (S.stateAt s xs i).shared (init t))
  own : ∀ i u e th g a, xs[i]? = some (.run u e) → (S.stateAt s xs i).threads u = some th →
    K th.task = true → th.next = some a → M.allows g a → Busy i (S.stateAt s xs i).shared g →
    Busy (i + 1) (S.exec a e (S.stateAt s xs i).shared).1
      (M.after g a (S.exec a e (S.stateAt s xs i).shared).2)
  jump : ∀ i t t' w g, Q t g (.inr t') →
    K t' = K t ∧ (K t = true → Busy i w g → Busy (i + 1) w (init t'))
  ret : ∀ i t x w g, K t = true → Q t g (.inl x) → Busy i w g → Rest i w
  beside : ∀ i x, xs[i]? = some x →
    (∀ u e th, x = .run u e → (S.stateAt s xs i).threads u = some th → th.next ≠ none →
      K th.task = false) →
    (Rest i (S.stateAt s xs i).shared → Rest (i + 1) (S.stateAt s xs (i + 1)).shared) ∧
      ∀ g, Busy i (S.stateAt s xs i).shared g → Busy (i + 1) (S.stateAt s xs (i + 1)).shared g

/-- The threads of `c'` with a task in `K` are those of `c`. -/
def Config.SameOf (K : T → Bool) (c c' : Config A R σ T ρ) : Prop :=
  ∀ v th, K th.task = true → (c'.threads v = some th ↔ c.threads v = some th)

variable {u : Nat} {th : Thread A R T ρ}

theorem Config.SameOf.update (hthreads : c'.threads = update c.threads u (some th))
    (hK : K th.task = false) (hold : ∀ th', c.threads u = some th' → K th'.task = false) :
    c.SameOf K c' := by
  intro v th' hK'
  rw [hthreads, Conc.update_eq_some]
  constructor
  · rintro (⟨-, rfl⟩ | ⟨-, h⟩)
    · rw [hK] at hK'
      cases hK'
    · exact h
  · intro h
    refine .inr ⟨?_, h⟩
    rintro rfl
    rw [hold th' h] at hK'
    cases hK'

/-- Nothing happens to the threads of the class. -/
theorem Turns.beside {Rest' : σ → Prop} {Busy' : σ → Γ → Prop} (h : Turns K Rest Busy c G)
    (hsame : c.SameOf K c')
    (hG : ∀ v th, c.threads v = some th → K th.task = true → G' v = G v)
    (hrest : Rest c.shared → Rest' c'.shared) (hbusy : ∀ g, Busy c.shared g → Busy' c'.shared g) :
    Turns K Rest' Busy' c' G' := by
  refine ⟨fun hall => hrest (h.rest fun u th hth hK => hall u th ((hsame u th hK).mpr hth) hK), ?_⟩
  intro u th hth hK hnone
  have hth := (hsame u th hK).mp hth
  obtain ⟨honly, g, hg, hb⟩ := h.busy u th hth hK hnone
  refine ⟨fun v th' hv hth' hK' => honly v th' hv ((hsame v th' hK').mp hth') hK', g, ?_, hbusy g hb⟩
  rw [hG u th hth hK, hg]

/-- Thread `u` of the class changes while the others have returned. -/
theorem Turns.own {g : Γ} (honly : c'.OnlyOf K u) (hthread : c'.threads u = some th)
    (hK : K th.task = true) (hG : G' u = some g) (hobeys : Prog.Obeys M (Q th.task) th.prog g)
    (hret : ∀ x, Q th.task g (.inl x) → Rest c'.shared) (hbusy : Busy c'.shared g) :
    Turns K Rest Busy c' G' := by
  refine ⟨fun hall => ?_, fun v th' hth' hK' hnone => ?_⟩
  · cases hr : th.result with
    | none => exact absurd hr (hall u th hthread hK)
    | some x =>
      rw [Thread.prog_of_result hr] at hobeys
      exact hret x hobeys
  · by_cases hv : v = u
    · subst hv
      exact ⟨honly, g, hG, hbusy⟩
    · exact absurd hnone (honly v th' hv hth' hK')

/-- A thread of the class that has not returned is the only one. -/
theorem Turns.active (h : Turns K Rest Busy c G) {g : Γ} (hth : c.threads u = some th)
    (hK : K th.task = true) (hnone : th.result = none) (hg : G u = some g) :
    c.OnlyOf K u ∧ Busy c.shared g := by
  obtain ⟨honly, g', hg', hbusy⟩ := h.busy u th hth hK hnone
  rw [hg, Option.some.injEq] at hg'
  subst hg'
  exact ⟨honly, hbusy⟩

theorem Config.OnlyOf.update (h : c.OnlyOf K u)
    (hthreads : c'.threads = update c.threads u (some th)) : c'.OnlyOf K u := by
  intro v th' hv hth'
  rw [hthreads, update_of_ne hv] at hth'
  exact h v th' hv hth'

section

variable {s : σ} {xs : List (Move ε ι T)} {i : Nat} {Rest : Nat → σ → Prop}
  {Busy : Nat → σ → Γ → Prop}

/-- What `beside` says of a move that is not an action of a thread. -/
theorem Sys.TakesTurns.still (h : S.TakesTurns M init Q K s xs Rest Busy) {x : Move ε ι T}
    (hx : xs[i]? = some x)
    (hrun : ∀ u e th, x = .run u e → (S.stateAt s xs i).threads u = some th →
      K th.task = true → th.next = none) :
    (Rest i (S.stateAt s xs i).shared → Rest (i + 1) (S.stateAt s xs (i + 1)).shared) ∧
      ∀ g, Busy i (S.stateAt s xs i).shared g → Busy (i + 1) (S.stateAt s xs (i + 1)).shared g :=
  h.beside i x hx fun u e th hu hth hnext =>
    Bool.eq_false_iff.mpr fun hK => hnext (hrun u e th hu hth hK)

theorem Sys.TakesTurns.act (h : S.TakesTurns M init Q K s xs Rest Busy) {u : Nat} {e : ε}
    {th : Thread A R T ρ} {a : A} {k : R a → Prog A R (ρ ⊕ T)} {g : Γ}
    (hx : xs[i]? = some (.run u e)) (hth : (S.stateAt s xs i).threads u = some th)
    (hp : th.prog = .act a k) (hg : S.watchAt M init s xs i u = some g) (ha : M.allows g a)
    (hc' : (S.stateAt s xs (i + 1)).shared = (S.exec a e (S.stateAt s xs i).shared).1)
    (ih : Turns K (Rest i) (Busy i) (S.stateAt s xs i) (S.watchAt M init s xs i)) :
    Turns K (Rest (i + 1)) (Busy (i + 1))
      ({ S.stateAt s xs i with shared := (S.exec a e (S.stateAt s xs i).shared).1 }.put u
        { th with prog := k (S.exec a e (S.stateAt s xs i).shared).2 }).tick
      (update (S.watchAt M init s xs i) u
        (some (M.after g a (S.exec a e (S.stateAt s xs i).shared).2))) := by
  have hself : ∀ {th'}, (S.stateAt s xs i).threads u = some th' → th = th' := fun hth' =>
    Option.some.inj (hth.symm.trans hth')
  cases hK : K th.task with
  | true =>
    obtain ⟨honly, hbusy⟩ := ih.active hth hK (by simp [Thread.result, hp]) hg
    obtain ⟨-, g', hg', hobeys⟩ := (Sys.tracks h.obeys i).2 u th hth
    obtain rfl : g = g' := Option.some.inj (hg.symm.trans hg')
    rw [hp] at hobeys
    have hbusy' := h.own i u e th g a hx hth hK (Thread.next_of_prog hp) ha hbusy
    exact Turns.own (honly.update rfl) (update_self ..) hK (update_self ..)
      (hobeys.2 _) (fun x hQ => h.ret (i + 1) th.task x _ _ hK hQ hbusy') hbusy'
  | false =>
    obtain ⟨hr, hb⟩ := h.still hx fun u' e' th' hu hth' hK' => by
      cases hu
      rw [← hself hth', hK] at hK'
      cases hK'
    rw [hc'] at hr hb
    refine ih.beside (.update rfl hK fun th' hth' => hself hth' ▸ hK) (fun v th' hth' hK' => ?_) hr hb
    refine update_of_ne ?_ ..
    rintro rfl
    rw [← hself hth', hK] at hK'
    cases hK'

/-- **Tasks that take turns.** -/
theorem Sys.TakesTurns.turns (h : S.TakesTurns M init Q K s xs Rest Busy) (hrest : Rest 0 s)
    (hi : i ≤ xs.length) :
    Turns K (Rest i) (Busy i) (S.stateAt s xs i) (S.watchAt M init s xs i) := by
  refine Sys.induction (J := fun i c G => Turns K (Rest i) (Busy i) c G) h.obeys ?_ ?_ hi
  · exact ⟨fun _ => hrest, fun u th hth => by cases hth⟩
  intro i x c' G' hx hc' htracks hmoved ih
  have hclock : ∀ th, (S.stateAt s xs i).threads (S.stateAt s xs i).clock = some th →
      K th.task = false := fun th hth => absurd (htracks.2 _ th hth).1 (Nat.lt_irrefl _)
  have hold : ∀ {v : Nat} {th : Thread A R T ρ}, (S.stateAt s xs i).threads v = some th →
      v ≠ (S.stateAt s xs i).clock := fun hth => Nat.ne_of_lt (htracks.2 _ _ hth).1
  have hstill := h.still hx
  have hshared := congrArg Config.shared hc'
  rw [hshared] at hstill
  cases hmoved with
  | idle u e hth =>
    obtain ⟨hr, hb⟩ := hstill fun v e' th hv hth' _ => by
      cases hv
      obtain ⟨y, hy⟩ := hth th hth'
      simp [Thread.next, hy]
    exact ih.beside (fun _ _ _ => Iff.rfl) (fun _ _ _ _ => rfl) hr hb
  | env y =>
    obtain ⟨hr, hb⟩ := hstill fun v e' th hv => by cases hv
    exact ih.beside (fun _ _ _ => Iff.rfl) (fun _ _ _ _ => rfl) hr hb
  | start t =>
    cases hK : K t with
    | true =>
      obtain ⟨hidle, hcall⟩ := h.call i t hx hK
      have hall : ∀ v th, (S.stateAt s xs i).threads v = some th → K th.task = true →
          th.result ≠ none := by
        intro v th hth hK hnone
        have hv := List.all_eq_true.mp hidle v (List.mem_range.mpr (htracks.2 v th hth).1)
        simp [hth, hK, hnone] at hv
      have honly : (S.stateAt s xs i).OnlyOf K (S.stateAt s xs i).clock := fun v th _ => hall v th
      exact Turns.own (honly.update rfl) (update_self ..) hK (update_self ..)
        (h.obeys t) (fun x hQ => h.ret (i + 1) t x _ _ hK hQ (hcall (ih.rest hall)))
        (hcall (ih.rest hall))
    | false =>
      obtain ⟨hr, hb⟩ := hstill fun v e' th hv => by cases hv
      exact ih.beside (.update rfl hK hclock)
        (fun v th hth _ => update_of_ne (hold hth) ..) hr hb
  | jump u e th g t hth hp hg hQ =>
    obtain ⟨hKt, hjump⟩ := h.jump i th.task t (S.stateAt s xs i).shared g hQ
    have hself : ∀ {th'}, (S.stateAt s xs i).threads u = some th' → th = th' := fun hth' =>
      Option.some.inj (hth.symm.trans hth')
    cases hK : K th.task with
    | true =>
      obtain ⟨honly, hbusy⟩ := ih.active hth hK (by simp [Thread.result, hp]) hg
      exact Turns.own (honly.update rfl) (update_self ..) (hKt.trans hK)
        (update_self ..) (h.obeys t)
        (fun x hQ => h.ret (i + 1) t x _ _ (hKt.trans hK) hQ (hjump hK hbusy)) (hjump hK hbusy)
    | false =>
      obtain ⟨hr, hb⟩ := hstill fun v e' th' hv hth' _ => by
        cases hv
        simp [← hself hth', Thread.next, hp]
      refine ih.beside (.update rfl (hKt.trans hK) fun th' hth' => hself hth' ▸ hK)
        (fun v th' hth' hK' => update_of_ne ?_ ..) hr hb
      rintro rfl
      rw [← hself hth', hK] at hK'
      cases hK'
  | act u e th g a k hth hp hg ha hf => exact h.act hx hth hp hg ha hshared ih
  | fork u e th g a k t hth hp hg ha hf =>
    -- First the thread goes on, then the new one appears, which is not of the class.
    refine (h.act hx hth hp hg ha hshared ih).beside (.update rfl (h.fork _ _ t hf) fun th' hth' => ?_)
      (fun v th' hth' _ => update_of_ne ?_ ..) id fun _ hb => hb
    · rw [Config.tick_threads, Config.put_threads, update_of_ne (Ne.symm (hold hth))] at hth'
      exact hclock th' hth'
    · rcases update_eq_some.mp hth' with ⟨rfl, -⟩ | ⟨-, hth'⟩
      · exact hold hth
      · exact hold hth'

end

variable {s : σ} {xs : List (Move ε ι T)} {i : Nat} (h : S.Rule M init Q K C Rest Busy)
  (hcalls : ∀ t, Move.start t ∈ xs → K t = true)
  (hturn : Run.Meets S.step Config.inTurn { shared := s } xs = true)
  (hacts : Run.Meets S.step (Config.onAct fun _ => C) { shared := s } xs = true)

include h hcalls hturn hacts

theorem Sys.Rule.takesTurns :
    S.TakesTurns M init Q (fun _ => true) s xs (fun _ => Rest) fun _ => Busy where
  obeys := h.obeys
  fork a r t hf := by
    rw [h.fork] at hf
    cases hf
  call i t hx _ := by
    have hidle := Run.meets_getElem hturn hx
    exact ⟨hidle, h.call t _ (hcalls t (List.mem_of_getElem? hx))⟩
  own i u e th g a hx hth _ hnext ha hbusy := by
    obtain ⟨k, hp⟩ := Thread.prog_of_next hnext
    exact h.act a e _ g ha (Config.of_onAct (Run.meets_getElem hacts hx) hth hp) hbusy
  jump _ t t' w g hQ := ⟨rfl, fun _ => h.jump t t' w g hQ⟩
  ret _ t x w g _ hQ := h.ret t x w g hQ
  beside i x hx hother := by
    rw [show S.stateAt s xs (i + 1) = S.step (S.stateAt s xs i) x from Run.stateAt_succ hx]
    rcases S.step_shared (S.stateAt s xs i) x with hs | ⟨y, -, hs⟩ | ⟨u, e, th, a, k, hrun, hth, hp, -⟩
    · rw [hs]
      exact ⟨id, fun _ hb => hb⟩
    · rw [hs]
      exact ⟨h.rest y _, h.busy y _⟩
    · have := hother u e th hrun hth (by simp [Thread.next_of_prog hp])
      cases this

theorem Sys.Rule.inTurn (hrest : Rest s) (hi : i ≤ xs.length) :
    InTurn Rest Busy (S.stateAt s xs i) (S.watchAt M init s xs i) := by
  have hturns := (h.takesTurns hcalls hturn hacts).turns hrest hi
  refine ⟨fun hall => hturns.rest fun u th hth _ => hall u th hth, fun u th hth hnone => ?_⟩
  obtain ⟨honly, hbusy⟩ := hturns.busy u th hth rfl hnone
  exact ⟨fun v th' hv hth' => honly v th' hv hth' rfl, hbusy⟩

/-- **Every state of a sequential schedule meets one of the two invariants.** -/
theorem Sys.Rule.holds (hrest : Rest s) (hi : i ≤ xs.length) :
    Rest (S.stateAt s xs i).shared ∨ ∃ g, Busy (S.stateAt s xs i).shared g := by
  have hturn := h.inTurn hcalls hturn hacts hrest hi
  by_cases hbusy : ∃ u th, (S.stateAt s xs i).threads u = some th ∧ th.result = none
  · obtain ⟨u, th, hth, hnone⟩ := hbusy
    obtain ⟨-, g, -, hbusy⟩ := hturn.busy u th hth hnone
    exact .inr ⟨g, hbusy⟩
  · exact .inl (hturn.rest fun u th hth hnone => hbusy ⟨u, th, hth, hnone⟩)

end Conc
