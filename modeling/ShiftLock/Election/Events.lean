import ShiftLock.Election.Close

/-!
# The event channel of an election

`emit` does not look whether the event channel is closed, and `Resign` does not look whether the
election is; the flag `leader` stays set when `Close` has released the lock. So a `Resign` or
`Transfer` that is past its release when `Close` closes the channel sends on the closed channel, and
so does a later one whose release succeeds. In every schedule in which neither happens, no call
panics (`emit_never_panics`): the loop has returned before the channel is closed.
-/

namespace ShiftLock.Election

open Conc

variable {L ε ι : Type}

abbrev State (L : Type) := Conc.Config Act Act.Answer (World L) Task Result

/-- The actions of a `Resign` or `Transfer` after its release. -/
def Act.tells : Act → Bool
  | .clear | .emit .. => true
  | _ => false

/-- When the event channel is closed no thread is about to clear the leadership or to emit, and
afterwards no release succeeds. -/
def unheard (lock : FencedLock L ε ι) (c : State L) : Move (Env ε) (Outside ι) Task → Bool
  | .run u e =>
    match (c.threads u).bind (·.next) with
    | some .closeEvents =>
      (List.range c.clock).all fun v => ((c.threads v).bind (·.next)).all fun a => !a.tells
    | some (.release token) =>
      !c.shared.eventsClosed || (lock.release token e.lock c.shared.lock).2.isSome
    | _ => true
  | _ => true

/-- Nothing was sent on the closed channel, and nobody who has left is about to. -/
structure Silent (c : State L) (G : Nat → Option Stage) : Prop where
  leaving : ∀ u th, c.threads u = some th → G u = some .leaving → th.next.isSome = true →
    c.shared.eventsClosed = false
  panicked : c.shared.panicked = false

/-- A send on the open channel. -/
theorem World.send_panicked {w : World L} (h : w.eventsClosed = false) (n : Nat) (ev : Event) :
    (w.send n ev).panicked = w.panicked := by
  unfold send
  rw [h, if_neg Bool.false_ne_true]
  split <;> rfl

variable {cfg : Config} {lock : FencedLock L ε ι} {c : State L} {G : Nat → Option Stage} {u : Nat}
  {e : Env ε} {a : Act} {g : Stage} {th : Conc.Thread Act Act.Answer Task Result}
  {k : a.Answer → P (Result ⊕ Task)}

/-- The channel is open when something is emitted. -/
theorem Silent.open_of_emit (h : Silent c G) (hphases : Phases c.shared G)
    (hth : c.threads u = some th) (hp : th.prog = .act a k) (hg : G u = some g)
    (ha : g = .making ∨ g = .looping ∨ g = .leaving) : c.shared.eventsClosed = false := by
  have hfits := hphases.fits u g hg
  by_contra hopen
  obtain ⟨hclosed, hlooping⟩ := hphases.flags.eventsClosed (by simpa using hopen)
  rcases ha with rfl | rfl | rfl
  · have hjoined : c.shared.joined = false := hfits.2
    rw [hphases.flags.closed hclosed] at hjoined
    cases hjoined
  · have hloops : c.shared.looping = true := hfits.1
    rw [hlooping] at hloops
    cases hloops
  · refine hopen (h.leaving u th hth hg ?_)
    rw [Thread.next_of_prog hp]
    rfl

theorem Silent.exec_panicked (h : Silent c G) (hphases : Phases c.shared G)
    (hth : c.threads u = some th) (hp : th.prog = .act a k) (hg : G u = some g)
    (ha : g.allows a) : (exec cfg lock a e c.shared).1.panicked = false := by
  cases a with
  | emit type leader token err =>
    rw [exec, World.send_panicked (h.open_of_emit hphases hth hp hg ha)]
    exact h.panicked
  | _ => exact h.panicked

/-- How a thread gets or stays past its release. -/
theorem Stage.after_eq_leaving {r : a.Answer} (ha : g.allows a) (h : g.after a r = .leaving) :
    (g = .leaving ∧ a.tells = true) ∨ ∃ token, a = .release token ∧ g = .calling := by
  cases a with
  | make | present => cases r <;> obtain rfl := ha <;> cases h
  | closeBegin => cases r <;> cases h
  | wait | cancel =>
    obtain ⟨leading, token, rfl⟩ := ha
    cases h
  | release token =>
    rcases ha with rfl | rfl
    · exact .inr ⟨token, rfl, rfl⟩
    · cases h
  | read => rcases ha with rfl | rfl <;> cases h
  | clear | emit type leader token err => exact .inl ⟨h, rfl⟩
  | spawn | done | closeEvents => cases h
  | _ =>
    obtain rfl := ha
    cases h

/-- The channel is open after an action by which a thread leaves, or with which it goes on. -/
theorem Silent.exec_leaving (h : Silent c G)
    (hcond : unheard lock c (.run u e : Move (Env ε) (Outside ι) Task) = true)
    (hth : c.threads u = some th) (hp : th.prog = .act a k) (hg : G u = some g) (ha : g.allows a)
    (hafter : g.after a (exec cfg lock a e c.shared).2 = .leaving) :
    (exec cfg lock a e c.shared).1.eventsClosed = false := by
  have hnext := Thread.next_of_prog hp
  rcases Stage.after_eq_leaving ha hafter with ⟨rfl, htells⟩ | ⟨token, rfl, rfl⟩
  · have hopen := h.leaving u th hth hg (by rw [hnext]; rfl)
    cases a with
    | clear => exact hopen
    | emit type leader token err => exact (sameFlags_send _ _ _).eventsClosed.trans hopen
    | _ => cases htells
  · have hok : (lock.release token e.lock c.shared.lock).2.isSome = false := by
      cases hr : (lock.release token e.lock c.shared.lock).2 with
      | none => rfl
      | some err =>
        rw [show (exec cfg lock (.release token) e c.shared).2 = some err from hr] at hafter
        cases hafter
    have hopen : c.shared.eventsClosed = false := by simpa [unheard, hth, hnext, hok] using hcond
    exact hopen

/-- No other thread is left behind when the channel is closed. -/
theorem Silent.exec_other (h : Silent c G) (htracks : Tracks monitor Ends c G)
    (hcond : unheard lock c (.run u e : Move (Env ε) (Outside ι) Task) = true)
    (hth : c.threads u = some th) (hp : th.prog = .act a k) {v : Nat}
    {th' : Thread Act Act.Answer Task Result} (hth' : c.threads v = some th')
    (hg' : G v = some .leaving) (hnext' : th'.next.isSome = true) :
    (exec cfg lock a e c.shared).1.eventsClosed = false := by
  have hnext := Thread.next_of_prog hp
  have hopen := h.leaving v th' hth' hg' hnext'
  cases a with
  | closeEvents =>
    -- what such a thread does next is to clear or to emit
    obtain ⟨b, hb⟩ := Option.isSome_iff_exists.mp hnext'
    obtain ⟨k', hp'⟩ := Thread.prog_of_next hb
    obtain ⟨hlt, g', hgv, hobeys⟩ := htracks.2 v th' hth'
    obtain rfl : Stage.leaving = g' := Option.some.inj (hg'.symm.trans hgv)
    rw [hp'] at hobeys
    have hallows : Stage.leaving.allows b := hobeys.1
    have htells : b.tells = true := by
      cases b <;> simp_all [Stage.allows, Act.tells]
    simp only [unheard, hth, Option.bind_some, hnext, List.all_eq_true, List.mem_range] at hcond
    have := hcond v hlt
    rw [hth', Option.bind_some, hb, Option.all_some, htells] at this
    cases this
  | emit type leader token err => exact (sameFlags_send _ _ _).eventsClosed.trans hopen
  | _ => exact hopen

theorem Silent.step {x : Move (Env ε) (Outside ι) Task} {c' : State L} {G' : Nat → Option Stage}
    (h : Silent c G) (hphases : Phases c.shared G) (htracks : Tracks monitor Ends c G)
    (hcond : unheard lock c x = true)
    (hmoved : Moved (system cfg lock) monitor Task.stage Ends c G x c' G') : Silent c' G' := by
  have henv : ∀ y, ((system cfg lock).env y c.shared).eventsClosed = c.shared.eventsClosed ∧
      ((system cfg lock).env y c.shared).panicked = c.shared.panicked := fun y => by
    cases y <;> exact ⟨rfl, rfl⟩
  refine ⟨fun v th hth hg hnext => ?_, ?_⟩
  · rcases hmoved.thread v with ⟨hth', hg'⟩ | ⟨t, -, hg'⟩ |
      ⟨e, th₀, g₀, a, k, rfl, hth₀, hp, hg₀, ha, hshared, -, hg'⟩
    · rw [hth'] at hth
      rw [hg'] at hg
      rcases hmoved.shared with hs | ⟨y, rfl, hs⟩ | ⟨u, e, th₀, g₀, a, k, rfl, hth₀, hp, hg₀, ha, hs⟩
      · rw [hs]
        exact h.leaving v th hth hg hnext
      · rw [hs, (henv y).1]
        exact h.leaving v th hth hg hnext
      · rw [hs]
        exact h.exec_other htracks hcond hth₀ hp hth hg hnext
    · rw [hg', Option.some.injEq] at hg
      cases t <;> cases hg
    · rw [hg', Option.some.injEq] at hg
      rw [hshared]
      exact h.exec_leaving hcond hth₀ hp hg₀ ha hg
  · rcases hmoved.shared with hs | ⟨y, rfl, hs⟩ | ⟨u, e, th₀, g₀, a, k, rfl, hth₀, hp, hg₀, ha, hs⟩
    · rw [hs]
      exact h.panicked
    · rw [hs, (henv y).2]
      exact h.panicked
    · rw [hs]
      exact h.exec_panicked hphases hth₀ hp hg₀ ha

/-- **Nothing is sent on the closed event channel**, in every schedule in which no `Resign` or
`Transfer` is between its release and its last event when `Close` closes the channel, and none has
its release succeed afterwards. -/
theorem emit_never_panics (cfg : Config) (lock : FencedLock L ε ι) (l : L) {xs : Schedule ε ι}
    (hxs : Calls xs)
    (hcond : Conc.Run.Meets (system cfg lock).step (unheard lock) { shared := { lock := l } } xs = true)
    {i : Nat} (hi : i ≤ xs.length) : (stateAt cfg lock l xs i).shared.panicked = false := by
  suffices hall : i ≤ xs.length → Silent (stateAt cfg lock l xs i) (stagesAt cfg lock l xs i) from
    (hall hi).panicked
  refine Run.along (J := fun i => i ≤ xs.length → Silent (stateAt cfg lock l xs i)
    (stagesAt cfg lock l xs i)) (fun _ => ⟨fun u th hth => ?_, rfl⟩) (fun i x hx ih hi => ?_) hi
  · cases hth
  · have hle : i ≤ xs.length := Nat.le_of_succ_le hi
    exact (ih hle).step (phases_at cfg lock l hxs hle) (tracks_at cfg i)
      (Run.meets_getElem hcond hx) (moved_at cfg lock l hx)

/-- A `Transfer`, thread 9, gives up the lock, and then there is a `Close`, thread 16. -/
def closeAfterTransfer : Schedule Unit Unit :=
  .start .join :: runs 0 4 ++ runs 4 4 ++ .start .transfer :: runs 9 6 ++
    .start .close :: runs 16 4 ++ runs 4 2 ++ runs 16 2

theorem emit_never_panics_transfer :
    ((stateAt sample Slot.lock {} closeAfterTransfer 25).threads 16).map (·.result) =
        some (some (.returned none)) ∧
      (stateAt sample Slot.lock {} closeAfterTransfer 25).shared.panicked = false :=
  ⟨rfl, emit_never_panics sample Slot.lock {} (by decide) (by decide +kernel) (by decide)⟩

/-- `Close`, thread 13, runs while a `Resign`, thread 9, has released the lock and has not emitted. -/
def closeResigning : Schedule Unit Unit :=
  .start .join :: runs 0 4 ++ runs 4 4 ++ .start .resign :: runs 9 3 ++
    .start .close :: runs 13 4 ++ runs 4 2 ++ runs 13 3 ++ runs 9 2

/-- The `Resign` sends on the closed channel. -/
theorem resign_panics :
    Calls closeResigning ∧ (stateAt sample Slot.lock {} closeResigning 25).shared.panicked = true :=
  ⟨by decide, rfl⟩

end ShiftLock.Election
