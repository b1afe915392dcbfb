import ShiftLock.Election.Stage

/-!
# Closing an election

`Close` reads the leadership before it stops the loop, so the lock that the loop is just acquiring is
not released; the same holds for a lock whose acquisition a `Resign` has overlooked. In every
schedule in which `Close` reads a leadership that is up to date, and the loop acquires nothing more
afterwards, a participant has given up the lock when `Close` has returned (`close_gives_up_lock`).
-/

namespace ShiftLock.Election

open Conc
open Conc.Prog (Obeys)

variable {L ε ι : Type}

/-! ## Leadership -/

/-- `held` is the token with which the participant holds the lock. Nobody else gives it the lock. -/
structure FencedLock.Grants (lock : FencedLock L ε ι) (held : L → Option UInt64) : Prop where
  acquired : ∀ e l t, (lock.acquire e l).2 = .ok t → held (lock.acquire e l).1 = some t
  denied : ∀ e l err t, (lock.acquire e l).2 = .error err → held (lock.acquire e l).1 = some t →
    held l = some t
  released : ∀ t e l, (lock.release t e l).2 = none → held (lock.release t e l).1 ≠ some t
  release : ∀ t e l t', held (lock.release t e l).1 = some t' → held l = some t'
  renew : ∀ t e l t', held (lock.renew t e l).1 = some t' → held l = some t'
  outside : ∀ x l t, held (lock.outside x l) = some t → held l = some t

/-- The token that a `Close` in this stage has to release. -/
def Stage.owes : Stage → Option UInt64
  | .cancelling true token | .closing true token _ => some token
  | _ => none

/-- A call of `Close`, or the rest of one. -/
def Task.closes : Task → Bool
  | .close | .closing _ _ => true
  | _ => false

/-- `Close` waits for the loop, or has waited. -/
def Stage.isClosing : Stage → Bool
  | .closing .. => true
  | _ => false

theorem Stage.goesOn_owes (g : Stage) : g.goesOn.owes = g.owes := by
  cases g with
  | cancelling leading token => cases leading <;> rfl
  | _ => rfl

/-- Once the election is closed, a lock that is still held is one that `Close` will release. -/
structure Owed (held : L → Option UInt64) (w : World L) (G : Nat → Option Stage) : Prop where
  owed : w.closed = true → ∀ t, held w.lock = some t → ∃ u g, G u = some g ∧ g.owes = some t
  closed : ∀ u, G u = some .closed → w.eventsClosed = true

variable {held : L → Option UInt64} {w w' : World L} {G : Nat → Option Stage} {u : Nat} {g g' : Stage}

theorem Owed.update (h : Owed held w G) (hg : G u = some g)
    (hclosed : w'.closed = true → w.closed = true)
    (howed : ∀ t, w'.closed = true → held w'.lock = some t →
      held w.lock = some t ∧ (g.owes = some t → g'.owes = some t))
    (hevents : w.eventsClosed = true → w'.eventsClosed = true)
    (hg' : g' = .closed → w'.eventsClosed = true) :
    Owed held w' (Function.update G u (some g')) := by
  refine ⟨fun hc t ht => ?_, fun v hv => ?_⟩
  · obtain ⟨hheld, hu⟩ := howed t hc ht
    obtain ⟨v, x, hx, ho⟩ := h.owed (hclosed hc) t hheld
    by_cases hv : v = u
    · subst hv
      have hgx : g = x := Option.some.inj (hg.symm.trans hx)
      exact ⟨v, g', Function.update_self .., hu (hgx ▸ ho)⟩
    · exact ⟨v, x, by rw [Function.update_of_ne hv, hx], ho⟩
  · by_cases hvu : v = u
    · subst hvu
      rw [Function.update_self, Option.some.injEq] at hv
      exact hg' hv
    · rw [Function.update_of_ne hvu] at hv
      exact hevents (h.closed v hv)

/-- `Close` reads a leadership that is up to date, and not while another `Close` is under way; the
loop acquires nothing once the election is closed. -/
def upToDate (lock : FencedLock L ε ι) (held : L → Option UInt64) (_ : Task) (a : Act) (e : Env ε)
    (w : World L) : Bool :=
  match a with
  | .closeBegin =>
    if w.closed then w.eventsClosed
    else held w.lock = none ∨ w.leader = true ∧ held w.lock = some w.token
  | .acquire => !w.closed || !(lock.acquire e.lock w.lock).2.isOk
  | _ => true

/-- The release that `Close` makes succeeds. -/
def releases (lock : FencedLock L ε ι) (t : Task) (a : Act) (e : Env ε) (w : World L) : Bool :=
  match t, a with
  | .closing _ _, .release token => (lock.release token e.lock w.lock).2.isNone
  | _, _ => true

theorem World.send_lock (w : World L) (n : Nat) (ev : Event) : (w.send n ev).lock = w.lock := by
  unfold send
  split
  · rfl
  · split <;> rfl

section

variable {cfg : Config} {lock : FencedLock L ε ι} {e : Env ε} {a : Act}

/-- After the action only what was held before is held, and `Close` owes what it owed. -/
theorem Owed.keep (h : Owed held w G) (hg : G u = some g)
    (hclosed : (exec cfg lock a e w).1.closed = w.closed)
    (hevents : (exec cfg lock a e w).1.eventsClosed = w.eventsClosed)
    (hheld : ∀ t, w.closed = true → held (exec cfg lock a e w).1.lock = some t → held w.lock = some t)
    (hg' : g'.owes = g.owes) (hne : g' ≠ .closed) :
    Owed held (exec cfg lock a e w).1 (Function.update G u (some g')) := by
  refine h.update hg (fun hc => hclosed ▸ hc) (fun t hc ht => ⟨hheld t (hclosed ▸ hc) ht, ?_⟩)
    (fun he => hevents ▸ he) (fun hx => absurd hx hne)
  rw [hg']
  exact id

theorem Owed.closeBegin (h : Owed held w G) (hg : G u = some .calling)
    (htwice : w.closed = true → w.eventsClosed = true)
    (hfirst : w.closed = false → ∀ t, held w.lock = some t → w.leader = true ∧ t = w.token) :
    Owed held (exec cfg lock .closeBegin e w).1
      (Function.update G u
        (some (Stage.after .calling .closeBegin (exec cfg lock .closeBegin e w).2))) := by
  cases hclosed : w.closed with
  | true =>
    simp only [exec, hclosed, if_pos, Stage.after]
    exact h.update hg (fun _ => hclosed) (fun t _ ht => ⟨ht, fun ho => by cases ho⟩) id
      (fun _ => htwice hclosed)
  | false =>
    simp only [exec, hclosed, Bool.false_eq_true, if_false, Stage.after]
    refine ⟨fun _ t ht => ?_, fun v hv => ?_⟩
    · obtain ⟨hleader, htoken⟩ := hfirst hclosed t ht
      exact ⟨u, _, Function.update_self .., by rw [hleader, ← htoken]; rfl⟩
    · by_cases hvu : v = u
      · subst hvu
        rw [Function.update_self] at hv
        cases hv
      · rw [Function.update_of_ne hvu] at hv
        exact h.closed v hv

theorem Owed.act (hlock : lock.Grants held) (h : Owed held w G) (hg : G u = some g)
    (ha : g.allows a) {t : Task} (hup : upToDate lock held t a e w = true)
    (hrelease : ∀ t, a = .release t → g = .closing true t true →
      (lock.release t e.lock w.lock).2 = none) :
    Owed held (exec cfg lock a e w).1
      (Function.update G u (some (g.after a (exec cfg lock a e w).2))) := by
  cases a with
  | closeBegin =>
    obtain rfl := ha
    refine h.closeBegin hg (fun hc => ?_) (fun hc t ht => ?_)
    · simpa [upToDate, hc] using hup
    · simp only [upToDate, hc, ht] at hup
      simpa using hup
  | acquire =>
    obtain rfl := ha
    refine h.keep hg rfl rfl (fun t hc ht => ?_) rfl (by simp [Stage.after])
    simp only [upToDate, hc, Bool.not_true, Bool.false_or] at hup
    cases hr : (lock.acquire e.lock w.lock).2 with
    | error err => exact hlock.denied _ _ err t hr ht
    | ok token =>
      rw [hr] at hup
      cases hup
  | release token =>
    rcases ha with rfl | rfl
    · refine h.keep hg rfl rfl (fun t _ ht => hlock.release _ _ _ _ ht) ?_ ?_ <;>
        simp only [Stage.after] <;> split <;> simp [Stage.owes]
    · -- what is owed is released, and nothing else is held
      refine h.update hg id (fun t _ ht => ⟨hlock.release _ _ _ _ ht, fun ho => ?_⟩) id
        (fun hx => by cases hx)
      have htoken : token = t := Option.some.inj ho
      subst htoken
      exact absurd ht (hlock.released _ _ _ (hrelease token rfl rfl))
  | renew token =>
    obtain rfl := ha
    exact h.keep hg rfl rfl (fun t _ ht => hlock.renew _ _ _ _ ht) rfl (by simp [Stage.after])
  | emit type leader token err =>
    have hsame := sameFlags_send w cfg.capacity
      { type, election := cfg.name, leader, token, time := e.now, err }
    refine h.keep hg hsame.closed hsame.eventsClosed (fun t _ ht => ?_) rfl ?_
    · rwa [exec, World.send_lock] at ht
    · rcases ha with rfl | rfl | rfl <;> simp [Stage.after]
  | closeEvents =>
    obtain ⟨token, rfl⟩ := ha
    exact h.update hg id (fun t _ ht => ⟨ht, fun ho => by cases ho⟩) (fun _ => rfl) (fun _ => rfl)
  | make | present =>
    obtain rfl := ha
    refine h.keep hg rfl rfl (fun t _ ht => ht) ?_ ?_ <;> simp only [Stage.after] <;> split <;>
      simp [Stage.owes]
  | wait =>
    obtain ⟨leading, token, rfl⟩ := ha
    exact h.keep hg rfl rfl (fun t _ ht => ht) (by cases leading <;> rfl) (by simp [Stage.after])
  | cancel =>
    obtain ⟨leading, token, rfl⟩ := ha
    exact h.keep hg rfl rfl (fun t _ ht => ht) rfl (by simp [Stage.after])
  | read | clear =>
    rcases ha with rfl | rfl <;>
      exact h.keep hg rfl rfl (fun t _ ht => ht) rfl (by simp [Stage.after])
  | _ =>
    obtain rfl := ha
    exact h.keep hg rfl rfl (fun t _ ht => ht) rfl (by simp [Stage.after])

end

/-- A new thread. -/
theorem Owed.put {n : Nat} (h : Owed held w G) (hn : G n = none) (hg : g ≠ .closed) :
    Owed held w (Function.update G n (some g)) := by
  refine ⟨fun hc t ht => ?_, fun v hv => ?_⟩
  · obtain ⟨v, x, hx, ho⟩ := h.owed hc t ht
    have hvn : v ≠ n := fun hvn => by rw [hvn, hn] at hx; cases hx
    exact ⟨v, x, by rw [Function.update_of_ne hvn, hx], ho⟩
  · by_cases hvn : v = n
    · subst hvn
      rw [Function.update_self, Option.some.injEq] at hv
      exact absurd hv hg
    · rw [Function.update_of_ne hvn] at hv
      exact h.closed v hv

section

variable (cfg : Config) {lock : FencedLock L ε ι} {l : L} {xs : Schedule ε ι} {i : Nat}

theorem tracks_at (i : Nat) :
    Tracks monitor Ends (stateAt cfg lock l xs i) (stagesAt cfg lock l xs i) :=
  Sys.tracks (code_obeys cfg) i

/-- `Close` does not begin to wait in the middle of a task. -/
theorem Stage.isClosing_of_after {a : Act} {r : a.Answer} (ha : g.allows a)
    (h : (g.after a r).isClosing = true) : g.isClosing = true := by
  cases a with
  | make | present => cases r <;> obtain rfl := ha <;> cases h
  | closeBegin => cases r <;> cases h
  | release token =>
    rcases ha with rfl | rfl
    · cases r <;> cases h
    · rfl
  | wait =>
    obtain ⟨leading, token, rfl⟩ := ha
    rfl
  | spawn | done | closeEvents => cases h
  | _ => exact h

/-- Only the task `closing` waits for the loop and releases. -/
theorem task_of_closing (hi : i ≤ xs.length) {th : Thread Act Act.Answer Task Result}
    (hth : (stateAt cfg lock l xs i).threads u = some th)
    (hg : stagesAt cfg lock l xs i u = some g) (hclosing : g.isClosing = true) :
    ∃ leading token, th.task = .closing leading token := by
  refine Sys.each_thread (code_obeys cfg)
    (P := fun _ th g => Stage.isClosing g = true → ∃ leading token, th.task = Task.closing leading token)
    (fun i t h => ?_) (fun _ _ _ h => h)
    (fun i u e th g a k _ _ _ _ ha h _ hg => h (Stage.isClosing_of_after ha hg)) hi hth hg hclosing
  cases t <;> first | exact ⟨_, _, rfl⟩ | cases h

/-- In every state of a schedule that is up to date, what is held after `Close` began is owed. -/
theorem owed_at (hlock : lock.Grants held)
    (hupToDate : Run.Meets (system cfg lock).step (Conc.Config.onAct (upToDate lock held))
      { shared := { lock := l } } xs = true)
    (hreleases : Run.Meets (system cfg lock).step (Conc.Config.onAct (releases lock))
      { shared := { lock := l } } xs = true) (hi : i ≤ xs.length) :
    Owed held (stateAt cfg lock l xs i).shared (stagesAt cfg lock l xs i) := by
  suffices hall : i ≤ xs.length →
      Owed held (stateAt cfg lock l xs i).shared (stagesAt cfg lock l xs i) from hall hi
  refine Run.along (J := fun i => i ≤ xs.length → Owed held (stateAt cfg lock l xs i).shared
    (stagesAt cfg lock l xs i)) (fun _ => ?_) (fun i x hx ih hi => ?_) hi
  · refine ⟨fun h => ?_, fun _ h => ?_⟩ <;> cases h
  have hle : i ≤ xs.length := Nat.le_of_succ_le hi
  have ih := ih hle
  have hup := Run.meets_getElem hupToDate hx
  have hrel := Run.meets_getElem hreleases hx
  have hclock : stagesAt cfg lock l xs i (stateAt cfg lock l xs i).clock = none :=
    (tracks_at cfg i).at_clock
  -- an action of thread `u`
  have hact : ∀ u e th g a k, x = .run u e → (stateAt cfg lock l xs i).threads u = some th →
      th.prog = .act a k → stagesAt cfg lock l xs i u = some g → g.allows a →
      Owed held (exec cfg lock a e (stateAt cfg lock l xs i).shared).1
        (Function.update (stagesAt cfg lock l xs i) u
          (some (g.after a (exec cfg lock a e (stateAt cfg lock l xs i).shared).2))) := by
    intro u e th g a k hxu hth hp hg ha
    subst hxu
    refine ih.act hlock hg ha (Conc.Config.of_onAct hup hth hp) ?_
    rintro t rfl rfl
    have hok := Conc.Config.of_onAct hrel hth hp
    obtain ⟨leading, token, htask⟩ := task_of_closing cfg hle hth hg rfl
    rw [htask] at hok
    exact Option.isNone_iff_eq_none.mp hok
  have hmoved := moved_at cfg lock l hx
  generalize stateAt cfg lock l xs (i + 1) = c' at hmoved ⊢
  generalize stagesAt cfg lock l xs (i + 1) = G' at hmoved ⊢
  cases hmoved with
  | idle => exact ih
  | start t => exact ih.put hclock (by cases t <;> simp [Task.stage])
  | env x =>
    refine ⟨fun hc t ht => ?_, fun u hu => ?_⟩
    · cases x with
      | lock x => exact ih.owed hc t (hlock.outside _ _ _ ht)
      | receive | cancel => exact ih.owed hc t ht
    · cases x <;> exact ih.closed u hu
  | jump u e th g t hth hp hg hQ =>
    have hstage : t.stage = g.goesOn := hQ
    rw [hstage]
    refine ih.update hg id (fun t' _ ht' => ⟨ht', fun ho => ?_⟩) id (fun hx => ?_)
    · rwa [Stage.goesOn_owes]
    · rw [← hstage] at hx
      cases t <;> cases hx
  | act u e th g a k hth hp hg ha hf => exact hact u e th g a k rfl hth hp hg ha
  | fork u e th g a k t hth hp hg ha hf =>
    obtain ⟨rfl, rfl⟩ := fork_eq_some hf
    refine (hact u e th g _ k rfl hth hp hg ha).put ?_ (by simp [Task.stage])
    have hne : (stateAt cfg lock l xs i).clock ≠ u := by
      rintro rfl
      rw [hclock] at hg
      cases hg
    rw [Function.update_of_ne hne, hclock]

/-- **Closing gives up the lock.** In every schedule in which `Close` reads an up-to-date leadership
and its release succeeds, the participant holds no lock once a call of `Close` has returned. -/
theorem close_gives_up_lock (hlock : lock.Grants held) (hxs : Calls xs)
    (hupToDate : Conc.Run.Meets (system cfg lock).step (Conc.Config.onAct (upToDate lock held))
      { shared := { lock := l } } xs = true)
    (hreleases : Conc.Run.Meets (system cfg lock).step (Conc.Config.onAct (releases lock))
      { shared := { lock := l } } xs = true) (hi : i ≤ xs.length)
    {th : Conc.Thread Act Act.Answer Task Result} {err : Option Error}
    (hth : (stateAt cfg lock l xs i).threads u = some th)
    (hclose : th.task.closes = true) (hreturned : th.result = some (.returned err)) :
    held (stateAt cfg lock l xs i).shared.lock = none := by
  obtain ⟨-, g, hg, hobeys⟩ := (tracks_at cfg i).2 u th hth
  rw [Thread.prog_of_result hreturned] at hobeys
  have hstage : g = .closed := by
    have hends : Ends th.task g (.inl (.returned err)) := hobeys
    cases ht : th.task <;> rw [ht] at hends hclose <;>
      first | exact hends err rfl | cases hclose
  subst hstage
  have howed := owed_at cfg hlock hupToDate hreleases hi
  have hphases := phases_at cfg lock l hxs hi
  have hevents := howed.closed u hg
  cases hheld : held (stateAt cfg lock l xs i).shared.lock with
  | none => rfl
  | some t =>
    -- a `Close` that owes the lock has not closed the events
    obtain ⟨v, x, hx, ho⟩ := howed.owed (hphases.flags.eventsClosed hevents).1 t hheld
    have hfits := hphases.fits v x hx
    cases x with
    | cancelling leading token => rw [hfits.2.2] at hevents; cases hevents
    | closing leading token waited => rw [hfits.2.2.1] at hevents; cases hevents
    | _ => cases ho

end

/-! ## A lock in memory -/

/-- The token of this participant, whether another one holds the lock, and the last token. -/
structure Slot where
  holder : Option UInt64 := none
  taken : Bool := false
  last : UInt64 := 0
  deriving DecidableEq

def Slot.lock : FencedLock Slot Unit Unit where
  acquire _ s :=
    if s.holder = none ∧ s.taken = false then
      ({ s with holder := some (s.last + 1), last := s.last + 1 }, .ok (s.last + 1))
    else (s, .error "held")
  release token _ s :=
    if s.holder = some token then ({ s with holder := none }, none) else (s, some "not owner")
  renew token _ s := (s, if s.holder = some token then none else some "not owner")
  outside _ s := if s.holder = none then { s with taken := !s.taken } else s

theorem Slot.grants : lock.Grants holder where
  acquired e s t h := by
    simp only [lock] at h ⊢
    split at h
    · rename_i hc
      rw [if_pos hc]
      cases h
      rfl
    · cases h
  denied e s err t h ht := by
    simp only [lock] at h ht
    split at h
    · cases h
    · rename_i hc
      rwa [if_neg hc] at ht
  released t e s h := by
    simp only [lock] at h ⊢
    split at h
    · rename_i hc
      simp [hc]
    · cases h
  release t e s t' ht := by
    simp only [lock] at ht
    split at ht
    · cases ht
    · exact ht
  renew t e s t' ht := ht
  outside x s t ht := by
    simp only [lock] at ht
    split at ht
    · exact ht
    · exact ht

/-- An election of the lock in memory. -/
def sample : Config where
  name := "e"
  participantID := "p"

/-- The next actions of thread `u`; the ticker does not fire. -/
def runs (u n : Nat) : Schedule Unit Unit := List.replicate n (.run u { lock := () })

/-- `Join`, and the loop, thread 4, gets the lock and leads; then `Close`, thread 9. -/
def closeLeading : Schedule Unit Unit :=
  .start .join :: runs 0 4 ++ runs 4 4 ++ .start .close :: runs 9 4 ++ runs 4 2 ++ runs 9 3

theorem close_gives_up_lock_leading :
    ((stateAt sample Slot.lock {} closeLeading 19).threads 9).map (·.result) =
        some (some (.returned none)) ∧
      (stateAt sample Slot.lock {} closeLeading 19).shared.lock.holder = none := by
  have hth : (stateAt sample Slot.lock {} closeLeading 19).threads 9 =
      some { task := .closing true 1, born := 13, prog := .ret (.inl (.returned none)) } := rfl
  refine ⟨by rw [hth]; rfl, ?_⟩
  exact close_gives_up_lock sample Slot.grants (by decide) (by decide +kernel) (by decide +kernel)
    (by decide) hth rfl rfl

/-- `Close`, thread 7, reads the leadership when the loop has got the lock and has not recorded it. -/
def closeAcquiring : Schedule Unit Unit :=
  .start .join :: runs 0 4 ++ runs 4 2 ++ .start .close :: runs 7 4 ++ runs 4 4 ++ runs 7 2

/-- `Close` returns, nothing was to be released, and the participant still holds the lock. -/
theorem close_keeps_lock :
    Slot.lock.Grants Slot.holder ∧ Calls closeAcquiring ∧
      Conc.Run.Meets (system sample Slot.lock).step (Conc.Config.onAct (releases Slot.lock))
        { shared := { lock := {} } } closeAcquiring = true ∧
      ((stateAt sample Slot.lock {} closeAcquiring 18).threads 7).map (fun th => (th.task, th.result)) =
        some (.closing false 0, some (.returned none)) ∧
      (stateAt sample Slot.lock {} closeAcquiring 18).shared.lock.holder = some 1 :=
  ⟨Slot.grants, by decide, by decide +kernel, rfl, rfl⟩

end ShiftLock.Election
