import ShiftLock.Conc.Pool

/-!
# `Once` (`syncprim/syncprim.go`)

Any number of `Once` objects for one claim, and any interleaving of their `Do` calls, over fenced
claims that grant the claim to at most one holder at a time; others may acquire and release the claim
as well. The claims are a parameter.

The claim only serializes the executions. Whether the function has run is a flag of the object, so
another object runs it again (`once_runs_twice`). In every schedule in which a `Do` call that has got
the claim finds either its own object done or no object done, the function returns nil in at most one
call (`once_at_most_once`).
-/

namespace ShiftLock.Once

open Conc Function
open Conc.Prog (Obeys Monitor)

/-! ## The code -/

/-- `FencedClaims`, for the claim of the objects: the states of the claim, and what the environment
chooses for one call. -/
structure FencedClaims (L ε : Type) where
  acquire : ε → L → L × Except String UInt64
  release : UInt64 → ε → L → L × Option String

/-- The claim, the objects that are done, and the number of calls in which the function has returned
nil. -/
structure World (L : Type) where
  claim : L
  done : List Nat := []
  succeeded : Nat := 0

/-- What the environment fixes for one action. -/
structure Env (ε : Type) where
  claim : ε
  /-- The error of the function. -/
  err : Option String := none

/-- The atomic actions. `recheck` is the second look at `o.done`, with the claim. -/
inductive Act where
  | check (object : Nat)
  | acquire
  | recheck (object : Nat)
  | fn (token : UInt64)
  | setDone (object : Nat)
  | release (token : UInt64)
  deriving DecidableEq, Repr

abbrev Act.Answer : Act → Type
  | .check _ => Bool
  | .acquire => Except String UInt64
  | .recheck _ => Bool
  | .fn _ => Option String
  | .setDone _ => Unit
  | .release _ => Option String

def exec {L ε : Type} (claims : FencedClaims L ε) : (a : Act) → Env ε → World L → World L × a.Answer
  | .check o, _, w => (w, w.done.contains o)
  | .acquire, e, w =>
    ({ w with claim := (claims.acquire e.claim w.claim).1 }, (claims.acquire e.claim w.claim).2)
  | .recheck o, _, w => (w, w.done.contains o)
  | .fn _, e, w =>
    ({ w with succeeded := if e.err = none then w.succeeded + 1 else w.succeeded }, e.err)
  | .setDone o, _, w => ({ w with done := o :: w.done }, ())
  | .release token, e, w =>
    ({ w with claim := (claims.release token e.claim w.claim).1 },
      (claims.release token e.claim w.claim).2)

/-- What a call returns besides nil. -/
inductive Error where
  /-- `ErrUnavailable`. -/
  | unavailable
  /-- The error of the function. -/
  | fn (err : String)
  deriving DecidableEq, Repr

/-- A call of `Do` on an object, or another use of the claim. -/
inductive Task where
  | doCall (object : Nat)
  | use
  deriving DecidableEq, Repr

abbrev P := Conc.Prog Act Act.Answer

abbrev perform (a : Act) : P a.Answer := Conc.Prog.perform a

/-- The part of `Do` with the claim, and without the deferred release. -/
def doHeld (o : Nat) (token : UInt64) : P (Option Error) := do
  if ← perform (.recheck o) then return none
  match ← perform (.fn token) with
  | some err => return some (.fn err)
  | none =>
    perform (.setDone o)
    return none

/-- `Once.Do`. -/
def doCall (o : Nat) : P (Option Error) := do
  if ← perform (.check o) then return none
  match ← perform .acquire with
  | .error _ => return some .unavailable
  | .ok token =>
    let err ← doHeld o token
    let _ ← perform (.release token)
    return err

/-- Another use of the claim. -/
def use : P (Option Error) := do
  match ← perform .acquire with
  | .error _ => return some .unavailable
  | .ok token =>
    let _ ← perform (.release token)
    return none

def code : Task → P (Option Error ⊕ Task)
  | .doCall o => do return .inl (← doCall o)
  | .use => do return .inl (← use)

def system {L ε : Type} (claims : FencedClaims L ε) :
    Conc.Sys Act Act.Answer (World L) (Env ε) Empty Task (Option Error) where
  exec := exec claims
  env x := x.elim
  fork _ _ := none
  code := code

/-! ## Stages -/

/-- Where a thread is: without the claim, with it, past the second check, and past the function,
which has returned nil. -/
inductive Stage where
  | out
  | holding (token : UInt64)
  | running (token : UInt64)
  | ran (token : UInt64)
  deriving DecidableEq, Repr

/-- The token of a thread that has the claim. -/
def Stage.token : Stage → Option UInt64
  | .out => none
  | .holding t | .running t | .ran t => some t

def monitor : Monitor Act Act.Answer Stage where
  allows g
    | .check _ | .acquire => g = .out
    | .recheck _ => ∃ t, g = .holding t
    | .fn t => g = .running t
    | .setDone _ => ∃ t, g = .ran t
    | .release t => g = .holding t
  after g
    | .acquire, .ok t => .holding t
    | .recheck _, false => match g with
      | .holding t => .running t
      | g => g
    | .fn t, none => .ran t
    | .fn t, some _ => .holding t
    | .setDone _, _ => match g with
      | .ran t => .holding t
      | g => g
    | .release _, _ => .out
    | _, _ => g

theorem code_obeys (t : Task) : Obeys monitor (fun _ x => ∃ err, x = .inl err) (code t) .out := by
  have hrelease : ∀ (token : UInt64) (err : Option Error),
      Obeys monitor (fun _ _ => True) (do let _ ← perform (.release token); return err)
        (.holding token) := fun token err => Obeys.perform rfl fun _ => trivial
  have hheld : ∀ (o : Nat) (token : UInt64),
      Obeys monitor (fun g _ => g = .holding token) (doHeld o token) (.holding token) := by
    intro o token
    refine Obeys.perform ⟨token, rfl⟩ fun done => ?_
    cases done with
    | true => rfl
    | false =>
      refine Obeys.perform rfl fun err => ?_
      cases err with
      | some err => rfl
      | none => exact Obeys.perform ⟨token, rfl⟩ fun _ => rfl
  cases t with
  | doCall o =>
    refine Obeys.bind (K := fun _ _ => True) (Obeys.perform rfl fun done => ?_) fun _ err _ => ⟨err, rfl⟩
    cases done with
    | true => trivial
    | false =>
      refine Obeys.perform rfl fun token => ?_
      cases token with
      | error err => trivial
      | ok token =>
        refine (hheld o token).bind fun g err hg => ?_
        subst hg
        exact hrelease token err
  | use =>
    refine Obeys.bind (K := fun _ _ => True) (Obeys.perform rfl fun token => ?_) fun _ err _ => ⟨err, rfl⟩
    cases token with
    | error err => trivial
    | ok token => exact hrelease token none

/-! ## One execution -/

section

variable {L ε : Type}

/-- The claims grant the claim to at most one holder at a time, which keeps it until it is
released; `holder` is the token of the holder. -/
structure FencedClaims.Excludes (claims : FencedClaims L ε) (holder : L → Option UInt64) : Prop where
  acquired : ∀ e l t, (claims.acquire e l).2 = .ok t →
    holder l = none ∧ holder (claims.acquire e l).1 = some t
  denied : ∀ e l err, (claims.acquire e l).2 = .error err → holder (claims.acquire e l).1 = holder l

structure Serial (holder : L → Option UInt64) (w : World L) (G : Nat → Option Stage) : Prop where
  holder : ∀ u g t, G u = some g → g.token = some t → holder w.claim = some t
  one : ∀ u v g g', G u = some g → G v = some g' → g.token ≠ none → g'.token ≠ none → u = v
  running : ∀ u t, G u = some (.running t) → w.succeeded = 0
  recorded : w.succeeded ≠ 0 → w.done ≠ [] ∨ ∃ u t, G u = some (.ran t)
  atMostOnce : w.succeeded ≤ 1

/-- A call that has got the claim finds its own object done, or no object done. -/
def ownOrNone (_ : Task) (a : Act) (_ : Env ε) (w : World L) : Bool :=
  match a with
  | .recheck o => w.done.contains o || w.done.isEmpty
  | _ => true

variable {holder : L → Option UInt64} {claims : FencedClaims L ε} {w w' : World L}
  {G : Nat → Option Stage} {u : Nat} {g g' : Stage}

/-- A thread without the claim; what is held and counted stays as it is. -/
theorem Serial.out (h : Serial holder w G) (hg' : g'.token = none) (hg : ∀ t, G u ≠ some (.ran t))
    (hholder : ∀ v g t, v ≠ u → G v = some g → g.token = some t → holder w'.claim = some t)
    (hcount : w'.succeeded = w.succeeded) (hdone : w'.done = w.done) :
    Serial holder w' (update G u (some g')) := by
  refine ⟨fun v x t hx ht => ?_, fun v v' x x' hx hx' ht ht' => ?_, fun v t hx => ?_, fun hs => ?_, ?_⟩
  · rcases update_eq_some.mp hx with ⟨-, rfl⟩ | ⟨hv, hx⟩
    · rw [hg'] at ht
      cases ht
    · exact hholder v x t hv hx ht
  · rcases update_eq_some.mp hx with ⟨-, rfl⟩ | ⟨-, hx⟩
    · exact absurd hg' ht
    rcases update_eq_some.mp hx' with ⟨-, rfl⟩ | ⟨-, hx'⟩
    · exact absurd hg' ht'
    · exact h.one v v' x x' hx hx' ht ht'
  · rcases update_eq_some.mp hx with ⟨-, rfl⟩ | ⟨-, hx⟩
    · cases hg'
    · rw [hcount]
      exact h.running v t hx
  · rw [hcount] at hs
    rw [hdone]
    refine (h.recorded hs).imp_right fun ⟨v, t, hv⟩ => ⟨v, t, update_eq_some.mpr (.inr ⟨?_, hv⟩)⟩
    rintro rfl
    exact hg t hv
  · rw [hcount]
    exact h.atMostOnce

/-- The thread with the claim: no other has it, so what its stage says is all there is to say. -/
theorem serial_of_held {t : UInt64} (hother : ∀ v x, v ≠ u → G v = some x → x.token = none)
    (hg' : g'.token = some t) (hholder : holder w'.claim = some t)
    (hrunning : g' = .running t → w'.succeeded = 0)
    (hrecorded : w'.succeeded ≠ 0 → w'.done ≠ [] ∨ g' = .ran t) (hcount : w'.succeeded ≤ 1) :
    Serial holder w' (update G u (some g')) := by
  refine ⟨fun v x t' hx ht => ?_, fun v v' x x' hx hx' ht ht' => ?_, fun v t' hx => ?_, fun hs => ?_,
    hcount⟩
  · rcases update_eq_some.mp hx with ⟨-, rfl⟩ | ⟨hv, hx⟩
    · rw [hholder, ← hg', ht]
    · rw [hother v x hv hx] at ht
      cases ht
  · rcases update_eq_some.mp hx with ⟨rfl, -⟩ | ⟨hv, hx⟩
    · rcases update_eq_some.mp hx' with ⟨rfl, -⟩ | ⟨hv', hx'⟩
      · rfl
      · exact absurd (hother v' x' hv' hx') ht'
    · exact absurd (hother v x hv hx) ht
  · rcases update_eq_some.mp hx with ⟨-, rfl⟩ | ⟨hv, hx⟩
    · cases hg'
      exact hrunning rfl
    · cases hother v _ hv hx
  · refine (hrecorded hs).imp_right fun hr => ⟨u, t, update_eq_some.mpr (.inl ⟨rfl, hr⟩)⟩

theorem Serial.act (hclaims : claims.Excludes holder) (h : Serial holder w G) (hg : G u = some g)
    {a : Act} (ha : monitor.allows g a) {t : Task} {e : Env ε} (hcond : ownOrNone t a e w = true) :
    Serial holder (exec claims a e w).1
      (update G u (some (monitor.after g a (exec claims a e w).2))) := by
  have hother : g.token ≠ none → ∀ v x, v ≠ u → G v = some x → x.token = none := by
    intro hne v x hv hx
    by_contra hx'
    exact hv (h.one v u x g hx hg hx' hne)
  -- a thread past its function is this one
  have hrecorded : g.token ≠ none → w.succeeded ≠ 0 → w.done ≠ [] ∨ ∃ t, g = .ran t := by
    intro hne hs
    refine (h.recorded hs).imp_right fun ⟨v, t, hv⟩ => ⟨t, ?_⟩
    have hvu := h.one v u _ g hv hg (by simp [Stage.token]) hne
    subst hvu
    exact Option.some.inj (hg.symm.trans hv)
  cases a with
  | check o =>
    obtain rfl : g = .out := ha
    exact h.out rfl (by simp [hg]) (fun v x t _ hx ht => h.holder v x t hx ht) rfl rfl
  | acquire =>
    obtain rfl : g = .out := ha
    cases hr : (claims.acquire e.claim w.claim).2 with
    | error err =>
      have hafter : monitor.after .out .acquire (exec claims .acquire e w).2 = .out := by
        simp [exec, hr, monitor]
      rw [hafter]
      refine h.out rfl (by simp [hg]) (fun v x t _ hx ht => ?_) rfl rfl
      exact (hclaims.denied _ _ err hr).trans (h.holder v x t hx ht)
    | ok t =>
      obtain ⟨hfree, hheld⟩ := hclaims.acquired _ _ t hr
      have hnone : ∀ v x, G v = some x → x.token = none := by
        intro v x hx
        cases ht : x.token with
        | none => rfl
        | some t' =>
          rw [h.holder v x t' hx ht] at hfree
          cases hfree
      have hafter : monitor.after .out .acquire (exec claims .acquire e w).2 = .holding t := by
        simp [exec, hr, monitor]
      rw [hafter]
      refine serial_of_held (fun v x _ hx => hnone v x hx) rfl hheld (fun hx => by cases hx)
        (fun hs => .inl ?_) h.atMostOnce
      refine (h.recorded hs).resolve_right ?_
      rintro ⟨v, t', hv⟩
      cases hnone v _ hv
  | recheck o =>
    obtain ⟨t, rfl⟩ := ha
    have hholder := h.holder u _ t hg rfl
    have hdone : w.succeeded ≠ 0 → w.done ≠ [] := fun hs =>
      (hrecorded (by simp [Stage.token]) hs).resolve_right (by simp)
    cases hr : w.done.contains o with
    | true =>
      have hafter : monitor.after (.holding t) (.recheck o) (exec claims (.recheck o) e w).2 =
          .holding t := by simp only [exec, hr, monitor]
      rw [hafter]
      exact serial_of_held (hother (by simp [Stage.token])) rfl hholder (fun hx => by cases hx)
        (fun hs => .inl (hdone hs)) h.atMostOnce
    | false =>
      have hafter : monitor.after (.holding t) (.recheck o) (exec claims (.recheck o) e w).2 =
          .running t := by simp only [exec, hr, monitor]
      rw [hafter]
      have hzero : w.succeeded = 0 := by
        by_contra hs
        rw [ownOrNone, hr, Bool.false_or] at hcond
        exact hdone hs (List.isEmpty_iff.mp hcond)
      exact serial_of_held (hother (by simp [Stage.token])) rfl hholder (fun _ => hzero)
        (fun hs => absurd hzero hs) h.atMostOnce
  | fn t =>
    obtain rfl : g = .running t := ha
    have hholder := h.holder u _ t hg rfl
    have hzero := h.running u t hg
    cases hr : e.err with
    | none =>
      have hw : (exec claims (.fn t) e w).1.succeeded = 1 := by simp [exec, hr, hzero]
      have hafter : monitor.after (.running t) (.fn t) (exec claims (.fn t) e w).2 = .ran t := by
        simp only [exec, hr, monitor]
      rw [hafter]
      exact serial_of_held (hother (by simp [Stage.token])) rfl hholder (fun hx => by cases hx)
        (fun _ => .inr rfl) (Nat.le_of_eq hw)
    | some err =>
      have hw : (exec claims (.fn t) e w).1.succeeded = 0 := by simp [exec, hr, hzero]
      have hafter : monitor.after (.running t) (.fn t) (exec claims (.fn t) e w).2 = .holding t := by
        simp only [exec, hr, monitor]
      rw [hafter]
      exact serial_of_held (hother (by simp [Stage.token])) rfl hholder (fun hx => by cases hx)
        (fun hs => absurd hw hs) (by omega)
  | setDone o =>
    obtain ⟨t, rfl⟩ := ha
    exact serial_of_held (hother (by simp [Stage.token])) rfl (h.holder u _ t hg rfl)
      (fun hx => by cases hx) (fun _ => .inl (List.cons_ne_nil _ _)) h.atMostOnce
  | release t =>
    obtain rfl : g = .holding t := ha
    refine h.out rfl (by simp [hg]) (fun v x t' hv hx ht => ?_) rfl rfl
    rw [hother (by simp [Stage.token]) v x hv hx] at ht
    cases ht

abbrev Schedule (ε : Type) := List (Move (Env ε) Empty Task)

/-- The configuration after `i` moves, before which no object is done. -/
abbrev stateAt (claims : FencedClaims L ε) (l : L) (xs : Schedule ε) (i : Nat) :
    Conc.Config Act Act.Answer (World L) Task (Option Error) :=
  (system claims).stateAt { claim := l } xs i

/-- **The function returns nil in at most one call**, in every schedule in which a call that has got
the claim finds its own object done or no object done. -/
theorem once_at_most_once (hclaims : claims.Excludes holder) {l : L} {xs : Schedule ε}
    (hcond : Conc.Run.Meets (system claims).step (Conc.Config.onAct ownOrNone)
      { shared := { claim := l } } xs = true) {i : Nat} (hi : i ≤ xs.length) :
    (stateAt claims l xs i).shared.succeeded ≤ 1 := by
  suffices hall : Serial holder (stateAt claims l xs i).shared
      ((system claims).watchAt monitor (fun _ => .out) { claim := l } xs i) from hall.atMostOnce
  refine Run.along (J := fun i => Serial holder (stateAt claims l xs i).shared
    ((system claims).watchAt monitor (fun _ => .out) { claim := l } xs i)) ?_
    (fun i x hx ih => ?_) hi
  · refine ⟨fun u g t hg => ?_, fun u v g g' hg => ?_, fun u t hg => ?_, fun hs => ?_, Nat.zero_le 1⟩
    iterate 3 cases hg
    exact absurd rfl hs
  have hmoved : Moved (system claims) monitor (fun _ => .out) (fun _ _ x => ∃ err, x = .inl err)
      (stateAt claims l xs i) ((system claims).watchAt monitor (fun _ => .out) { claim := l } xs i) x
      (stateAt claims l xs (i + 1))
      ((system claims).watchAt monitor (fun _ => .out) { claim := l } xs (i + 1)) :=
    Sys.moved code_obeys hx
  have hmeets := Run.meets_getElem hcond hx
  have htracks : Tracks monitor (fun _ _ x => ∃ err, x = .inl err) (stateAt claims l xs i)
      ((system claims).watchAt monitor (fun _ => .out) { claim := l } xs i) :=
    Sys.tracks code_obeys i
  generalize stateAt claims l xs (i + 1) = c' at hmoved ⊢
  generalize (system claims).watchAt monitor (fun _ => Stage.out) { claim := l } xs (i + 1) = G'
    at hmoved ⊢
  cases hmoved with
  | idle => exact ih
  | start t =>
    refine ih.out rfl (fun t ht => ?_) (fun v g t _ hg ht => ih.holder v g t hg ht) rfl rfl
    rw [htracks.at_clock] at ht
    cases ht
  | env x => exact x.elim
  | jump u e th g t hth hp hg hQ =>
    obtain ⟨err, herr⟩ := hQ
    cases herr
  | act u e th g a k hth hp hg ha hf =>
    exact ih.act hclaims hg ha (Conc.Config.of_onAct hmeets hth hp)
  | fork u e th g a k t hth hp hg ha hf => cases hf

end

/-! ## A claim in memory -/

/-- The token of the holder, and the last token. -/
structure Slot where
  holder : Option UInt64 := none
  last : UInt64 := 0

def Slot.claims : FencedClaims Slot Unit where
  acquire _ s :=
    if s.holder = none then ({ holder := some (s.last + 1), last := s.last + 1 }, .ok (s.last + 1))
    else (s, .error "held")
  release token _ s :=
    if s.holder = some token then ({ s with holder := none }, none) else (s, some "not owner")

theorem Slot.excludes : claims.Excludes holder where
  acquired e s t h := by
    simp only [claims] at h ⊢
    split at h
    · rename_i hfree
      rw [if_pos hfree]
      cases h
      exact ⟨hfree, rfl⟩
    · cases h
  denied e s err h := by
    simp only [claims] at h ⊢
    split at h
    · cases h
    · rename_i hheld
      rw [if_neg hheld]

/-- A call of `Do` as thread `u`, alone; the function returns nil. -/
def call (u o : Nat) : Schedule Unit := Conc.alone u (.doCall o) { claim := () } 6

/-- Two calls on one object. -/
theorem once_at_most_once_again :
    (stateAt Slot.claims {} (call 0 0 ++ call 7 0) 14).shared.done = [0] ∧
      (stateAt Slot.claims {} (call 0 0 ++ call 7 0) 14).shared.succeeded ≤ 1 :=
  ⟨rfl, once_at_most_once Slot.excludes (by decide +kernel) (by decide)⟩

/-- One call on each of two objects. -/
theorem once_runs_twice :
    Slot.claims.Excludes Slot.holder ∧
      (stateAt Slot.claims {} (call 0 0 ++ call 7 1) 14).shared.succeeded = 2 :=
  ⟨Slot.excludes, rfl⟩

end ShiftLock.Once
