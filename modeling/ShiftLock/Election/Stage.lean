import ShiftLock.Election.Code

/-!
# The stages of the threads of an election

The monitor of an election follows each thread through its program (`Stage`), and `code_obeys` says
that every task obeys it. `Phases` relates the stages to the flags of the election, in every
schedule in which callers only start calls (`phases_at`): one `Join` makes the election and starts
one loop, one `Close` gets past its first section, it waits until the loop has returned, and only
then it closes the event channel.
-/

namespace ShiftLock.Election

open Conc
open Conc.Prog (Obeys Monitor)

inductive Stage where
  | idle
  /-- `Join` has made the election and has not started its loop. -/
  | making
  /-- The loop. -/
  | looping
  /-- A call on the election. -/
  | calling
  /-- A `Resign` or `Transfer` whose release has succeeded. -/
  | leaving
  /-- `Close` has read the leadership. -/
  | cancelling (leading : Bool) (token : UInt64)
  /-- `Close` has cancelled the loop; it still has to release `token` if `leading`. The loop has
  returned if `waited`. -/
  | closing (leading : Bool) (token : UInt64) (waited : Bool)
  /-- `Close` has closed the event channel, or has found the election closed. -/
  | closed
  deriving DecidableEq, Repr

/-- The actions of a thread in a stage. -/
def Stage.allows (g : Stage) : Act → Prop
  | .allow | .make | .present => g = .idle
  | .spawn => g = .making
  | .acquire | .renew _ | .lead _ | .select | .done => g = .looping
  | .read => g = .looping ∨ g = .calling
  | .clear => g = .looping ∨ g = .leaving
  | .emit .. => g = .making ∨ g = .looping ∨ g = .leaving
  | .release token => g = .calling ∨ g = .closing true token true
  | .closeBegin => g = .calling
  | .cancel => ∃ leading token, g = .cancelling leading token
  | .wait => ∃ leading token, g = .closing leading token false
  | .closeEvents => ∃ token, g = .closing false token true

def Stage.after : Stage → (a : Act) → a.Answer → Stage
  | g, .make, made => if made then .making else g
  | _, .spawn, _ => .idle
  | _, .done, _ => .idle
  | g, .present, present => if present then .calling else g
  | .calling, .release _, err => if err.isSome then .calling else .leaving
  | .closing _ token waited, .release _, _ => .closing false token waited
  | _, .closeBegin, none => .closed
  | _, .closeBegin, some state => .cancelling state.1 state.2
  | .closing leading token _, .wait, stopped => .closing leading token stopped
  | _, .closeEvents, _ => .closed
  | g, _, _ => g

def monitor : Monitor Act Act.Answer Stage where
  allows := Stage.allows
  after := Stage.after

def Task.stage : Task → Stage
  | .loop => .looping
  | .closing leading token => .closing leading token false
  | _ => .idle

/-- The stage in which a task that ends in stage `g` goes on with another one. -/
def Stage.goesOn : Stage → Stage
  | .cancelling leading token => .closing leading token false
  | g => g

def Ends (t : Task) (g : Stage) : Result ⊕ Task → Prop
  | .inl r => match t with
    | .close | .closing _ _ => ∀ err, r = .returned err → g = .closed
    | _ => True
  | .inr t' => t'.stage = g.goesOn

theorem resign_obeys :
    Obeys monitor (fun g err => err = none → g = .leaving) resign .calling := by
  refine Obeys.perform (.inr rfl) fun state => ?_
  split
  · refine Obeys.perform (.inl rfl) fun err => ?_
    cases err with
    | some err => exact fun h => by cases h
    | none =>
      exact Obeys.perform (.inr rfl) fun _ => Obeys.perform (.inr (.inr rfl)) fun _ _ => rfl
  · exact fun h => by cases h

theorem transfer_obeys : Obeys monitor (fun _ _ => True) transfer .calling := by
  refine resign_obeys.bind fun g err h => ?_
  cases err with
  | some err => trivial
  | none =>
    obtain rfl := h rfl
    exact Obeys.perform (.inr (.inr rfl)) fun _ => trivial

theorem join_obeys (cfg : Config) : Obeys monitor (fun _ _ => True) (join cfg) .idle := by
  unfold join
  split
  · trivial
  · refine Obeys.perform rfl fun err => ?_
    cases err with
    | some err => trivial
    | none =>
      refine Obeys.perform rfl fun made => ?_
      cases made with
      | false => trivial
      | true => exact Obeys.perform (.inl rfl) fun _ => Obeys.perform rfl fun _ => trivial

theorem loopRound_obeys (cfg : Config) :
    Obeys monitor (fun g _ => g = .looping) (loopRound cfg) .looping := by
  have hselect : Obeys monitor (fun g _ => g = .looping) (perform .select) .looping :=
    Obeys.perform rfl fun _ => rfl
  refine Obeys.perform (.inl rfl) fun state => ?_
  split
  · refine Obeys.perform rfl fun err => ?_
    cases err with
    | none => exact hselect
    | some err =>
      exact Obeys.perform (.inl rfl) fun _ => Obeys.perform (.inr (.inl rfl)) fun _ => hselect
  · refine Obeys.perform rfl fun token => ?_
    cases token with
    | error err => exact Obeys.perform (.inr (.inl rfl)) fun _ => hselect
    | ok token =>
      exact Obeys.perform rfl fun _ => Obeys.perform (.inr (.inl rfl)) fun _ => hselect

theorem onElection_obeys {t : Task} {p : P (Result ⊕ Task)} (h : Obeys monitor (Ends t) p .calling) :
    Obeys monitor (Ends t) (onElection p) .idle := by
  refine Obeys.perform rfl fun present => ?_
  cases present with
  | true => exact h
  | false => cases t <;> simp [Ends]

theorem code_obeys (cfg : Config) (t : Task) : Obeys monitor (Ends t) (code cfg t) t.stage := by
  cases t with
  | join => exact (join_obeys cfg).bind fun _ _ _ => trivial
  | loop =>
    refine (loopRound_obeys cfg).bind fun g stop hg => ?_
    subst hg
    cases stop with
    | true => exact Obeys.perform rfl fun _ => trivial
    | false => rfl
  | resign => exact onElection_obeys (resign_obeys.bind fun _ _ _ => trivial)
  | transfer => exact onElection_obeys (transfer_obeys.bind fun _ _ _ => trivial)
  | close =>
    refine onElection_obeys (Obeys.perform rfl fun state => ?_)
    cases state with
    | none => exact fun _ _ => rfl
    | some state => exact Obeys.perform ⟨_, _, rfl⟩ fun _ => rfl
  | closing leading token =>
    refine Obeys.perform ⟨_, _, rfl⟩ fun stopped => ?_
    cases stopped with
    | false => rfl
    | true =>
      cases leading with
      | true => exact Obeys.perform (.inr rfl) fun _ => Obeys.perform ⟨_, rfl⟩ fun _ _ _ => rfl
      | false => exact Obeys.perform ⟨_, rfl⟩ fun _ _ _ => rfl

/-! ## Stages and flags -/

/-- The part in the election that only one thread has at a time. -/
inductive Role where
  | maker
  | looper
  | closer
  deriving DecidableEq

def Stage.role : Stage → Option Role
  | .making => some .maker
  | .looping => some .looper
  | .cancelling .. | .closing .. => some .closer
  | _ => none

variable {L ε ι : Type}

/-- What the flags are while a thread is in a stage. -/
def Stage.Fits (w : World L) : Stage → Prop
  | .idle => True
  | .making => w.made = true ∧ w.joined = false
  | .looping => w.looping = true ∧ w.joined = true
  | .calling | .leaving => w.joined = true
  | .cancelling _ _ => w.joined = true ∧ w.closed = true ∧ w.eventsClosed = false
  | .closing _ _ waited => w.joined = true ∧ w.closed = true ∧ w.eventsClosed = false ∧
      (waited = true → w.looping = false)
  | .closed => w.closed = true

structure Flags (w : World L) : Prop where
  made : w.joined = true → w.made = true
  looping : w.looping = true → w.joined = true
  closed : w.closed = true → w.joined = true
  eventsClosed : w.eventsClosed = true → w.closed = true ∧ w.looping = false

/-- The flags and the stages of all threads. -/
structure Phases (w : World L) (G : Nat → Option Stage) : Prop where
  flags : Flags w
  fits : ∀ u g, G u = some g → g.Fits w
  one : ∀ u v g g', G u = some g → G v = some g' → g.role = g'.role → g.role ≠ none → u = v

variable {w w' : World L} {G : Nat → Option Stage} {u : Nat} {g g' : Stage}

/-- Thread `u` goes from stage `g` to stage `g'`. -/
theorem Phases.update (h : Phases w G) (hflags : Flags w') (hfits : g'.Fits w')
    (hother : ∀ v x, v ≠ u → G v = some x → x.Fits w')
    (hrole : g'.role = none ∨ ∀ v x, v ≠ u → G v = some x → x.role ≠ g'.role) :
    Phases w' (Function.update G u (some g')) := by
  refine ⟨hflags, fun v x hv => ?_, fun v v' x x' hv hv' hx hne => ?_⟩
  · by_cases hvu : v = u
    · subst hvu
      rw [Function.update_self, Option.some.injEq] at hv
      exact hv ▸ hfits
    · rw [Function.update_of_ne hvu] at hv
      exact hother v x hvu hv
  · by_cases hvu : v = u <;> by_cases hvu' : v' = u
    · rw [hvu, hvu']
    · subst hvu
      rw [Function.update_self, Option.some.injEq] at hv
      rw [Function.update_of_ne hvu'] at hv'
      subst hv
      exact absurd hx.symm (hrole.resolve_left hne v' x' hvu' hv')
    · subst hvu'
      rw [Function.update_self, Option.some.injEq] at hv'
      rw [Function.update_of_ne hvu] at hv
      subst hv'
      exact absurd hx (hrole.resolve_left (hx ▸ hne) v x hvu hv)
    · rw [Function.update_of_ne hvu] at hv
      rw [Function.update_of_ne hvu'] at hv'
      exact h.one v v' x x' hv hv' hx hne

/-- No other thread has the role of thread `u`. -/
theorem Phases.role_ne (h : Phases w G) (hg : G u = some g) (hrole : g.role ≠ none)
    (heq : g'.role = g.role) (v : Nat) (x : Stage) (hv : v ≠ u) (hx : G v = some x) :
    x.role ≠ g'.role :=
  fun hr => hv (h.one u v g x hg hx (by rw [hr, heq]) hrole).symm

/-- The flags that stages depend on are the same. -/
structure SameFlags (w w' : World L) : Prop where
  made : w'.made = w.made
  joined : w'.joined = w.joined
  looping : w'.looping = w.looping
  closed : w'.closed = w.closed
  eventsClosed : w'.eventsClosed = w.eventsClosed

theorem SameFlags.fits (h : SameFlags w w') : g.Fits w' ↔ g.Fits w := by
  cases g <;> simp only [Stage.Fits, h.made, h.joined, h.looping, h.closed, h.eventsClosed]

theorem SameFlags.flags (h : SameFlags w w') (hw : Flags w) : Flags w' := by
  constructor <;> simp only [h.made, h.joined, h.looping, h.closed, h.eventsClosed]
  · exact hw.made
  · exact hw.looping
  · exact hw.closed
  · exact hw.eventsClosed

theorem sameFlags_send (w : World L) (n : Nat) (ev : Event) : SameFlags w (w.send n ev) := by
  unfold World.send
  split
  · exact ⟨rfl, rfl, rfl, rfl, rfl⟩
  · split <;> exact ⟨rfl, rfl, rfl, rfl, rfl⟩

/-- An action that does not touch the flags. -/
theorem Phases.same (h : Phases w G) (hg : G u = some g) (hw : SameFlags w w') (hfits : g'.Fits w)
    (hrole : g'.role = none ∨ g'.role = g.role) : Phases w' (Function.update G u (some g')) := by
  refine h.update (hw.flags h.flags) (hw.fits.mpr hfits)
    (fun v x _ hx => hw.fits.mpr (h.fits v x hx)) ?_
  by_cases hnone : g'.role = none
  · exact .inl hnone
  · have heq := hrole.resolve_left hnone
    exact .inr (h.role_ne hg (heq ▸ hnone) heq)

theorem Phases.make (h : Phases w G) (hg : G u = some .idle) (cfg : Config)
    (lock : FencedLock L ε ι) (e : Env ε) :
    Phases (exec cfg lock .make e w).1
      (Function.update G u (some (Stage.after .idle .make (exec cfg lock .make e w).2))) := by
  cases hmade : w.made with
  | true =>
    have hw : SameFlags w { w with made := true } := ⟨hmade.symm, rfl, rfl, rfl, rfl⟩
    simp only [exec, hmade, Stage.after]
    exact h.same hg hw trivial (.inl rfl)
  | false =>
    have hjoined : w.joined = false := by
      by_contra hj
      have := h.flags.made (by simpa using hj)
      rw [hmade] at this
      cases this
    -- a maker has found the election not made
    have hnone : ∀ v x, G v = some x → x.role ≠ some .maker := by
      intro v x hx hr
      have hf := h.fits v x hx
      cases x <;> simp_all [Stage.role, Stage.Fits]
    simp only [exec, hmade, Stage.after]
    refine h.update ⟨fun _ => rfl, h.flags.looping, h.flags.closed, h.flags.eventsClosed⟩
      ⟨rfl, hjoined⟩ (fun v x _ hx => ?_) (.inr fun v x _ hx => hnone v x hx)
    have hf := h.fits v x hx
    cases x <;> simp_all [Stage.role, Stage.Fits]

theorem Phases.initial (l : L) : Phases ({ lock := l } : World L) fun _ => none := by
  refine ⟨⟨?_, ?_, ?_, ?_⟩, fun u g hg => ?_, fun u v g g' hg => ?_⟩
  iterate 4 exact fun h => absurd h Bool.false_ne_true
  · cases hg
  · cases hg

theorem Phases.congr (h : Phases w G) (hw : SameFlags w w') : Phases w' G :=
  ⟨hw.flags h.flags, fun u g hg => hw.fits.mpr (h.fits u g hg), h.one⟩

/-- `Join` starts the loop as thread `n`. -/
theorem Phases.spawn (h : Phases w G) (hg : G u = some .making) (n : Nat) :
    Phases { w with joined := true, looping := true }
      (Function.update (Function.update G u (some .idle)) n (some .looping)) := by
  obtain ⟨hmade, hjoined⟩ := h.fits u _ hg
  have hclosed : w.closed = false := by
    by_contra hc
    have := h.flags.closed (by simpa using hc)
    rw [hjoined] at this
    cases this
  have hevents : w.eventsClosed = false := by
    by_contra hc
    have := (h.flags.eventsClosed (by simpa using hc)).1
    rw [hclosed] at this
    cases this
  have hother : ∀ v x, v ≠ u → G v = some x → x = .idle := by
    intro v x hv hx
    have hmaker := h.role_ne hg (by simp [Stage.role]) rfl v x hv hx
    have hf := h.fits v x hx
    cases x <;> simp_all [Stage.role, Stage.Fits]
  have hidle : Phases { w with joined := true, looping := true }
      (Function.update G u (some .idle)) := by
    refine h.update ⟨fun _ => hmade, fun _ => rfl, fun _ => rfl, fun he => ?_⟩ trivial
      (fun v x hv hx => by rw [hother v x hv hx]; trivial) (.inl rfl)
    rw [hevents] at he
    cases he
  refine hidle.update hidle.flags ⟨rfl, rfl⟩ (fun v x _ hx => hidle.fits v x hx)
    (.inr fun v x _ hx => ?_)
  by_cases hv : v = u
  · subst hv
    rw [Function.update_self, Option.some.injEq] at hx
    simp [← hx, Stage.role]
  · rw [Function.update_of_ne hv] at hx
    simp [hother v x hv hx, Stage.role]

theorem Phases.done (h : Phases w G) (hg : G u = some .looping) :
    Phases { w with looping := false } (Function.update G u (some .idle)) := by
  have hflags : Flags { w with looping := false } :=
    ⟨h.flags.made, fun hl => absurd hl Bool.false_ne_true, h.flags.closed,
      fun he => ⟨(h.flags.eventsClosed he).1, rfl⟩⟩
  refine h.update hflags trivial (fun v x hv hx => ?_) (.inl rfl)
  have hlooper := h.role_ne hg (by simp [Stage.role]) rfl v x hv hx
  have hf := h.fits v x hx
  cases x <;> simp_all [Stage.role, Stage.Fits]

theorem Phases.closeBegin (h : Phases w G) (hg : G u = some .calling) (cfg : Config)
    (lock : FencedLock L ε ι) (e : Env ε) :
    Phases (exec cfg lock .closeBegin e w).1
      (Function.update G u
        (some (Stage.after .calling .closeBegin (exec cfg lock .closeBegin e w).2))) := by
  have hjoined : w.joined = true := h.fits u _ hg
  cases hclosed : w.closed with
  | true =>
    have hw : SameFlags w { w with closed := true } := ⟨rfl, rfl, rfl, hclosed.symm, rfl⟩
    simp only [exec, hclosed, if_pos, Stage.after]
    exact h.same hg hw hclosed (.inl rfl)
  | false =>
    have hevents : w.eventsClosed = false := by
      by_contra hc
      have := (h.flags.eventsClosed (by simpa using hc)).1
      rw [hclosed] at this
      cases this
    simp only [exec, hclosed, Bool.false_eq_true, if_false, Stage.after]
    refine h.update ⟨h.flags.made, h.flags.looping, fun _ => hjoined, fun he => ?_⟩
      ⟨hjoined, rfl, hevents⟩ (fun v x _ hx => ?_) (.inr fun v x _ hx => ?_)
    · rw [hevents] at he
      cases he
    · have hf := h.fits v x hx
      cases x <;> simp_all [Stage.Fits]
    · have hf := h.fits v x hx
      cases x <;> simp_all [Stage.role, Stage.Fits]

theorem Phases.closeEvents {token : UInt64} (h : Phases w G)
    (hg : G u = some (.closing false token true)) :
    Phases { w with eventsClosed := true } (Function.update G u (some .closed)) := by
  obtain ⟨-, hclosed, -, hlooping⟩ := h.fits u _ hg
  refine h.update ⟨h.flags.made, h.flags.looping, h.flags.closed, fun _ => ⟨hclosed, hlooping rfl⟩⟩
    hclosed (fun v x hv hx => ?_) (.inl rfl)
  have hcloser := h.role_ne hg (by simp [Stage.role]) rfl v x hv hx
  have hf := h.fits v x hx
  cases x <;> simp_all [Stage.role, Stage.Fits]

theorem Phases.goesOn (h : Phases w G) (hg : G u = some g) :
    Phases w (Function.update G u (some g.goesOn)) := by
  refine h.same hg ⟨rfl, rfl, rfl, rfl, rfl⟩ ?_ ?_
  · have hf := h.fits u g hg
    cases g <;> simp_all [Stage.goesOn, Stage.Fits]
  · cases g <;> exact .inr rfl

/-- Every action but the one that starts the loop. -/
theorem Phases.act (h : Phases w G) (hg : G u = some g) {a : Act} (ha : g.allows a)
    (hspawn : a ≠ .spawn) (cfg : Config) (lock : FencedLock L ε ι) (e : Env ε) :
    Phases (exec cfg lock a e w).1
      (Function.update G u (some (g.after a (exec cfg lock a e w).2))) := by
  have hfits := h.fits u g hg
  have hsame : SameFlags w w := ⟨rfl, rfl, rfl, rfl, rfl⟩
  cases a with
  | spawn => exact absurd rfl hspawn
  | make =>
    obtain rfl := ha
    exact h.make hg cfg lock e
  | closeBegin =>
    obtain rfl := ha
    exact h.closeBegin hg cfg lock e
  | done =>
    obtain rfl := ha
    exact h.done hg
  | closeEvents =>
    obtain ⟨token, rfl⟩ := ha
    exact h.closeEvents hg
  | wait =>
    obtain ⟨leading, token, rfl⟩ := ha
    obtain ⟨hjoined, hclosed, hevents, -⟩ := hfits
    exact h.same hg hsame ⟨hjoined, hclosed, hevents, fun hw => by simpa [exec] using hw⟩ (.inr rfl)
  | present =>
    obtain rfl := ha
    cases hjoined : w.joined with
    | true =>
      simp only [exec, hjoined, Stage.after, if_true]
      exact h.same hg hsame hjoined (.inl rfl)
    | false =>
      simp only [exec, hjoined, Stage.after, Bool.false_eq_true, if_false]
      exact h.same hg hsame trivial (.inl rfl)
  | release token =>
    have hw : SameFlags w (exec cfg lock (.release token) e w).1 := ⟨rfl, rfl, rfl, rfl, rfl⟩
    rcases ha with rfl | rfl
    · simp only [Stage.after]
      split
      · exact h.same hg hw hfits (.inl rfl)
      · exact h.same hg hw hfits (.inl rfl)
    · exact h.same hg hw hfits (.inr rfl)
  | emit type leader token err => exact h.same hg (sameFlags_send _ _ _) hfits (.inr rfl)
  | _ => exact h.same hg ⟨rfl, rfl, rfl, rfl, rfl⟩ hfits (.inr rfl)

/-! ## Schedules -/

abbrev Schedule (ε ι : Type) := List (Move (Env ε) (Outside ι) Task)

def isCall : Move (Env ε) (Outside ι) Task → Bool
  | .start t => t.isCall
  | _ => true

/-- Callers only start calls. -/
abbrev Calls (xs : Schedule ε ι) : Prop := ∀ x ∈ xs, isCall x = true

variable (cfg : Config) (lock : FencedLock L ε ι) (l : L) (xs : Schedule ε ι)

/-- The configuration after `i` moves, before which there is no election. -/
abbrev stateAt (i : Nat) : Conc.Config Act Act.Answer (World L) Task Result :=
  (system cfg lock).stateAt { lock := l } xs i

/-- The stages of the threads after `i` moves. -/
abbrev stagesAt (i : Nat) : Nat → Option Stage :=
  (system cfg lock).watchAt monitor Task.stage { lock := l } xs i

variable {xs}

/-- What the `i`-th move of a schedule does. -/
theorem moved_at {i : Nat} {x : Move (Env ε) (Outside ι) Task} (hx : xs[i]? = some x) :
    Moved (system cfg lock) monitor Task.stage Ends (stateAt cfg lock l xs i)
      (stagesAt cfg lock l xs i) x (stateAt cfg lock l xs (i + 1))
      (stagesAt cfg lock l xs (i + 1)) :=
  Sys.moved (code_obeys cfg) hx

/-- The actions that start a goroutine. -/
theorem fork_eq_some {a : Act} {r : a.Answer} {t : Task} (h : fork a r = some t) :
    a = .spawn ∧ t = .loop := by
  cases a <;> cases h
  exact ⟨rfl, rfl⟩

theorem phases_at (hxs : Calls xs) {i : Nat} (hi : i ≤ xs.length) :
    Phases (stateAt cfg lock l xs i).shared (stagesAt cfg lock l xs i) := by
  refine Run.along (J := fun i => Phases (stateAt cfg lock l xs i).shared
    (stagesAt cfg lock l xs i)) ?_ (fun i x hx ih => ?_) hi
  · exact .initial l
  have hmoved := moved_at cfg lock l hx
  generalize stateAt cfg lock l xs (i + 1) = c' at hmoved ⊢
  generalize stagesAt cfg lock l xs (i + 1) = G' at hmoved ⊢
  cases hmoved with
  | idle => exact ih
  | start t =>
    have hcall : t.stage = .idle := by
      have := hxs _ (List.mem_of_getElem? hx)
      cases t <;> first | rfl | cases this
    rw [hcall]
    exact ih.update ih.flags trivial (fun v x _ hx => ih.fits v x hx) (.inl rfl)
  | env x => cases x <;> exact ih.congr ⟨rfl, rfl, rfl, rfl, rfl⟩
  | jump u e th g t hth hp hg hQ =>
    have hstage : t.stage = g.goesOn := hQ
    rw [hstage]
    exact ih.goesOn hg
  | act u e th g a k hth hp hg ha hf =>
    refine ih.act hg ha (fun hs => ?_) cfg lock e
    subst hs
    cases hf
  | fork u e th g a k t hth hp hg ha hf =>
    obtain ⟨rfl, rfl⟩ := fork_eq_some hf
    obtain rfl : g = .making := ha
    exact ih.spawn hg _

end ShiftLock.Election
