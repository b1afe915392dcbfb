import ShiftLock.Conc.Pool
import Mathlib.Data.Finset.Insert
import Mathlib.Data.Finset.Card

/-!
# Barriers (`barrier/barrier.go`)

The calls of one barrier and every interleaving of their critical sections. A `Wait` that is queued
holds a channel, which is closed when the barrier is released; its `select` may also find its context
done, and which of the two it takes is up to the environment.

`Close` wakes the queued waiters the way a release does, and they return nil (`close_opens_barrier`).
In every schedule in which `Close` finds the barrier released or closed, or no `Wait` in its `select`,
a `Wait` returns nil only after the policy was met (`wait_nil_after_policy`).
-/

namespace ShiftLock.Barrier

open Conc Function
open Conc.Prog (Obeys Monitor)

/-! ## The code -/

inductive Policy where
  | minimumCount
  | quorum
  | exact
  | all
  | other (text : String)
  deriving DecidableEq, Repr

/-- `Config`, without the name and the clock, which nothing reads. -/
structure Config where
  epoch : UInt64
  maxParticipants : Int
  policy : Policy := .other ""
  minimumCount : Int := 0
  deriving DecidableEq, Repr

/-- `New`: the configuration of the barrier. -/
def Config.new (cfg : Config) : Except String Config :=
  if cfg.maxParticipants ≤ 0 then .error "barrier: MaxParticipants required"
  else .ok { cfg with
    policy := if cfg.policy = .other "" then .minimumCount else cfg.policy
    minimumCount := if cfg.minimumCount ≤ 0 then cfg.maxParticipants else cfg.minimumCount }

/-- `satisfiedLocked` with `n` participants. -/
def Config.satisfied (cfg : Config) (n : Nat) : Bool :=
  match cfg.policy with
  | .quorum => cfg.maxParticipants / 2 + 1 ≤ n
  | .exact => n = cfg.minimumCount
  | .all => cfg.maxParticipants ≤ n
  | _ => cfg.minimumCount ≤ n

/-- Of at most `MaxParticipants`, these policies ask for the majority, or for all. -/
theorem Config.satisfied_iff (cfg : Config) (n : Nat) (h : n ≤ cfg.maxParticipants) :
    (cfg.policy = .quorum → (cfg.satisfied n = true ↔ cfg.maxParticipants < 2 * n)) ∧
      (cfg.policy = .all → (cfg.satisfied n = true ↔ n = cfg.maxParticipants)) := by
  constructor
  · intro hp
    simp only [satisfied, hp, decide_eq_true_eq]
    omega
  · intro hp
    simp only [satisfied, hp, decide_eq_true_eq]
    omega

inductive Error where
  | closed
  | full
  | epoch
  | duplicate
  | policy
  | ctx (text : String)
  deriving DecidableEq, Repr

/-- `Barrier`: a channel is a number, and `broken` are the channels that are closed. -/
structure World where
  participants : Finset String := ∅
  released : Bool := false
  closed : Bool := false
  waiters : List Nat := []
  broken : List Nat := []
  nextChan : Nat := 0

/-- `releaseLocked`. -/
def World.release (w : World) : World :=
  { w with released := true, broken := w.broken ++ w.waiters, waiters := [] }

/-- The section of `Arrive`. -/
def World.arrive (cfg : Config) (w : World) (id : String) : World × Option Error :=
  if w.closed then (w, some .closed)
  else if id ∈ w.participants then (w, some .duplicate)
  else if cfg.maxParticipants ≤ w.participants.card then (w, some .full)
  else
    let w := { w with participants := insert id w.participants }
    (if cfg.satisfied w.participants.card then w.release else w, none)

/-- How the section of `Wait` ends. -/
inductive Entry where
  | failed (err : Error)
  | released
  | queued (ch : Nat)
  deriving DecidableEq, Repr

/-- The section of `Wait`. -/
def World.wait (cfg : Config) (w : World) : World × Entry :=
  if w.closed then (w, .failed .closed)
  else if w.released then (w, .released)
  else if cfg.maxParticipants ≤ w.waiters.length then (w, .failed .full)
  else
    ({ w with waiters := w.waiters ++ [w.nextChan], nextChan := w.nextChan + 1 }, .queued w.nextChan)

def World.close (w : World) : World := if w.closed then w else { w with closed := true }.release

/-- How a `select` ends, if it does. -/
inductive Wake where
  | ctxDone (text : String)
  | opened
  | blocked
  deriving DecidableEq, Repr

inductive Act where
  | arrive (id : String)
  | wait
  | select (ch : Nat)
  | count
  | released
  | close
  deriving DecidableEq, Repr

abbrev Act.Answer : Act → Type
  | .arrive _ => Option Error
  | .wait => Entry
  | .select _ => Wake
  | .count => Nat
  | .released => Bool
  | .close => Unit

/-- What the environment fixes for one action: the context is done, and the `select` takes it. -/
structure Env where
  ctx : Option String := none

def exec (cfg : Config) : (a : Act) → Env → World → World × a.Answer
  | .arrive id, _, w => w.arrive cfg id
  | .wait, _, w => w.wait cfg
  | .select ch, e, w =>
    (w, match e.ctx with
      | some text => .ctxDone text
      | none => if ch ∈ w.broken then .opened else .blocked)
  | .count, _, w => (w, w.participants.card)
  | .released, _, w => (w, w.released)
  | .close, _, w => (w.close, ())

/-- The calls of a barrier; `waiting` is a `Wait` in its `select`. -/
inductive Task where
  | arrive (id : String) (epoch : UInt64)
  | wait
  | waiting (ch : Nat)
  | count
  | released
  | close
  deriving DecidableEq, Repr

inductive Result where
  | error (err : Option Error)
  | count (n : Nat)
  | released (b : Bool)
  deriving DecidableEq, Repr

abbrev P := Conc.Prog Act Act.Answer

abbrev perform (a : Act) : P a.Answer := Conc.Prog.perform a

def arrive (cfg : Config) (id : String) (epoch : UInt64) : P (Option Error) := do
  if id = "" then return some .policy
  else if epoch ≠ cfg.epoch then return some .epoch
  else perform (.arrive id)

/-- `Wait` up to its `select`. -/
def wait : P (Result ⊕ Task) := do
  match ← perform .wait with
  | .failed err => return .inl (.error (some err))
  | .released => return .inl (.error none)
  | .queued ch => return .inr (.waiting ch)

/-- The `select` of `Wait`, which goes on as long as nothing is ready. -/
def waiting (ch : Nat) : P (Result ⊕ Task) := do
  match ← perform (.select ch) with
  | .ctxDone text => return .inl (.error (some (.ctx text)))
  | .opened => return .inl (.error none)
  | .blocked => return .inr (.waiting ch)

def code (cfg : Config) : Task → P (Result ⊕ Task)
  | .arrive id epoch => do return .inl (.error (← arrive cfg id epoch))
  | .wait => wait
  | .waiting ch => waiting ch
  | .count => do return .inl (.count (← perform .count))
  | .released => do return .inl (.released (← perform .released))
  | .close => do
    perform .close
    return .inl (.error none)

def system (cfg : Config) : Conc.Sys Act Act.Answer World Env Empty Task Result where
  exec := exec cfg
  env x := x.elim
  fork _ _ := none
  code := code cfg

abbrev Schedule := List (Move Env Empty Task)

abbrev State := Conc.Config Act Act.Answer World Task Result

/-- The configuration after `i` moves of a schedule on a new barrier. -/
abbrev stateAt (cfg : Config) (xs : Schedule) (i : Nat) : State := (system cfg).stateAt {} xs i

/-- The tasks that are calls; the others are parts of one. -/
def Task.call : Task → Bool
  | .waiting _ => false
  | _ => true

def Calls (xs : Schedule) : Prop := ∀ t, Move.start t ∈ xs → t.call = true

/-! ## Stages of a call -/

/-- Where a thread is: a call other than `Wait`, before the section of `Wait`, in the `select`, past
it with nil, or with an error. -/
inductive Stage where
  | other
  | entering
  | selecting (ch : Nat)
  | opened
  | failed
  deriving DecidableEq, Repr

def monitor : Monitor Act Act.Answer Stage where
  allows g
    | .wait => g = .entering
    | .select ch => g = .selecting ch
    | _ => g = .other
  after g
    | .wait, .failed _ => .failed
    | .wait, .released => .opened
    | .wait, .queued ch => .selecting ch
    | .select _, .ctxDone _ => .failed
    | .select _, .opened => .opened
    | _, _ => g

def Task.stage : Task → Stage
  | .wait => .entering
  | .waiting ch => .selecting ch
  | _ => .other

/-- A call of `Wait`, in its `select` or before it. -/
def Task.waits : Task → Bool
  | .wait | .waiting _ => true
  | _ => false

/-- How a task ends: a `Wait` returns nil past an open channel only, and goes on with its `select`. -/
def Ends (t : Task) (g : Stage) : Result ⊕ Task → Prop
  | .inl r => t.waits = true → r = .error none → g = .opened
  | .inr t' => t'.stage = g

theorem code_obeys (cfg : Config) (t : Task) :
    Obeys monitor (Ends t) (code cfg t) t.stage := by
  cases t with
  | arrive id epoch =>
    refine Obeys.bind (K := fun _ _ => True) ?_ fun _ _ _ h => by cases h
    unfold arrive
    split
    · trivial
    split
    · trivial
    · exact Obeys.perform rfl fun _ => trivial
  | wait =>
    refine Obeys.perform rfl fun entry => ?_
    cases entry with
    | failed err => exact fun _ h => by cases h
    | released => exact fun _ _ => rfl
    | queued ch => exact rfl
  | waiting ch =>
    refine Obeys.perform rfl fun wake => ?_
    cases wake with
    | ctxDone text => exact fun _ h => by cases h
    | opened => exact fun _ _ => rfl
    | blocked => exact rfl
  | count | released | close => exact Obeys.perform rfl fun _ h => by cases h

/-! ## Opening -/

/-- What holds in every state: a barrier that is not closed is released only if the policy was met
(`met`), and so is a channel that is closed under a waiter. -/
structure Opening (met : Prop) (w : World) (G : Nat → Option Stage) : Prop where
  released : w.released = true → met ∨ w.closed = true
  broken : ∀ u ch, G u = some (.selecting ch) → ch ∈ w.broken → met
  opened : ∀ u, G u = some .opened → met
  selecting : ∀ u ch, G u = some (.selecting ch) → ch < w.nextChan
  bounded : ∀ ch ∈ w.waiters ++ w.broken, ch < w.nextChan

variable {met met' : Prop} {w w' : World} {G : Nat → Option Stage} {u : Nat} {g : Stage}

/-- The barrier changes. -/
theorem Opening.world (h : Opening met w G) (hmet : met → met')
    (hreleased : w'.released = true → met' ∨ w'.closed = true)
    (hbroken : ∀ u ch, G u = some (.selecting ch) → ch ∈ w'.broken → met')
    (hnext : w.nextChan ≤ w'.nextChan) (hbounded : ∀ ch ∈ w'.waiters ++ w'.broken, ch < w'.nextChan) :
    Opening met' w' G :=
  ⟨hreleased, hbroken, fun u hu => hmet (h.opened u hu),
    fun u ch hu => Nat.lt_of_lt_of_le (h.selecting u ch hu) hnext, hbounded⟩

theorem Opening.thread (h : Opening met w G)
    (hselecting : ∀ ch, g = .selecting ch → ch < w.nextChan ∧ (ch ∈ w.broken → met))
    (hopened : g = .opened → met) : Opening met w (update G u (some g)) := by
  refine ⟨h.released, fun v ch hv hch => ?_, fun v hv => ?_, fun v ch hv => ?_, h.bounded⟩
  · rcases update_eq_some.mp hv with ⟨-, rfl⟩ | ⟨-, hv⟩
    · exact (hselecting ch rfl).2 hch
    · exact h.broken v ch hv hch
  · rcases update_eq_some.mp hv with ⟨-, rfl⟩ | ⟨-, hv⟩
    · exact hopened rfl
    · exact h.opened v hv
  · rcases update_eq_some.mp hv with ⟨-, rfl⟩ | ⟨-, hv⟩
    · exact (hselecting ch rfl).1
    · exact h.selecting v ch hv

/-- The waiters are woken. -/
theorem Opening.release (h : Opening met w G) (hmet : met ∨ w.closed = true)
    (hselecting : met ∨ ∀ u ch, G u ≠ some (.selecting ch)) : Opening met w.release G := by
  refine h.world id (fun _ => hmet) (fun u ch hu _ => ?_) (Nat.le_refl _) fun ch hch => ?_
  · exact hselecting.resolve_right fun hnone => hnone u ch hu
  · refine h.bounded ch ?_
    simp only [World.release, List.nil_append, List.mem_append] at hch ⊢
    exact hch.symm

/-- `Arrive` opens the barrier when the policy is met. -/
theorem Opening.arrive {cfg : Config} {id : String} (h : Opening met w G) (hmet : met → met')
    (hnow : cfg.satisfied (w.arrive cfg id).1.participants.card = true → met') :
    Opening met' (w.arrive cfg id).1 G := by
  have hsame : Opening met' w G :=
    h.world hmet (fun hr => (h.released hr).imp_left hmet)
      (fun u ch hu hch => hmet (h.broken u ch hu hch)) (Nat.le_refl _) h.bounded
  unfold World.arrive at hnow ⊢
  split
  · exact hsame
  split
  · exact hsame
  split
  · exact hsame
  have hadded : Opening met' { w with participants := insert id w.participants } G :=
    ⟨hsame.released, hsame.broken, hsame.opened, hsame.selecting, hsame.bounded⟩
  rename_i hclosed hmem hfull
  rw [if_neg hclosed, if_neg hmem, if_neg hfull] at hnow
  dsimp only at hnow ⊢
  split
  · rename_i hsatisfied
    rw [if_pos hsatisfied] at hnow
    have hm : met' := hnow hsatisfied
    exact hadded.release (.inl hm) (.inl hm)
  · exact hadded

/-- The thread is in its `select`. -/
def Stage.selects : Stage → Bool
  | .selecting _ => true
  | _ => false

/-- `Close` finds the barrier released or closed, or no thread in its `select`. -/
def closesQuietly (c : State) (G : Nat → Option Stage) : Move Env Empty Task → Bool
  | .run u _ =>
    (c.threads u).all fun th => decide (th.next ≠ some .close) || c.shared.released ||
      c.shared.closed || (List.range c.clock).all fun v => (G v).all fun g => !g.selects
  | _ => true

theorem Opening.act {cfg : Config} {a : Act} {e : Env} (h : Opening met w G)
    (hg : G u = some g) (ha : monitor.allows g a) (hmet : met → met')
    (hnow : cfg.satisfied (exec cfg a e w).1.participants.card = true → met')
    (hclose : a = .close → w.released = true ∨ w.closed = true ∨ ∀ v ch, G v ≠ some (.selecting ch)) :
    Opening met' (exec cfg a e w).1
      (update G u (some (monitor.after g a (exec cfg a e w).2))) := by
  have hsame : Opening met' w G :=
    h.world hmet (fun hr => (h.released hr).imp_left hmet)
      (fun u ch hu hch => hmet (h.broken u ch hu hch)) (Nat.le_refl _) h.bounded
  cases a with
  | arrive id =>
    obtain rfl : g = .other := ha
    exact (h.arrive hmet hnow).thread (fun ch hch => by cases hch) fun hop => by cases hop
  | wait =>
    obtain rfl : g = .entering := ha
    simp only [exec, World.wait]
    split
    · exact hsame.thread (fun ch hch => by cases hch) fun hop => by cases hop
    rename_i hclosed
    split
    · -- released before, and not by `Close`
      rename_i hreleased
      exact hsame.thread (fun ch hch => by cases hch) fun _ =>
        (hsame.released hreleased).resolve_right hclosed
    split
    · exact hsame.thread (fun ch hch => by cases hch) fun hop => by cases hop
    · -- the channel is new
      have hnew : w.nextChan ∉ w.broken := fun hmem =>
        Nat.lt_irrefl _ (h.bounded _ (List.mem_append_right _ hmem))
      have hqueued : Opening met'
          { w with waiters := w.waiters ++ [w.nextChan], nextChan := w.nextChan + 1 } G := by
        refine hsame.world id hsame.released hsame.broken (Nat.le_succ _) fun ch hch => ?_
        simp only [List.mem_append, List.mem_singleton] at hch
        rcases hch with (hch | rfl) | hch
        · exact Nat.lt_succ_of_lt (h.bounded ch (List.mem_append_left _ hch))
        · exact Nat.lt_succ_self _
        · exact Nat.lt_succ_of_lt (h.bounded ch (List.mem_append_right _ hch))
      refine hqueued.thread (fun ch hch => ?_) fun hop => by cases hop
      cases hch
      exact ⟨Nat.lt_succ_self _, fun hmem => absurd hmem hnew⟩
  | select ch =>
    obtain rfl : g = .selecting ch := ha
    have hstay : ∀ ch', Stage.selecting ch = .selecting ch' →
        ch' < w.nextChan ∧ (ch' ∈ w.broken → met') := by
      intro ch' hch
      cases hch
      exact ⟨hsame.selecting u ch hg, hsame.broken u ch hg⟩
    simp only [exec]
    cases e.ctx with
    | some text => exact hsame.thread (fun ch hch => by cases hch) fun hop => by cases hop
    | none =>
      by_cases hmem : ch ∈ w.broken
      · simp only [hmem, if_true]
        exact hsame.thread (fun ch hch => by cases hch) fun _ => hsame.broken u ch hg hmem
      · simp only [hmem, if_false]
        exact hsame.thread hstay fun hop => by cases hop
  | count | released =>
    obtain rfl : g = .other := ha
    exact hsame.thread (fun ch hch => by cases hch) fun hop => by cases hop
  | close =>
    obtain rfl : g = .other := ha
    refine thread ?_ (fun ch hch => by cases hch) fun hop => by cases hop
    simp only [exec, World.close]
    split
    · exact hsame
    rename_i hclosed
    have hclosing : Opening met' { w with closed := true } G :=
      ⟨fun _ => .inr rfl, hsame.broken, hsame.opened, hsame.selecting, hsame.bounded⟩
    refine hclosing.release (.inr rfl) ?_
    rcases hclose rfl with hreleased | hcl | hnone
    · exact .inl ((hsame.released hreleased).resolve_right hclosed)
    · exact absurd hcl hclosed
    · exact .inr hnone

/-- The policy was met in one of the first `i` states. -/
def Met (cfg : Config) (xs : Schedule) (i : Nat) : Prop :=
  ∃ j ≤ i, cfg.satisfied (stateAt cfg xs j).shared.participants.card = true

theorem Met.mono {cfg : Config} {xs : Schedule} {i j : Nat} (h : Met cfg xs i) (hij : i ≤ j) :
    Met cfg xs j := by
  obtain ⟨k, hk, hsat⟩ := h
  exact ⟨k, Nat.le_trans hk hij, hsat⟩

/-- No thread is in its `select` if none of those that exist is. -/
theorem none_selects {c : State} (htracks : Tracks monitor Ends c G)
    (h : (List.range c.clock).all (fun v => (G v).all fun g => !g.selects) = true) (v ch : Nat) :
    G v ≠ some (.selecting ch) := by
  intro hv
  cases htracks.all h hv

/-- **A barrier opens only when its policy is met**, in every schedule in which `Close` finds the
barrier released or closed, or no `Wait` in its `select`. -/
theorem wait_nil_after_policy {cfg : Config} {xs : Schedule} (hcalls : Calls xs)
    (hquiet : (system cfg).meets monitor Task.stage closesQuietly {} xs = true) {i u : Nat}
    (hi : i ≤ xs.length) {th : Conc.Thread Act Act.Answer Task Result}
    (hth : (stateAt cfg xs i).threads u = some th) (hwaits : th.task.waits = true)
    (hnil : th.result = some (.error none)) :
    ∃ j ≤ i, cfg.satisfied (stateAt cfg xs j).shared.participants.card = true := by
  have hopening : Opening (Met cfg xs i) (stateAt cfg xs i).shared
      ((system cfg).watchAt monitor Task.stage {} xs i) := by
    refine Sys.induction
      (J := fun i c G => Opening (Met cfg xs i) c.shared G) (code_obeys cfg) ?_ ?_ hi
    · exact ⟨fun h => (by cases h), fun _ _ h => (by cases h), fun _ h => (by cases h),
        fun _ _ h => (by cases h), fun _ h => (by cases h)⟩
    intro i x c' G' hx hc' htracks hmoved ih
    have hmono : Met cfg xs i → Met cfg xs (i + 1) := fun h => h.mono (Nat.le_succ i)
    have hsame : Opening (Met cfg xs (i + 1)) (stateAt cfg xs i).shared
        ((system cfg).watchAt monitor Task.stage {} xs i) :=
      ih.world hmono (fun hr => (ih.released hr).imp_left hmono)
        (fun u ch hu hch => hmono (ih.broken u ch hu hch)) (Nat.le_refl _) ih.bounded
    have hcond := Sys.meets_at hquiet hx
    cases hmoved with
    | idle => exact hsame
    | start t =>
      have hcall := hcalls t (List.mem_of_getElem? hx)
      refine hsame.thread (fun ch hch => ?_) fun hop => ?_
      · cases t with
        | waiting ch' => cases hcall
        | _ => cases hch
      · cases t <;> cases hop
    | env x => exact x.elim
    | jump u e th g t hth hp hg hQ =>
      obtain rfl : t.stage = g := hQ
      refine hsame.thread (fun ch hch => ?_) fun hop => ?_
      · rw [hch] at hg
        exact ⟨hsame.selecting u ch hg, hsame.broken u ch hg⟩
      · rw [hop] at hg
        exact hsame.opened u hg
    | act u e th g a k hth hp hg ha hf =>
      refine ih.act hg ha hmono (fun hsat => ⟨i + 1, Nat.le_refl _, ?_⟩) fun hclose => ?_
      · have hshared : (stateAt cfg xs (i + 1)).shared = (exec cfg a e (stateAt cfg xs i).shared).1 :=
          congrArg Conc.Config.shared hc'
        rw [hshared]
        exact hsat
      · subst hclose
        simp only [closesQuietly, hth, Option.all_some, Thread.next_of_prog hp, ne_eq,
          not_true_eq_false, decide_false, Bool.false_or, Bool.or_eq_true] at hcond
        rcases hcond with (hreleased | hclosed) | hnone
        · exact .inl hreleased
        · exact .inr (.inl hclosed)
        · exact .inr (.inr (none_selects htracks hnone))
    | fork u e th g a k t hth hp hg ha hf => cases hf
  obtain ⟨-, g, hg, hobeys⟩ := (Sys.tracks (code_obeys cfg) i).2 u th hth
  rw [Thread.prog_of_result hnil] at hobeys
  obtain rfl : g = .opened := hobeys hwaits rfl
  exact hopening.opened u hg

/-! ### Samples -/

/-- The configuration of a barrier for two, which opens when both have arrived. -/
def Config.pair : Config := { epoch := 1, maxParticipants := 2, policy := .all, minimumCount := 2 }

/-- `Wait` is queued, both participants arrive, and `Wait` returns. -/
def openRun : Schedule :=
  [.start .wait, .run 0 {}, .start (.arrive "a" 1), .run 2 {}, .start (.arrive "b" 1), .run 4 {},
    .run 0 {}, .run 0 {}]

/-- The `Wait` of the sample returns nil, after the policy was met. -/
theorem wait_nil_sample :
    ∃ j ≤ 8, Config.pair.satisfied (stateAt .pair openRun j).shared.participants.card = true := by
  have hth : ((stateAt .pair openRun 8).threads 0).map (fun th => (th.task.waits, th.result)) =
      some (true, some (.error none)) := by decide +kernel
  obtain ⟨th, hth, heq⟩ := Option.map_eq_some_iff.mp hth
  simp only [Prod.mk.injEq] at heq
  refine wait_nil_after_policy ?_ (by decide +kernel) (by decide) hth heq.1 heq.2
  simp [Calls, openRun, Task.call]

/-- `Wait` is queued, the barrier is closed, and `Wait` returns. -/
def closeRun : Schedule :=
  [.start .wait, .run 0 {}, .start .close, .run 2 {}, .run 0 {}, .run 0 {}]

/-- A barrier for two that nobody arrived at is opened by `Close`. -/
theorem close_opens_barrier :
    Config.new { epoch := 1, maxParticipants := 2, policy := .all } = .ok .pair ∧ Calls closeRun ∧
      ((stateAt .pair closeRun 6).threads 0).map (fun th => (th.task.waits, th.result)) =
        some (true, some (.error none)) ∧
      ∀ j ≤ 6, Config.pair.satisfied (stateAt .pair closeRun j).shared.participants.card = false :=
  ⟨rfl, by simp [Calls, closeRun, Task.call], by decide +kernel, by decide +kernel⟩

end ShiftLock.Barrier
