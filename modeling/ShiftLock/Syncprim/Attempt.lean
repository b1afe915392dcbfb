import ShiftLock.Syncprim.Semaphore

/-!
# The threads of semaphores

The monitor of the calls of semaphores follows a thread from its attempt at a slot to the permit, and
a closure from its call to its return (`Stage`); `code_obeys` says that every task obeys it. The
monitor knows when the backend has granted the claim of a slot to the thread and when it has taken it
back.
-/

namespace ShiftLock.Semaphore

open Conc.Prog (Obeys Monitor Uses)

inductive Stage where
  | out
  /-- It tries to get slot `i` for a semaphore of runtime `r`. -/
  | trying (r i : Nat)
  /-- `TryAcquire` has returned the lease that the runtime had already. -/
  | again (r i : Nat)
  /-- The backend has granted the claim of the slot. -/
  | owns (r i : Nat)
  /-- The closure of the permit has been called. -/
  | called (p : Permit)
  /-- The closure of the permit has found its entry of `held`. -/
  | closing (p : Permit)
  /-- The closure of the permit has released the claim. -/
  | gaveUp (p : Permit)
  deriving DecidableEq, Repr

/-- The actions of a coordinator that a stage does not depend on. -/
def neutral : Coord.Act → Bool
  | .call (.renewClaim _) | .call (.registerGeneration _) | .call (.updateGeneration _) => true
  | .call _ | .tryAcquireBegin _ | .tryAcquireInstall _ _ => false
  | _ => true

variable (S : Setup)

/-- The actions of a thread in a stage. -/
def Stage.allows (g : Stage) : Act → Prop
  | .coord r (.call (.acquireClaim req)) => ∃ i, g = .trying r i ∧
      req.claimName = S.slotName i ∧ req.generationID = (S.cfgs r).generationID
  | .coord r (.call (.releaseClaim req)) => (∃ i, g = .owns r i ∧ req.claimName = S.slotName i) ∨
      ∃ p, g = .closing p ∧ req.claimName = S.slotName p.slot
  | .coord r (.tryAcquireBegin name) => ∃ i, g = .trying r i ∧ name = S.slotName i
  | .coord r (.tryAcquireInstall _ _) => ∃ i, g = .owns r i
  | .coord _ a => neutral a = true
  | .gates _ i => (g = .out ∨ ∃ r j, g = .trying r j) ∧ i < S.slots
  | .hold s i _ => g = .owns (S.runtime s) i ∨ g = .again (S.runtime s) i
  | .take p => g = .called p
  | .grant s i => (g = .owns (S.runtime s) i ∨ g = .again (S.runtime s) i) ∧ i < S.slots
  | .leave p err => g = if err then .closing p else .gaveUp p

/-- The stage after an `AcquireClaim`. -/
def Stage.granted (r i : Nat) : Except Err ClaimRecord → Stage
  | .ok _ => .owns r i
  | .error _ => .trying r i

def Stage.after : Stage → (a : Act) → a.Answer → Stage
  | .trying r i, .coord _ (.call (.acquireClaim _)), reply => .granted r i reply.result
  | .trying r i, .coord _ (.tryAcquireBegin _), .valid _ => .again r i
  | .owns r i, .coord _ (.tryAcquireInstall _ _), .notOwned => .trying r i
  | .owns r i, .coord _ (.call (.releaseClaim _)), _ => .trying r i
  | .closing p, .coord _ (.call (.releaseClaim _)), reply =>
    if reply.err = none then .gaveUp p else .closing p
  | _, .gates s i, _ => .trying (S.runtime s) i
  | _, .grant _ _, _ => .out
  | _, .take p, some _ => .closing p
  | _, .leave _ _, _ => .out
  | g, _, _ => g

def monitor : Monitor Act Act.Answer Stage where
  allows := Stage.allows S
  after := Stage.after S

def Task.stage : Task → Stage
  | .closure p => .called p
  | _ => .out

/-! ## Programs of a coordinator -/

section

variable {S} {α : Type} {r : Nat}

/-- The monitor, as it sees the coordinator of a runtime. -/
abbrev coordMonitor (S : Setup) (r : Nat) : Monitor Coord.Act Coord.Act.Answer Stage :=
  (monitor S).comap (.coord r)

variable {a : Coord.Act} {op name : String} {mk : OperationID → Memory.Op}

theorem allows_of_neutral (h : neutral a = true) (g : Stage) : (coordMonitor S r).allows g a := by
  cases a with
  | call op => cases op <;> first | exact h | cases h
  | tryAcquireBegin name | tryAcquireInstall name record => cases h
  | _ => exact h

theorem after_of_neutral (h : neutral a = true) (g : Stage) (x : a.Answer) :
    (coordMonitor S r).after g a x = g := by
  cases a with
  | call op => cases op <;> first | (cases g <;> rfl) | cases h
  | tryAcquireBegin name | tryAcquireInstall name record => cases h
  | _ => cases g <;> rfl

/-- A program of neutral actions keeps its stage. -/
theorem obeys_of_neutral {p : Code.P α} (h : Uses (fun a => neutral a = true) p) (g : Stage) :
    Obeys (coordMonitor S r) (fun g' _ => g' = g) p g := by
  have hwithin := Uses.within (M := coordMonitor S r) (E := fun g g' => g' = g) (fun _ => rfl)
    (fun h h' => h'.trans h)
    (fun a ha g => ⟨allows_of_neutral ha g, after_of_neutral ha g⟩) h
  exact hwithin g

theorem uses_perform (h : neutral a = true) :
    Uses (fun a => neutral a = true) (Code.perform a) := ⟨h, fun _ => trivial⟩

theorem request_neutral (h : ∀ id, neutral (.call (mk id)) = true) :
    Uses (fun a => neutral a = true) (Code.request op name mk) :=
  (uses_perform rfl).bind fun id => uses_perform (h id)

theorem request_obeys {g : Stage} {Q : Stage → Memory.Reply → Prop}
    (h : ∀ id, (coordMonitor S r).allows g (.call (mk id)) ∧
      ∀ reply, Q ((coordMonitor S r).after g (.call (mk id)) reply) reply) :
    Obeys (coordMonitor S r) Q (Code.request op name mk) g := by
  refine (obeys_of_neutral (uses_perform rfl) g).bind fun g' id hg => ?_
  subst hg
  exact h id

/-- What leaves every coordinator where it is leaves a stage. -/
theorem uses_of_neutral {p : Code.P α} (h : Uses (fun a => a.neutral) p) :
    Uses (fun a => neutral a = true) p :=
  h.mono fun a ha => by
    cases a with
    | call op => cases op <;> first | rfl | cases ha
    | _ => first | rfl | cases ha

theorem register_neutral (gen : Generation) :
    Uses (fun a => neutral a = true) (Code.register gen) := by
  refine (uses_perform rfl).bind fun reply => ?_
  cases reply.err with
  | some err => trivial
  | none => exact (uses_of_neutral (Coord.setState_uses _ _)).bind fun _ => (uses_perform rfl).bind fun _ => trivial

theorem startRenewal_neutral (name : String) :
    Uses (fun a => neutral a = true) (Code.startRenewal name) := by
  refine (uses_perform rfl).bind fun marked => ?_
  cases marked with
  | false => trivial
  | true => exact (uses_perform rfl).bind fun _ => trivial

theorem renew_neutral (cfg : Config) (name : String) :
    Uses (fun a => neutral a = true) (Code.renew cfg name) := by
  refine (uses_perform rfl).bind fun token => ?_
  cases token with
  | none => trivial
  | some token =>
    refine (uses_perform rfl).bind fun own => ?_
    refine (request_neutral fun _ => rfl).bind fun reply => ?_
    cases reply.result with
    | error err => exact (uses_perform rfl).bind fun _ => (uses_perform rfl).bind fun _ => trivial
    | ok record =>
      exact (uses_perform rfl).bind fun _ => (uses_perform rfl).bind fun _ =>
        (uses_perform rfl).bind fun _ => (uses_perform rfl).bind fun _ => trivial

theorem renewalRound_neutral (cfg : Config) (name : String) :
    Uses (fun a => neutral a = true) (Code.renewalRound cfg name) := by
  have hselect : Uses (fun a => neutral a = true) (Code.renewalSelect cfg name) := by
    refine (uses_perform rfl).bind fun fires => ?_
    cases fires with
    | false => trivial
    | true => exact renew_neutral cfg name
  refine hselect.bind fun again => ?_
  cases again with
  | true => trivial
  | false => exact (uses_perform rfl).bind fun _ => trivial

/-- A thread after its attempt. -/
def Tried (r i : Nat) (g : Stage) : Except Err α → Prop
  | .error _ => g = .trying r i
  | .ok _ => g = .owns r i ∨ g = .again r i

theorem installLease_obeys {cfg : Config} {i : Nat} (record : ClaimRecord) :
    Obeys (coordMonitor S r) (Tried r i) (Code.installLease cfg (S.slotName i) record)
      (.owns r i) := by
  refine Obeys.perform ⟨i, rfl⟩ fun answer => ?_
  cases answer with
  | closed =>
    refine Obeys.bind (K := fun g _ => g = .trying r i) (request_obeys fun id => ?_)
      fun g _ hg => ?_
    · exact ⟨.inl ⟨i, rfl, rfl⟩, fun _ => rfl⟩
    · exact hg
  | valid l => exact .inl rfl
  | notOwned => rfl
  | installed l =>
    refine Obeys.mono (Q := fun g x => g = .owns r i ∧ ∃ o, x = .ok o) ?_ ?_
    · rintro g x ⟨rfl, o, rfl⟩
      exact .inl rfl
    · refine (obeys_of_neutral (uses_of_neutral (Coord.setState_uses _ _)) _).bind fun g x hg => ?_
      subst hg
      refine (obeys_of_neutral (uses_perform rfl) _).bind fun g x hg => ?_
      subst hg
      refine (obeys_of_neutral (startRenewal_neutral _) _).bind fun g x hg => ?_
      subst hg
      exact ⟨rfl, _, rfl⟩

theorem tryAcquire_obeys (i : Nat) :
    Obeys (coordMonitor S r) (Tried r i) (Code.tryAcquire (S.cfgs r) (S.slotName i))
      (.trying r i) := by
  refine Obeys.perform ⟨i, rfl, rfl⟩ fun entry => ?_
  cases entry with
  | closed | busy => rfl
  | valid l => exact .inr rfl
  | entered =>
    -- the deferred function keeps the stage
    refine Obeys.bind (K := Tried r i) ?_ fun g x hx =>
      (obeys_of_neutral (uses_perform rfl) g).bind fun g' _ hg => ?_
    · refine Obeys.bind (K := fun g reply => g = .granted r i reply.result)
        (request_obeys fun id => ⟨⟨i, rfl, rfl, rfl⟩, fun _ => rfl⟩) fun g reply hg => ?_
      subst hg
      cases reply.result with
      | error err => rfl
      | ok record => exact installLease_obeys record
    · subst hg
      exact hx

/-- A closure after `Release`. -/
def Released (p : Permit) (g : Stage) : Option Err → Prop
  | none => g = .gaveUp p
  | some _ => g = .closing p

theorem release_obeys (cfg : Config) (p : Permit) :
    Obeys (coordMonitor S r) (Released p) (Code.release cfg (S.slotName p.slot)) (.closing p) := by
  refine (obeys_of_neutral (uses_perform rfl) _).bind fun g lease hg => ?_
  subst hg
  cases lease with
  | none => rfl
  | some l =>
    refine Obeys.bind (K := fun g reply => g = if reply.err = none then .gaveUp p else .closing p)
      (request_obeys fun id => ⟨.inr ⟨p, rfl, rfl⟩, fun _ => rfl⟩) fun g reply hg => ?_
    subst hg
    cases reply.err with
    | some err => rfl
    | none =>
      refine (obeys_of_neutral (uses_perform rfl) _).bind fun g _ hg => ?_
      subst hg
      refine (obeys_of_neutral (uses_perform rfl) _).bind fun g _ hg => ?_
      exact hg

end

/-! ## Calls -/

section

variable {S}

theorem fencedAcquire_obeys {s i : Nat} (hi : i < S.slots) {g : Stage}
    (hg : g = .out ∨ ∃ r j, g = .trying r j) :
    Obeys (monitor S) (Tried (S.runtime s) i) (fencedAcquire S s i) g := by
  refine Obeys.perform ⟨hg, hi⟩ fun gate => ?_
  have hafter : (monitor S).after g (.gates s i) gate = .trying (S.runtime s) i := by
    rcases hg with rfl | ⟨r, j, rfl⟩ <;> rfl
  rw [hafter]
  cases gate with
  | some err => rfl
  | none =>
    refine (obeys_of_neutral (uses_of_neutral (Coord.claim_uses _)) _).lift.bind fun g err hg => ?_
    subst hg
    cases err with
    | some err => rfl
    | none =>
      refine (tryAcquire_obeys i).lift.bind fun g x hx => ?_
      cases x with
      | error err => exact hx
      | ok o => cases o <;> exact hx

theorem acquireFrom_obeys {s : Nat} {l : List Nat} (hl : ∀ i ∈ l, i < S.slots) {g : Stage}
    (hg : g = .out ∨ ∃ r j, g = .trying r j) :
    Obeys (monitor S) (fun _ _ => True) (acquireFrom S s l) g := by
  induction l generalizing g with
  | nil => trivial
  | cons i rest ih =>
    refine (fencedAcquire_obeys (hl i List.mem_cons_self) hg).bind fun g x hx => ?_
    cases x with
    | error err => exact ih (fun j hj => hl j (List.mem_cons_of_mem _ hj)) (.inr ⟨_, _, hx⟩)
    | ok token =>
      refine Obeys.perform hx fun _ => Obeys.perform ⟨?_, hl i List.mem_cons_self⟩ fun _ => trivial
      rcases hx with rfl | rfl
      · exact .inl rfl
      · exact .inr rfl

theorem closure_obeys (p : Permit) : Obeys (monitor S) (fun _ _ => True) (closure S p) (.called p) := by
  refine Obeys.perform rfl fun token => ?_
  cases token with
  | none => trivial
  | some token =>
    refine Obeys.bind (K := Released p) ?_ fun g err hg => ?_
    · refine (obeys_of_neutral (uses_of_neutral (Coord.claim_uses _)) _).lift.bind fun g err hg => ?_
      subst hg
      cases err with
      | some err => rfl
      | none => exact (release_obeys _ p).lift
    · refine Obeys.perform ?_ fun _ => trivial
      cases err <;> exact hg

theorem code_obeys (t : Task) :
    Obeys (monitor S) (fun g x => ∀ t', x = .inr t' → g = .out) (code S t) t.stage := by
  cases t with
  | new r =>
    refine (obeys_of_neutral (register_neutral _) _).lift.bind fun g _ _ => ?_
    exact fun t' h => by cases h
  | acquire s =>
    refine (acquireFrom_obeys (fun i hi => List.mem_range.mp hi) (.inl rfl)).bind fun g _ _ => ?_
    exact fun t' h => by cases h
  | closure p =>
    refine (closure_obeys p).bind fun g _ _ => ?_
    exact fun t' h => by cases h
  | renewal r name =>
    refine (obeys_of_neutral (renewalRound_neutral _ name) _).lift.bind fun g again hg => ?_
    subst hg
    cases again <;> exact fun _ _ => rfl

end

end ShiftLock.Semaphore
