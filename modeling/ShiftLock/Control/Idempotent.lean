import ShiftLock.Control.Invoke

/-!
# Idempotency keys (`control/command/command.go`)

For one command name and one key, an invocation is **waiting** after it was admitted and **pending**
from the success of its handler until its result is stored. It is pending for ever if the auditor
panics in between. The two sections of `Invoke` are apart, so that two invocations can wait at once, a
full table forgets keys, and a result that is not stored is not recalled (`handled_twice`).

Where neither happens, the invocations pass through one slot (`Slot`): it is taken only when the key is
not in the table and nobody is in it, and the key is in the table when it is left after a success. So
the handler succeeds once (`handled_once`).
-/

namespace ShiftLock.Command

open Conc Function

/-- Where an invocation is, seen from one name and key. -/
inductive Phase where
  | out | waiting | pending
  deriving DecidableEq, Repr

/-! ## The slot -/

/-- The phases of the invocations, whether the key is in the table, and whether the handler has
succeeded before. -/
structure Slot (p : Nat → Phase) (known past : Prop) : Prop where
  alone : ∀ u v, p u ≠ .out → p v ≠ .out → u = v
  waiting : ∀ u, p u = .waiting → ¬ past
  done : past → known ∨ ∃ u, p u = .pending

/-- What a move can do: `success` says that the handler succeeds in it. -/
inductive Turn (p : Nat → Phase) (known : Prop) : (Nat → Phase) → Prop → Prop → Prop
  | rest {known' success : Prop} (hknown : known → known') (hno : ¬ success) :
    Turn p known p known' success
  | leave (u : Nat) {known' success : Prop} (hstored : p u = .pending → known') (hknown : known → known')
    (hno : ¬ success) : Turn p known (Function.update p u .out) known' success
  | enter (u : Nat) {known' success : Prop} (hnew : ¬ known) (hfree : ∀ v, p v = .out)
    (hno : ¬ success) : Turn p known (Function.update p u .waiting) known' success
  | succeed (u : Nat) {known' success : Prop} (hwaiting : p u = .waiting) (hknown : known → known') :
    Turn p known (Function.update p u .pending) known' success

section

variable {p p' : Nat → Phase} {known known' past success : Prop}

theorem Slot.first (h : Slot p known past) (hturn : Turn p known p' known' success)
    (hsuccess : success) : ¬ past := by
  cases hturn with
  | rest _ hno | leave _ _ _ hno | enter _ _ _ hno => exact absurd hsuccess hno
  | succeed u hwaiting => exact h.waiting u hwaiting

theorem update_ne_out {u v : Nat} {q : Phase} (h : update p u q v ≠ .out) :
    v = u ∧ q ≠ .out ∨ v ≠ u ∧ p v ≠ .out := by
  by_cases hv : v = u
  · subst hv
    rw [update_self] at h
    exact .inl ⟨rfl, h⟩
  · rw [update_of_ne hv] at h
    exact .inr ⟨hv, h⟩

theorem Slot.turn (h : Slot p known past) (hturn : Turn p known p' known' success) :
    Slot p' known' (past ∨ success) := by
  cases hturn with
  | rest hknown hno =>
    refine ⟨h.alone, fun u hu => ?_, fun hpast => ?_⟩
    · rintro (hpast | hsuccess)
      · exact h.waiting u hu hpast
      · exact hno hsuccess
    · exact (h.done (hpast.resolve_right hno)).imp_left hknown
  | leave u hstored hknown hno =>
    have hstill : ∀ {v}, update p u .out v ≠ .out → p v ≠ .out := by
      intro v hv
      rcases update_ne_out hv with ⟨-, hout⟩ | ⟨-, hout⟩
      · exact absurd rfl hout
      · exact hout
    refine ⟨fun v w hv hw => h.alone v w (hstill hv) (hstill hw), fun v hv => ?_, fun hpast => ?_⟩
    · have hvu : v ≠ u := by
        rintro rfl
        rw [update_self] at hv
        cases hv
      rw [update_of_ne hvu] at hv
      rintro (hpast | hsuccess)
      · exact h.waiting v hv hpast
      · exact hno hsuccess
    · rcases h.done (hpast.resolve_right hno) with hk | ⟨v, hv⟩
      · exact .inl (hknown hk)
      by_cases hvu : v = u
      · subst hvu
        exact .inl (hstored hv)
      · exact .inr ⟨v, (update_of_ne hvu ..).trans hv⟩
  | enter u hnew hfree hno =>
    -- Nobody was in the slot and the key is new, so the handler has not succeeded yet.
    have hnone : ¬ (past ∨ success) := by
      rintro (hpast | hsuccess)
      · rcases h.done hpast with hk | ⟨v, hv⟩
        · exact hnew hk
        · rw [hfree v] at hv
          cases hv
      · exact hno hsuccess
    have honly : ∀ {v}, update p u .waiting v ≠ .out → v = u := by
      intro v hv
      rcases update_ne_out hv with ⟨hvu, -⟩ | ⟨-, hout⟩
      · exact hvu
      · exact absurd (hfree v) hout
    exact ⟨fun v w hv hw => (honly hv).trans (honly hw).symm, fun _ _ => hnone,
      fun hpast => absurd hpast hnone⟩
  | succeed u hwaiting hknown =>
    have hout : p u ≠ .out := by
      rw [hwaiting]
      exact Phase.noConfusion
    have honly : ∀ {v}, update p u .pending v ≠ .out → v = u := by
      intro v hv
      rcases update_ne_out hv with ⟨hvu, -⟩ | ⟨-, hv⟩
      · exact hvu
      · exact h.alone v u hv hout
    refine ⟨fun v w hv hw => (honly hv).trans (honly hw).symm, fun v hv => ?_,
      fun _ => .inr ⟨u, update_self ..⟩⟩
    obtain rfl : v = u := honly (by rw [hv]; exact Phase.noConfusion)
    rw [update_self] at hv
    cases hv

end

/-! ## The table of results -/

namespace Registry

variable {r : Registry} {now : Time} {req : Request}

theorem limit_idem (r : Registry) (now : Time) (reg : Registered) (name : String) :
    (r.limit now reg name).1.idem = r.idem := by
  unfold limit
  split
  · simp only
    split <;> rfl
  · rfl

theorem accept_idem (r : Registry) (now : Time) (req : Request) :
    (r.accept now req).1.idem = r.idem := by
  unfold accept
  split
  · rfl
  split
  · rfl
  split
  · rfl
  split
  · rfl
  · exact r.limit_idem ..

theorem accept_admitted {spec : Spec} (h : (r.accept now req).2 = .admitted spec)
    (hkey : req.idempotencyKey ≠ "") : req.idempotencyKey ∉ r.idem := by
  unfold accept at h
  split at h
  · cases h
  split at h
  · cases h
  split at h
  · cases h
  rename_i hnone
  exact AList.lookup_eq_none.mp hnone

theorem remember_mem {order : List String} {key key' : String} {res : Result}
    (hroom : r.idem.keys.length < r.idemMax) :
    key' ∈ (r.remember order key res).idem ↔ key' = key ∨ key' ∈ r.idem := by
  unfold remember
  simp only [if_neg (Nat.not_le.mpr hroom)]
  exact AList.mem_insert _

end Registry

/-! ## Invocations and the slot -/

def Stage.phase : Stage → Phase
  | .admitted _ | .approved _ => .waiting
  | .handled (.returned _ none) => .pending
  | _ => .out

/-- The phase of an invocation, for one name and key. -/
def phase (name key : String) (g : Request × Stage) : Phase :=
  if g.1.name = name ∧ g.1.idempotencyKey = key then g.2.phase else .out

def phases (name key : String) (G : Nat → Option (Request × Stage)) (u : Nat) : Phase :=
  (G u).elim .out (phase name key)

/-- The move runs the handler of the command `name` for a request with this key, and it returns
nil. -/
def Succeeds (name key : String) (c : Conc.Config Act Act.Answer Registry Request (Result × Option Error))
    (x : Move) : Prop :=
  ∃ u e th req d res, x = .run u e ∧ c.threads u = some th ∧ th.next = some (.handle req d) ∧
    (exec (.handle req d) e c.shared).2 = .returned res none ∧ req.name = name ∧
    req.idempotencyKey = key

/-- An invocation with a key does not enter while another one of the same command with the same key is
waiting or pending (also one that has ended without storing the result of its handler), and no result
is stored in a full table. -/
def Exclusive (c : Conc.Config Act Act.Answer Registry Request (Result × Option Error))
    (G : Nat → Option (Request × Stage)) : Move → Bool
  | .run u _ =>
    match (c.threads u).bind Conc.Thread.next with
    | some (.accept req) =>
      decide (req.idempotencyKey = "") || (List.range c.clock).all fun v =>
        (G v).all fun g => decide (phase req.name req.idempotencyKey g = .out)
    | some (.remember _ _) => decide (c.shared.idem.keys.length < c.shared.idemMax)
    | _ => true
  | _ => true

section

variable {name key : String} {G : Nat → Option (Request × Stage)}
  {c : Conc.Config Act Act.Answer Registry Request (Result × Option Error)}

variable {g : Request × Stage} {u : Nat} {e : Env} {th : Conc.Thread Act Act.Answer Request _}

theorem phase_out (h : g.2.phase = .out) : phase name key g = .out := by
  unfold phase
  split
  · exact h
  · rfl

theorem of_phase {q : Phase} (h : phase name key g = q) (hq : q ≠ .out) :
    (g.1.name = name ∧ g.1.idempotencyKey = key) ∧ g.2.phase = q := by
  unfold phase at h
  split at h
  · rename_i hmatch
    exact ⟨hmatch, h⟩
  · exact absurd h.symm hq

theorem phases_update (u : Nat) (g : Request × Stage) :
    phases name key (update G u (some g)) =
      update (phases name key G) u (phase name key g) := by
  funext v
  by_cases hv : v = u
  · subst hv
    simp [phases]
  · simp [phases, hv]

theorem phases_self {g' : Request × Stage} (hg : G u = some g)
    (h : phase name key g' = phase name key g) :
    update (phases name key G) u (phase name key g') = phases name key G := by
  have hu : phases name key G u = phase name key g := by simp [phases, hg]
  rw [h, ← hu, update_eq_self]

theorem Succeeds.act {a : Act} {k : a.Answer → P _} (h : Succeeds name key c (.run u e))
    (hth : c.threads u = some th) (hp : th.prog = .act a k) :
    ∃ req d res, a = .handle req d ∧ e.outcome = .returned res none ∧ req.name = name ∧
      req.idempotencyKey = key := by
  obtain ⟨u', e', th', req, d, res, hx, hth', hnext, hout, hname, hkey⟩ := h
  cases hx
  obtain rfl : th = th' := Option.some.inj (hth.symm.trans hth')
  rw [Thread.next_of_prog hp] at hnext
  exact ⟨req, d, res, Option.some.inj hnext, hout, hname, hkey⟩

/-- The invocations that an entering one must wait for. -/
theorem free_of_exclusive {req : Request} {k : Admission → P _}
    (htracks : Tracks monitor Ends c G) (hth : c.threads u = some th)
    (hp : th.prog = .act (.accept req) k) (hkey : req.idempotencyKey ≠ "")
    (h : Exclusive c G (.run u e) = true) (v : Nat) :
    phases req.name req.idempotencyKey G v = .out := by
  have hnext : (c.threads u).bind Thread.next = some (.accept req) := by
    rw [hth]
    exact Thread.next_of_prog hp
  unfold Exclusive at h
  simp only [hnext, hkey, decide_false, Bool.false_or] at h
  cases hg : G v with
  | none => simp [phases, hg]
  | some g =>
    have hout := htracks.all h hg
    simpa [phases, hg] using hout

theorem room_of_exclusive {key' : String} {res : Result} {k : Unit → P _}
    (hth : c.threads u = some th) (hp : th.prog = .act (.remember key' res) k)
    (h : Exclusive c G (.run u e) = true) : c.shared.idem.keys.length < c.shared.idemMax := by
  have hnext : (c.threads u).bind Thread.next = some (.remember key' res) := by
    rw [hth]
    exact Thread.next_of_prog hp
  unfold Exclusive at h
  simp only [hnext] at h
  exact of_decide_eq_true h

theorem act_turn (hkey : key ≠ "") (htracks : Tracks monitor Ends c G) {a : Act}
    {k : a.Answer → P _} (hth : c.threads u = some th) (hp : th.prog = .act a k) (hg : G u = some g)
    (ha : monitor.allows g a) (hcond : Exclusive c G (.run u e) = true) :
    Turn (phases name key G) (key ∈ c.shared.idem)
      (update (phases name key G) u (phase name key (monitor.after g a (exec a e c.shared).2)))
      (key ∈ (exec a e c.shared).1.idem) (Succeeds name key c (.run u e)) := by
  obtain ⟨req, g⟩ := g
  have hno : (∀ req d, a ≠ .handle req d) → ¬ Succeeds name key c (.run u e) := by
    intro hne hs
    obtain ⟨req', d, _, heq, _⟩ := hs.act hth hp
    exact hne req' d heq
  have hu : phases name key G u = phase name key (req, g) := by simp [phases, hg]
  -- The phase after the action is the one before: nothing happens.
  have hrest : ∀ {g'}, phase name key (req, g') = phase name key (req, g) →
      ∀ {known' : Prop}, (key ∈ c.shared.idem → known') → ¬ Succeeds name key c (.run u e) →
      Turn (phases name key G) (key ∈ c.shared.idem)
        (update (phases name key G) u (phase name key (req, g'))) known'
        (Succeeds name key c (.run u e)) := by
    intro g' hsame known' hknown hnot
    rw [phases_self hg hsame]
    exact .rest hknown hnot
  -- The invocation is out after the action.
  have hleave : ∀ g', phase name key (req, g') = .out →
      ∀ {known' : Prop}, (phase name key (req, g) = .pending → known') → (key ∈ c.shared.idem → known') →
      ¬ Succeeds name key c (.run u e) →
      Turn (phases name key G) (key ∈ c.shared.idem)
        (update (phases name key G) u (phase name key (req, g'))) known'
        (Succeeds name key c (.run u e)) := by
    intro g' hout known' hstored hknown hnot
    rw [hout]
    exact .leave u (fun hpending => hstored (hu ▸ hpending)) hknown hnot
  cases g with
  | entering =>
    obtain rfl : a = .accept req := ha
    have hnot := hno fun _ _ => Act.noConfusion
    have hknown : key ∈ c.shared.idem → key ∈ (c.shared.accept e.now req).1.idem := by
      rw [Registry.accept_idem]
      exact id
    generalize hadm : (exec (.accept req) e c.shared).2 = adm
    cases adm with
    | closed | notFound | replayed | tooLarge | rateLimited => exact hrest rfl hknown hnot
    | admitted spec =>
      by_cases hmatch : req.name = name ∧ req.idempotencyKey = key
      · obtain ⟨rfl, rfl⟩ := hmatch
        have hafter : phase req.name req.idempotencyKey (req, .admitted spec) = .waiting :=
          if_pos ⟨rfl, rfl⟩
        show Turn _ _ (update _ u (phase _ _ (req, .admitted spec))) _ _
        rw [hafter]
        exact .enter u (Registry.accept_admitted hadm hkey)
          (free_of_exclusive htracks hth hp hkey hcond) hnot
      · exact hrest ((if_neg hmatch).trans (if_neg hmatch).symm) hknown hnot
  | admitted spec =>
    obtain rfl : a = .authorize req.actorID req.name spec.permission := ha
    have hnot := hno fun _ _ => Act.noConfusion
    generalize (exec (.authorize req.actorID req.name spec.permission) e c.shared).2 = denied
    cases denied with
    | false => exact hrest rfl id hnot
    | true =>
      refine hleave .refused (phase_out rfl) (fun hpending => ?_) id hnot
      cases (of_phase hpending Phase.noConfusion).2
  | approved spec =>
    obtain rfl : a = .handle req (deadline spec req) := ha
    have hsuccess : Succeeds name key c (.run u e) →
        (∃ res, e.outcome = .returned res none) ∧ req.name = name ∧ req.idempotencyKey = key := by
      intro hs
      obtain ⟨req', d, res, heq, hout, hname, hkey'⟩ := hs.act hth hp
      cases heq
      exact ⟨⟨res, hout⟩, hname, hkey'⟩
    have hfail : (∀ res, e.outcome ≠ .returned res none) → (Stage.handled e.outcome).phase = .out →
        Turn (phases name key G) (key ∈ c.shared.idem)
          (update (phases name key G) u (phase name key (req, .handled e.outcome)))
          (key ∈ c.shared.idem) (Succeeds name key c (.run u e)) := by
      intro hne hphase
      refine hleave _ (phase_out hphase) (fun hpending => ?_) id fun hs => ?_
      · cases (of_phase hpending Phase.noConfusion).2
      · obtain ⟨⟨res, hout⟩, -⟩ := hsuccess hs
        exact hne res hout
    by_cases hmatch : req.name = name ∧ req.idempotencyKey = key
    · cases hout : e.outcome with
      | panicked value => exact hfail (by simp [hout]) (by rw [hout]; rfl)
      | returned res err =>
        cases err with
        | some text => exact hfail (by simp [hout]) (by rw [hout]; rfl)
        | none =>
          have hafter : phase name key (req, .handled e.outcome) = .pending := by
            rw [hout]
            exact if_pos hmatch
          show Turn _ _ (update _ u (phase name key (req, .handled e.outcome))) _ _
          rw [hafter]
          exact .succeed u (hu.trans (if_pos hmatch)) id
    · exact hrest ((if_neg hmatch).trans (if_neg hmatch).symm) id fun hs => hmatch (hsuccess hs).2
  | handled out =>
    cases a with
    | audit => exact hrest rfl id (hno fun _ _ => Act.noConfusion)
    | remember key' res =>
      obtain ⟨rfl, _, rfl⟩ := ha
      have hroom := room_of_exclusive hth hp hcond
      refine hleave (.stored res) (phase_out rfl) (fun hpending => ?_) (fun hk => ?_)
        (hno fun _ _ => Act.noConfusion)
      · obtain ⟨⟨-, rfl⟩, -⟩ := of_phase hpending Phase.noConfusion
        exact (Registry.remember_mem hroom).mpr (.inl rfl)
      · exact (Registry.remember_mem hroom).mpr (.inr hk)
    | accept | authorize | handle => exact ha.elim
  | refused =>
    cases a with
    | audit => exact hrest rfl id (hno fun _ _ => Act.noConfusion)
    | accept | authorize | handle | remember => exact ha.elim
  | recalled | stored => cases a <;> exact ha.elim

theorem moved_turn (hkey : key ≠ "") (htracks : Tracks monitor Ends c G) {x : Move}
    {c' : Conc.Config Act Act.Answer Registry Request (Result × Option Error)}
    {G' : Nat → Option (Request × Stage)}
    (hmoved : Moved system monitor (fun req => (req, .entering)) Ends c G x c' G')
    (hcond : Exclusive c G x = true) :
    Turn (phases name key G) (key ∈ c.shared.idem) (phases name key G') (key ∈ c'.shared.idem)
      (Succeeds name key c x) := by
  cases hmoved with
  | idle u e hret =>
    refine .rest id ?_
    rintro ⟨u', e', th, req, d, res, hx, hth, hnext, -⟩
    cases hx
    obtain ⟨y, hy⟩ := hret th hth
    simp [Thread.next, hy] at hnext
  | start req =>
    have hnew : phases name key G c.clock = .out := by simp [phases, htracks.at_clock]
    rw [phases_update, show phase name key (req, .entering) = .out from phase_out rfl]
    refine .leave c.clock (fun h => ?_) id ?_
    · rw [hnew] at h
      cases h
    · rintro ⟨_, _, _, _, _, _, hx, -⟩
      cases hx
  | env y =>
    refine .rest ?_ ?_
    · cases y with
      | register spec =>
        show _ → key ∈ (c.shared.register spec).idem
        unfold Registry.register
        split <;> exact id
      | close => exact id
    · rintro ⟨_, _, _, _, _, _, hx, -⟩
      cases hx
  | jump _ _ _ _ _ _ _ _ hQ => exact hQ.elim
  | act u e th g a k hth hp hg ha _ =>
    rw [phases_update]
    exact act_turn hkey htracks hth hp hg ha hcond
  | fork _ _ _ _ _ _ _ _ _ _ _ hf => cases hf

end

section

variable {r : Registry} {xs : List Move} {name key : String}

/-- The handler has succeeded in one of the first `i` moves. -/
def Past (r : Registry) (xs : List Move) (name key : String) (i : Nat) : Prop :=
  ∃ j x, j < i ∧ xs[j]? = some x ∧ Succeeds name key (system.stateAt r xs j) x

theorem past_succ {i : Nat} {x : Move} (hx : xs[i]? = some x) :
    Past r xs name key (i + 1) ↔
      Past r xs name key i ∨ Succeeds name key (system.stateAt r xs i) x := by
  constructor
  · rintro ⟨j, y, hj, hy, hs⟩
    rcases Nat.lt_succ_iff_lt_or_eq.mp hj with hlt | rfl
    · exact .inl ⟨j, y, hlt, hy, hs⟩
    · obtain rfl : y = x := Option.some.inj (hy.symm.trans hx)
      exact .inr hs
  · rintro (⟨j, y, hj, hy, hs⟩ | hs)
    · exact ⟨j, y, Nat.lt_succ_of_lt hj, hy, hs⟩
    · exact ⟨i, x, Nat.lt_succ_self i, hx, hs⟩

theorem slot_at (hkey : key ≠ "")
    (hexclusive : system.meets monitor (fun req => (req, .entering)) Exclusive r xs = true) {i : Nat}
    (hi : i ≤ xs.length) :
    Slot (phases name key (system.watchAt monitor (fun req => (req, .entering)) r xs i))
      (key ∈ (system.stateAt r xs i).shared.idem) (Past r xs name key i) := by
  refine Sys.induction (J := fun i c G => Slot (phases name key G) (key ∈ c.shared.idem)
    (Past r xs name key i)) code_obeys ?_ ?_ hi
  · exact ⟨fun _ _ h => absurd rfl h, fun _ h => (by cases h), fun h => absurd h.choose_spec (by simp)⟩
  · intro i x c' G' hx _ htracks hmoved hslot
    rw [past_succ hx]
    exact hslot.turn (moved_turn hkey htracks hmoved (Sys.meets_at hexclusive hx))

/-- No success comes after another one. -/
theorem not_past_of_succeeds (hkey : key ≠ "")
    (hexclusive : system.meets monitor (fun req => (req, .entering)) Exclusive r xs = true) {i : Nat}
    {x : Move} (hx : xs[i]? = some x) (hs : Succeeds name key (system.stateAt r xs i) x) :
    ¬ Past r xs name key i := by
  have hi : i ≤ xs.length := Nat.le_of_lt (List.getElem?_eq_some_iff.mp hx).1
  exact (slot_at hkey hexclusive hi).first (moved_turn hkey (Sys.tracks code_obeys i)
    (Sys.moved code_obeys hx) (Sys.meets_at hexclusive hx)) hs

end

/-- **A command with a key takes effect once**, where no invocation enters while another one with its
name and key is under way, and no result is stored in a full table. -/
theorem handled_once (r : Registry) (xs : List Move)
    (hexclusive : system.meets monitor (fun req => (req, .entering)) Exclusive r xs = true)
    (name key : String) (hkey : key ≠ "") (i j : Nat) (x y : Move) (hx : xs[i]? = some x)
    (hy : xs[j]? = some y) (hi : Succeeds name key (system.stateAt r xs i) x)
    (hj : Succeeds name key (system.stateAt r xs j) y) : i = j := by
  rcases Nat.lt_trichotomy i j with hlt | heq | hlt
  · exact absurd ⟨i, x, hlt, hx, hi⟩ (not_past_of_succeeds hkey hexclusive hy hj)
  · exact heq
  · exact absurd ⟨j, y, hlt, hy, hj⟩ (not_past_of_succeeds hkey hexclusive hx hi)

theorem handled_once_sample :
    Succeeds "c" "k" (system.stateAt sampleRegistry sampleRecall 3) (.run 0 sampleSuccess) ∧
    ∀ j y, sampleRecall[j]? = some y → Succeeds "c" "k" (system.stateAt sampleRegistry sampleRecall j) y →
      3 = j := by
  have hs : Succeeds "c" "k" (system.stateAt sampleRegistry sampleRecall 3) (.run 0 sampleSuccess) :=
    ⟨0, sampleSuccess, _, sampleRequest "a", 1, _, rfl, rfl, rfl, rfl, rfl, rfl⟩
  exact ⟨hs, fun j y hy hj => handled_once sampleRegistry sampleRecall (by decide +kernel) "c" "k"
    (by decide) 3 j _ y rfl hy hs hj⟩

/-- Two invocations with one key, both admitted before the first result is stored. -/
def sampleRace : List Move :=
  [.start (sampleRequest "a"), .start (sampleRequest "a"), .run 0 sampleSuccess, .run 1 sampleSuccess,
    .run 0 sampleSuccess, .run 1 sampleSuccess, .run 0 sampleSuccess, .run 1 sampleSuccess]

/-- Two invocations with one key, and one with another key between them, in a table for one result. -/
def sampleEviction : List Move :=
  alone 0 (sampleRequest "a") sampleSuccess 5 ++
    alone 6 { sampleRequest "a" with idempotencyKey := "l" } sampleSuccess 5 ++
    alone 12 (sampleRequest "a") sampleSuccess 5

/-- An invocation whose auditor panics after the handler has returned nil, and a retry. -/
def sampleUnaudited : List Move :=
  alone 0 (sampleRequest "a") { sampleSuccess with auditPanic := some "audit" } 5 ++
    alone 6 (sampleRequest "a") sampleSuccess 5

/-- The handler succeeds twice for one command and key: in a race, after the key was forgotten, and
after a panic of the auditor. -/
theorem handled_twice :
    (Succeeds "c" "k" (system.stateAt sampleRegistry sampleRace 6) (.run 0 sampleSuccess) ∧
      Succeeds "c" "k" (system.stateAt sampleRegistry sampleRace 7) (.run 1 sampleSuccess)) ∧
    Succeeds "c" "k" (system.stateAt { sampleRegistry with idemMax := 1 } sampleEviction 3)
      (.run 0 sampleSuccess) ∧
    Succeeds "c" "k" (system.stateAt { sampleRegistry with idemMax := 1 } sampleEviction 15)
      (.run 12 sampleSuccess) ∧
    Succeeds "c" "k" (system.stateAt sampleRegistry sampleUnaudited 3)
      (.run 0 { sampleSuccess with auditPanic := some "audit" }) ∧
    Succeeds "c" "k" (system.stateAt sampleRegistry sampleUnaudited 9) (.run 6 sampleSuccess) :=
  ⟨⟨⟨0, sampleSuccess, _, sampleRequest "a", 1, _, rfl, rfl, rfl, rfl, rfl, rfl⟩,
      ⟨1, sampleSuccess, _, sampleRequest "a", 1, _, rfl, rfl, rfl, rfl, rfl, rfl⟩⟩,
    ⟨0, sampleSuccess, _, sampleRequest "a", 1, _, rfl, rfl, rfl, rfl, rfl, rfl⟩,
    ⟨12, sampleSuccess, _, sampleRequest "a", 1, _, rfl, rfl, rfl, rfl, rfl, rfl⟩,
    ⟨0, _, _, sampleRequest "a", 1, _, rfl, rfl, rfl, rfl, rfl, rfl⟩,
    ⟨6, sampleSuccess, _, sampleRequest "a", 1, _, rfl, rfl, rfl, rfl, rfl, rfl⟩⟩

end ShiftLock.Command
