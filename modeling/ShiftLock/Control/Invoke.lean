import ShiftLock.Control.Command
import ShiftLock.Conc.Pool
import Mathlib.Tactic.IntervalCases

/-!
# Invocations of a registry (`control/command/command.go`)

Any number of calls of `Invoke` on one registry, interleaved in any way, with `Register` and `Close`
in between. The authorizer, the auditor, the handler, the clock and the order of the iteration over the
table of results are choices of the environment.

A monitor says where an invocation is (`Stage`): it has recalled a stored result, or it was admitted,
approved and handled. Its result with a nil error comes from one of the two ways, and only the second
one asks the authorizer (`invoke_authorized`, `invoke_recalls`).
-/

namespace ShiftLock.Command

open Conc

/-- What one action sees of the world. -/
structure Env where
  now : Time := 0
  /-- The order of the iteration over the table of results. -/
  order : List String := []
  /-- The authorizer returns an error. -/
  denied : Bool := false
  outcome : Outcome := .returned {} none
  /-- The value with which the auditor panics. -/
  auditPanic : Option String := none

def exec : (a : Act) → Env → Registry → Registry × a.Answer
  | .accept req, e, r => r.accept e.now req
  | .authorize .., e, r => (r, e.denied)
  | .handle .., e, r => (r, e.outcome)
  | .audit .., e, r => (r, e.auditPanic)
  | .remember key res, e, r => (r.remember e.order key res, ())

inductive Change where
  | register (spec : Spec)
  | close
  deriving DecidableEq, Repr

/-- `Register` and `Close`. -/
def change : Change → Registry → Registry
  | .register spec, r => r.register spec
  | .close, r => { r with closed := true }

def system : Conc.Sys Act Act.Answer Registry Env Change Request (Result × Option Error) where
  exec := exec
  env := change
  fork _ _ := none
  code req := do return .inl (← invoke req)

abbrev Move := Conc.Move Env Change Request

/-! ## Where an invocation is -/

inductive Stage where
  | entering
  /-- The result was found in the table. -/
  | recalled (prev : Result)
  | refused
  | admitted (spec : Spec)
  /-- The authorizer returned nil. -/
  | approved (spec : Spec)
  | handled (out : Outcome)
  /-- The result is in the table. -/
  | stored (res : Result)
  deriving DecidableEq, Repr

/-- The stage after the first section. -/
def Stage.ofAdmission : Admission → Stage
  | .replayed prev => .recalled prev
  | .admitted spec => .admitted spec
  | _ => .refused

def Stage.allows (req : Request) : Stage → Act → Prop
  | .entering, a => a = .accept req
  | .admitted spec, a => a = .authorize req.actorID req.name spec.permission
  | .approved spec, a => a = .handle req (deadline spec req)
  | .refused, .audit .. => True
  | .handled _, .audit .. => True
  | .handled out, .remember key res =>
    key = req.idempotencyKey ∧ key ≠ "" ∧ out = .returned res none
  | _, _ => False

def Stage.after : Stage → (a : Act) → a.Answer → Stage
  | .entering, .accept _, adm => .ofAdmission adm
  | .admitted spec, .authorize .., denied => if denied then .refused else .approved spec
  | .approved _, .handle .., out => .handled out
  | .handled _, .remember _ res, _ => .stored res
  | g, _, _ => g

/-- The monitor of an invocation: its request and its stage. -/
def monitor : Conc.Prog.Monitor Act Act.Answer (Request × Stage) where
  allows g a := g.2.allows g.1 a
  after g a r := (g.1, g.2.after a r)

/-- Where a result with a nil error comes from. -/
def Stage.Yields (req : Request) (res : Result) : Stage → Prop
  | .recalled prev => prev = res
  | .handled out => out = .returned res none ∧ req.idempotencyKey = ""
  | .stored res' => res' = res
  | _ => False

def Ends (req : Request) (g : Request × Stage) : (Result × Option Error) ⊕ Request → Prop
  | .inl (res, none) => g.1 = req ∧ g.2.Yields req res
  | .inl (_, some _) => g.1 = req
  | .inr _ => False

theorem refuse_obeys (req : Request) (outcome : String) (err : Error) :
    Prog.Obeys monitor (fun g x => Ends req g (.inl x)) (refuse req outcome err) (req, .refused) :=
  Prog.Obeys.perform trivial fun panic => by cases panic <;> rfl

theorem contain_obeys (req : Request) (out : Outcome) (value : String) :
    Prog.Obeys monitor (fun g x => Ends req g (.inl x)) (contain req value) (req, .handled out) :=
  Prog.Obeys.perform trivial fun panic => by cases panic <;> rfl

open Conc.Prog in
theorem invoke_obeys (req : Request) :
    Obeys monitor (fun g x => Ends req g (.inl x)) (invoke req) (req, .entering) := by
  refine Obeys.perform rfl fun adm => ?_
  cases adm with
  | closed | notFound => exact rfl
  | replayed prev => exact ⟨rfl, rfl⟩
  | tooLarge | rateLimited => exact refuse_obeys req _ _
  | admitted spec =>
    refine Obeys.perform rfl fun denied => ?_
    cases denied with
    | true => exact refuse_obeys req _ _
    | false =>
      refine Obeys.perform rfl fun out => ?_
      cases out with
      | panicked value => exact contain_obeys req _ value
      | returned res err =>
        refine Obeys.perform trivial fun panic => ?_
        cases panic with
        | some value => exact contain_obeys req _ value
        | none =>
          by_cases hkey : req.idempotencyKey ≠ "" ∧ err.isNone
          · obtain rfl := Option.isNone_iff_eq_none.mp hkey.2
            rw [if_pos hkey]
            exact ⟨⟨rfl, hkey.1, rfl⟩, fun _ => ⟨rfl, rfl⟩⟩
          · rw [if_neg hkey]
            cases err with
            | some text => exact rfl
            | none => exact ⟨rfl, rfl, by simpa using hkey⟩

theorem code_obeys (req : Request) :
    Prog.Obeys monitor (Ends req) (system.code req) (req, .entering) :=
  (invoke_obeys req).bind fun _ _ h => h

/-! ## Events -/

/-- In move `j`, the invocation that started in move `b` performs action `a` with answer `x`. -/
def AnswersIn (r : Registry) (xs : List Move) (b j : Nat) (a : Act) (x : a.Answer) : Prop :=
  ∃ u e th, xs[j]? = some (.run u e) ∧ (system.stateAt r xs j).threads u = some th ∧ th.born = b ∧
    th.next = some a ∧ (exec a e (system.stateAt r xs j).shared).2 = x

/-- The key of the request is in the table of results. -/
def Registry.recalls (r : Registry) (req : Request) : Bool :=
  decide (req.idempotencyKey ≠ "") && (r.idem.lookup req.idempotencyKey).isSome

theorem Registry.accept_replayed {r : Registry} {now : Time} {req : Request} {prev : Result}
    (h : (r.accept now req).2 = .replayed prev) : r.recalls req = true := by
  unfold accept at h
  split at h
  · cases h
  split at h
  · cases h
  split at h
  · rename_i prev' hprev
    unfold recalls
    by_cases hkey : req.idempotencyKey = ""
    · rw [if_pos hkey] at hprev
      cases hprev
    · rw [if_neg hkey] at hprev
      simp [hkey, hprev]
  split at h
  · cases h
  unfold limit at h
  split at h
  · simp only at h
    split at h <;> cases h
  · cases h

/-- What has happened in an invocation, by its stage. -/
def Happened (r : Registry) (xs : List Move) (i b : Nat) (req : Request) : Stage → Prop
  | .recalled prev => ∃ j < i, AnswersIn r xs b j (.accept req) (.replayed prev)
  | .approved spec => ∃ j < i, AnswersIn r xs b j (.authorize req.actorID req.name spec.permission) false
  | .handled out =>
    ∃ spec, (∃ j < i, AnswersIn r xs b j (.authorize req.actorID req.name spec.permission) false) ∧
      ∃ j < i, AnswersIn r xs b j (.handle req (deadline spec req)) out
  | .stored res =>
    ∃ spec, (∃ j < i, AnswersIn r xs b j (.authorize req.actorID req.name spec.permission) false) ∧
      ∃ j < i, AnswersIn r xs b j (.handle req (deadline spec req)) (.returned res none)
  | _ => True

theorem Happened.succ {r : Registry} {xs : List Move} {i b : Nat} {req : Request} {g : Stage}
    (h : Happened r xs i b req g) : Happened r xs (i + 1) b req g := by
  have hlt : ∀ {j}, j < i → j < i + 1 := Nat.lt_succ_of_lt
  cases g with
  | entering | refused | admitted => trivial
  | recalled | approved =>
    obtain ⟨j, hj, hans⟩ := h
    exact ⟨j, hlt hj, hans⟩
  | handled | stored =>
    obtain ⟨spec, ⟨j, hj, hans⟩, j', hj', hans'⟩ := h
    exact ⟨spec, ⟨j, hlt hj, hans⟩, j', hlt hj', hans'⟩

section

variable {r : Registry} {xs : List Move} {i b : Nat} {req : Request}

/-- One action of an invocation. -/
theorem Happened.act {g : Stage} (h : Happened r xs i b req g) {a : Act} (ha : g.allows req a)
    {x : a.Answer} (hans : AnswersIn r xs b i a x) : Happened r xs (i + 1) b req (g.after a x) := by
  have hi : i < i + 1 := Nat.lt_succ_self i
  cases g with
  | entering =>
    obtain rfl : a = .accept req := ha
    cases x with
    | replayed prev => exact ⟨i, hi, hans⟩
    | closed | notFound | tooLarge | rateLimited | admitted => trivial
  | admitted spec =>
    obtain rfl : a = .authorize req.actorID req.name spec.permission := ha
    cases x with
    | true => trivial
    | false => exact ⟨i, hi, hans⟩
  | approved spec =>
    obtain rfl : a = .handle req (deadline spec req) := ha
    exact ⟨spec, succ h, i, hi, hans⟩
  | handled out =>
    cases a with
    | audit => exact succ h
    | remember key res =>
      obtain ⟨_, _, rfl⟩ := ha
      exact succ h
    | accept | authorize | handle => exact ha.elim
  | refused =>
    cases a with
    | audit => trivial
    | accept | authorize | handle | remember => exact ha.elim
  | recalled | stored => cases a <;> exact ha.elim

theorem happened_at (hi : i ≤ xs.length) {u : Nat} {th : Thread Act Act.Answer Request _}
    {g : Request × Stage} (hth : (system.stateAt r xs i).threads u = some th)
    (hg : system.watchAt monitor (fun req => (req, .entering)) r xs i u = some g) :
    g.1 = th.task ∧ Happened r xs i th.born th.task g.2 := by
  refine Sys.each_thread (P := fun i th g => g.1 = th.task ∧ Happened r xs i th.born th.task g.2)
    code_obeys (fun _ _ => ⟨rfl, trivial⟩) (fun _ _ _ h => ⟨h.1, h.2.succ⟩) ?_ hi hth hg
  rintro i u e th ⟨req, g⟩ a k hx hth hp - ha ⟨rfl, hpast⟩ _
  exact ⟨rfl, hpast.act ha ⟨u, e, th, hx, hth, rfl, Thread.next_of_prog hp, rfl⟩⟩

/-- What has happened before an action of an invocation. -/
theorem AnswersIn.happened {a : Act} {x : a.Answer} (h : AnswersIn r xs b i a x) :
    ∃ req g, Stage.allows req g a ∧ Happened r xs i b req g := by
  obtain ⟨u, e, th, hx, hth, rfl, hnext, -⟩ := h
  obtain ⟨k, hp⟩ := Thread.prog_of_next hnext
  obtain ⟨-, g, hg, hobeys⟩ := (Sys.tracks code_obeys i).2 u th hth
  obtain ⟨hreq, hpast⟩ := happened_at (Nat.le_of_lt (List.getElem?_eq_some_iff.mp hx).1) hth hg
  rw [hp] at hobeys
  exact ⟨_, _, hreq ▸ hobeys.1, hpast⟩

end

/-- A handler runs only after the authorizer has approved its actor in the same invocation, and only
what such a run returns without an error is stored, under the key of its own request. -/
theorem handlers_approved (r : Registry) (xs : List Move) :
    (∀ b i req d out, AnswersIn r xs b i (.handle req d) out →
      ∃ j < i, ∃ permission, AnswersIn r xs b j (.authorize req.actorID req.name permission) false) ∧
    ∀ b i key res, AnswersIn r xs b i (.remember key res) () →
      ∃ j < i, ∃ req d, req.idempotencyKey = key ∧
        AnswersIn r xs b j (.handle req d) (.returned res none) := by
  refine ⟨fun b i req d out h => ?_, fun b i key res h => ?_⟩
  · obtain ⟨_, g, ha, hpast⟩ := h.happened
    cases g with
    | approved spec =>
      cases ha
      obtain ⟨j, hj, hans⟩ := hpast
      exact ⟨j, hj, _, hans⟩
    | _ => cases ha
  · obtain ⟨req, g, ha, hpast⟩ := h.happened
    cases g with
    | handled out =>
      obtain ⟨rfl, -, rfl⟩ := ha
      obtain ⟨_, -, j, hj, hans⟩ := hpast
      exact ⟨j, hj, req, _, rfl, hans⟩
    | _ => cases ha

/-- An invocation that returns a nil error, and that did not find its key in the table when it entered,
was approved by the authorizer for its actor and command, and its result is the one of its own handler
run. -/
theorem invoke_authorized (r : Registry) (xs : List Move) (i : Nat) (hi : i ≤ xs.length) (u : Nat)
    (th : Conc.Thread Act Act.Answer Request (Result × Option Error)) (res : Result)
    (hth : (system.stateAt r xs i).threads u = some th) (hres : th.result = some (res, none))
    (hrecall : ∀ j adm, j < i → AnswersIn r xs th.born j (.accept th.task) adm →
      (system.stateAt r xs j).shared.recalls th.task = false) :
    (∃ j < i, ∃ permission,
      AnswersIn r xs th.born j (.authorize th.task.actorID th.task.name permission) false) ∧
    ∃ j < i, ∃ d, AnswersIn r xs th.born j (.handle th.task d) (.returned res none) := by
  obtain ⟨-, g, hg, hobeys⟩ := (Sys.tracks code_obeys i).2 u th hth
  rw [Thread.prog_of_result hres] at hobeys
  obtain ⟨-, hpast⟩ := happened_at hi hth hg
  have hyields : g.2.Yields th.task res := hobeys.2
  obtain ⟨req, g⟩ := g
  cases g with
  | recalled prev =>
    obtain ⟨j, hj, hans⟩ := hpast
    have hno := hrecall j _ hj hans
    obtain ⟨_, e, _, _, _, _, _, hadm⟩ := hans
    rw [Registry.accept_replayed hadm] at hno
    cases hno
  | handled out =>
    obtain ⟨spec, ⟨j, hj, hans⟩, j', hj', hans'⟩ := hpast
    obtain ⟨rfl, _⟩ := hyields
    exact ⟨⟨j, hj, spec.permission, hans⟩, j', hj', _, hans'⟩
  | stored res' =>
    obtain ⟨spec, ⟨j, hj, hans⟩, j', hj', hans'⟩ := hpast
    obtain rfl : res' = res := hyields
    exact ⟨⟨j, hj, spec.permission, hans⟩, j', hj', _, hans'⟩
  | entering | refused | admitted | approved => exact hyields.elim

/-- The specification of the command `c`. -/
def sampleSpec : Spec where
  name := "c"
  permission := "p"
  maxBodyBytes := 1
  deadline := 1

/-- A registry with the command `c`. -/
def sampleRegistry : Registry where
  cmds name := if name = "c" then some { spec := sampleSpec } else none

/-- An invocation of `c` with the key `k`. -/
def sampleRequest (actorID : String) : Request := { name := "c", actorID, idempotencyKey := "k" }

theorem invoke_authorized_sample :
    ∃ j < 6, ∃ permission,
      AnswersIn sampleRegistry (alone 0 (sampleRequest "a") {} 5) 0 j (.authorize "a" "c" permission)
        false := by
  refine (invoke_authorized sampleRegistry (alone 0 (sampleRequest "a") {} 5) 6 (by decide) 0 _ {}
    rfl rfl fun j adm hj _ => ?_).1
  -- The result is stored in the last move, and the table is empty before.
  interval_cases j <;> rfl

/-- The authorizer approves and the handler returns nil. -/
def sampleSuccess : Env where
  outcome := .returned { ok := true } none

/-- An authorized invocation by `a`, and then one by `b`, for whom the authorizer returns an error. -/
def sampleRecall : List Move :=
  alone 0 (sampleRequest "a") sampleSuccess 5 ++
    alone 6 (sampleRequest "b") { denied := true } 1

/-- The second invocation returns the result of the first, without a question to the authorizer. -/
theorem invoke_recalls :
    ((system.stateAt sampleRegistry sampleRecall 8).threads 6).bind Conc.Thread.result =
      some ({ ok := true }, none) ∧
    ∀ e, Conc.Move.run 6 e ∈ sampleRecall → e.denied = true := by
  refine ⟨rfl, fun e he => ?_⟩
  simp [sampleRecall, alone] at he
  rw [he]

end ShiftLock.Command
