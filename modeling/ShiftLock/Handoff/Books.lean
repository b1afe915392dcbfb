import ShiftLock.Handoff.Due

/-!
# The entries of a handoff and what is due

What a handoff knows of its reservations at each point of a call on it. `Books` holds at all times:
everything that is due is a claim of the handoff whose cached record still names this generation, so
that no loop passes it by. `Phase.Holds` says for each phase where the entries are: `Transfer` files
one for every claim that it has seen, and `Commit` works through its copy of them.

One lemma for each action of a call (`Phase.step`); what happens beside the call keeps both
(`Books.spared`, `Phase.Holds.spared`).
-/

namespace ShiftLock.Coord


/-- Reservations: of a claim, with a token, for a successor. -/
abbrev Dues := String → FencingToken → String → Prop

def Dues.after (D : Dues) (a : Act) (r : a.Answer) : Dues :=
  match a, r with
  | .call (.prepareTransfer req), r =>
    match r.result with
    | .ok record => fun n t s =>
      if n = req.claimName then t = record.fencingToken ∧ s = req.toGeneration else D n t s
    | .error _ => D
  | .call (.commitTransfer req), r =>
    match r.result with
    | .ok _ => fun n t s =>
      D n t s ∧ ¬ (n = req.claimName ∧ t = req.expectedToken ∧ s = req.toGeneration)
    | .error _ => D
  | _, _ => D

/-- What is due has an entry, for the claims in `S`. -/
def Filed (D : Dues) (tokens : Tokens) (successor : String) (S : String → Prop) : Prop :=
  ∀ n t s, D n t s → S n → tokens.lookup n = some t ∧ s = successor

/-- What holds of a handoff at all times. `C` says that it has been committed, and `loose` is the claim
whose reservation is confirmed and not applied. -/
structure Books (genID : String) (D : Dues) (C : Prop) (loose : Option String) (c : Coord)
    (x : Handoff) : Prop where
  transferred : x.transferDone = true → x.status ≠ .pending ∧ x.status ≠ .draining
  stable : C → x.status = .committed
  listed : ∀ n t s, D n t s → n ∈ x.claims
  owned : ∀ n t s, D n t s → loose ≠ some n → (c.claims n).record.controls genID = true

/-- Between two calls: nothing is due in a committed handoff, and everything that is due in one that is
transferring has its entry. -/
structure Orderly (D : Dues) (x : Handoff) : Prop where
  done : ∀ n t s, D n t s → x.status ≠ .committed
  filed : x.status = .transferring → Filed D x.tokens x.successorID fun _ => True

/-- In a loop of `Transfer` or `Commit`. -/
structure InLoop (x : Handoff) (l : Loop) : Prop where
  status : x.status = .transferring ∨ x.status = .aborted
  names : ∀ names, l.names = some names → names = x.claims

namespace Phase

/-- The claim whose reservation is confirmed and not applied. -/
def loose : Phase → Option String
  | .reserved _ n _ => some n
  | _ => none

def Holds (genID : String) (D : Dues) (x : Handoff) : Phase → Prop
  | .plain => Orderly D x
  | .draining => x.status ≠ .committed ∧ Orderly D x
  | .reserving l => InLoop x l ∧ x.successorID = l.successor ∧
    Filed D x.tokens l.successor (· ∈ l.seen)
  | .reserved l n record => InLoop x l ∧ x.successorID = l.successor ∧
    Filed D x.tokens l.successor (fun m => m ∈ l.seen ∧ m ≠ n) ∧
    (∀ t s, D n t s → t = record.fencingToken ∧ s = l.successor) ∧ record.controls genID = true
  | .applied l n t => InLoop x l ∧ x.successorID = l.successor ∧
    Filed D x.tokens l.successor (fun m => m ∈ l.seen ∧ m ≠ n) ∧
    ∀ t' s, D n t' s → t' = t ∧ s = l.successor
  | .committing l tokens => InLoop x l ∧ Filed D tokens l.successor (fun _ => True) ∧
    ∀ n t s, D n t s → n ∉ l.seen
  | .settled l tokens n _ => InLoop x l ∧ Filed D tokens l.successor (fun _ => True) ∧
    ∀ m t s, D m t s → m ∉ (l.see n).seen
  | .broken => x.status ≠ .committed
  | .rolling => x.status ≠ .committed ∧ x.status ≠ .transferring
  | .committed => x.status = .committed ∧ Orderly D x

end Phase

variable {genID : String} {D D' : Dues} {C C' : Prop} {loose : Option String} {c c' : Coord}
  {x x' : Handoff} {l : Loop} {p : Phase}

/-! ## Fewer reservations -/

theorem Filed.mono {tokens : Tokens} {successor : String} {S S' : String → Prop}
    (h : Filed D tokens successor S) (hD : ∀ n t s, D' n t s → D n t s) (hS : ∀ n, S' n → S n) :
    Filed D' tokens successor S' := fun n t s hd hn => h n t s (hD n t s hd) (hS n hn)

theorem Orderly.mono (h : Orderly D x) (hD : ∀ n t s, D' n t s → D n t s) : Orderly D' x :=
  ⟨fun n t s hd => h.done n t s (hD n t s hd), fun hs => (h.filed hs).mono hD fun _ h => h⟩

theorem Books.mono (h : Books genID D C loose c x) (hD : ∀ n t s, D' n t s → D n t s)
    (hC : C' → C ∨ x.status = .committed) : Books genID D' C' loose c x where
  transferred := h.transferred
  stable hc := (hC hc).elim h.stable id
  listed n t s hd := h.listed n t s (hD n t s hd)
  owned n t s hd := h.owned n t s (hD n t s hd)

theorem Phase.Holds.mono (h : p.Holds genID D x) (hD : ∀ n t s, D' n t s → D n t s) : p.Holds genID D' x := by
  cases p with
  | plain => exact Orderly.mono h hD
  | draining | committed => exact ⟨h.1, Orderly.mono h.2 hD⟩
  | reserving l => exact ⟨h.1, h.2.1, h.2.2.mono hD fun _ h => h⟩
  | reserved l n record =>
    exact ⟨h.1, h.2.1, h.2.2.1.mono hD fun _ h => h, fun t s hd => h.2.2.2.1 t s (hD n t s hd),
      h.2.2.2.2⟩
  | applied l n t =>
    exact ⟨h.1, h.2.1, h.2.2.1.mono hD fun _ h => h, fun t' s hd => h.2.2.2 t' s (hD n t' s hd)⟩
  | committing l tokens =>
    exact ⟨h.1, h.2.1.mono hD fun _ h => h, fun n t s hd => h.2.2 n t s (hD n t s hd)⟩
  | settled l tokens n record =>
    exact ⟨h.1, h.2.1.mono hD fun _ h => h, fun m t s hd => h.2.2 m t s (hD m t s hd)⟩
  | broken | rolling => exact h

/-! ## Beside a call -/

theorem Spared.orderly (h : Orderly D x) (ha : Spared x x') : Orderly D x' := by
  obtain ⟨-, hsucc, -, htokens, hstatus⟩ := ha
  rcases hstatus with hstatus | ⟨-, hstatus⟩
  · exact ⟨fun n t s hd => hstatus ▸ h.done n t s hd, fun hs => by
      rw [htokens, hsucc]
      exact h.filed (hstatus ▸ hs)⟩
  · exact ⟨fun _ _ _ _ => by simp [hstatus], fun hs => by simp [hstatus] at hs⟩

theorem Spared.inLoop (h : InLoop x l) (ha : Spared x x') : InLoop x' l := by
  refine ⟨?_, fun names hn => (h.names names hn).trans ha.claims.symm⟩
  rcases ha.status with hstatus | ⟨-, hstatus⟩
  · rw [hstatus]
    exact h.status
  · exact .inr hstatus

/-- Nobody else commits a handoff, or sets it to transferring. -/
theorem Spared.status_ne (ha : Spared x x') {st : HandoffStatus} (hst : st ≠ .aborted)
    (h : x.status ≠ st) : x'.status ≠ st := by
  rcases ha.status with hstatus | ⟨-, hstatus⟩
  · rwa [hstatus]
  · rw [hstatus]
    exact hst.symm

theorem Spared.committed (ha : Spared x x') (h : x.status = .committed) : x'.status = .committed :=
  (ha.status.resolve_right fun hs => hs.1 h).trans h

theorem Phase.Holds.spared (h : p.Holds genID D x) (ha : Spared x x') : p.Holds genID D x' := by
  cases p with
  | plain => exact ha.orderly h
  | draining => exact ⟨ha.status_ne (by simp) h.1, ha.orderly h.2⟩
  | reserving l =>
    refine ⟨ha.inLoop h.1, ha.successorID.trans h.2.1, ?_⟩
    rw [ha.tokens]
    exact h.2.2
  | reserved l n record | applied l n t =>
    refine ⟨ha.inLoop h.1, ha.successorID.trans h.2.1, ?_, h.2.2.2⟩
    rw [ha.tokens]
    exact h.2.2.1
  | committing l tokens | settled l tokens n record => exact ⟨ha.inLoop h.1, h.2⟩
  | broken => exact ha.status_ne (by simp) h
  | rolling => exact ⟨ha.status_ne (by simp) h.1, ha.status_ne (by simp) h.2⟩
  | committed => exact ⟨ha.committed h.1, ha.orderly h.2⟩

theorem Books.spared (h : Books genID D C loose c x) (ha : Spared x x')
    (hr : ∀ n, (c'.claims n).record = (c.claims n).record ∨ (c'.claims n).record.controls genID = true) :
    Books genID D C loose c' x' where
  transferred hdone := by
    obtain ⟨hpending, hdraining⟩ := h.transferred (ha.transferDone ▸ hdone)
    exact ⟨ha.status_ne (by simp) hpending, ha.status_ne (by simp) hdraining⟩
  stable hc := ha.committed (h.stable hc)
  listed n t s hd := ha.claims ▸ h.listed n t s hd
  owned n t s hd hn := by
    rcases hr n with heq | hcontrols
    · rw [heq]
      exact h.owned n t s hd hn
    · exact hcontrols

/-! ## The sections of a call -/

/-- A call on the handoff is in phase `p`. -/
def Phase.Good (genID : String) (D : Dues) (C : Prop) (c : Coord) (x : Handoff) (p : Phase) : Prop :=
  Books genID D C p.loose c x ∧ p.Holds genID D x

theorem Books.update (h : Books genID D C loose c x) (hclaims : x'.claims = x.claims)
    (htransferred : x'.transferDone = true → x'.status ≠ .pending ∧ x'.status ≠ .draining)
    (hstable : x.status = .committed → x'.status = .committed) : Books genID D C loose c x' :=
  ⟨htransferred, fun hc => hstable (h.stable hc), fun n t s hd => hclaims ▸ h.listed n t s hd, h.owned⟩

section

variable (h : Nat)

theorem drainBegin_good (hg : Phase.Good genID D C c x .plain) :
    Phase.Good genID D C c x.drainBegin.1 (Phase.plain.after h (.drainBegin h) x.drainBegin.2) := by
  obtain ⟨hb, ho⟩ := hg
  unfold Handoff.drainBegin
  split
  · exact ⟨hb, ho⟩
  · rename_i hs
    have hs : x.status = .pending ∨ x.status = .draining := by
      by_contra hne
      exact hs (not_or.mp hne)
    have hdone : x.transferDone ≠ true := fun hdone => by
      obtain ⟨hpending, hdraining⟩ := hb.transferred hdone
      exact hs.elim hpending hdraining
    refine ⟨hb.update rfl (fun hd => absurd hd hdone) fun hc => ?_, by simp, ?_⟩
    · rcases hs with hs | hs <;> rw [hs] at hc <;> cases hc
    · exact ⟨fun _ _ _ _ => by simp, fun hc => by cases hc⟩

/-- The fields are set for a new successor. -/
theorem transferStart_good (hb : Books genID D C none c x) (hs : x.status ≠ .committed)
    (successor : String) :
    Phase.Good genID D C c (x.transferStart successor) (.reserving { successor }) := by
  refine ⟨hb.update rfl (fun _ => by simp [Handoff.transferStart]) fun hc => absurd hc hs, ?_, rfl, ?_⟩
  · exact ⟨.inl rfl, fun _ hn => by cases hn⟩
  · exact fun _ _ _ _ hseen => by cases hseen

theorem transferBegin_good (hg : Phase.Good genID D C c x .plain) (successor : String) :
    Phase.Good genID D C c (x.transferBegin successor).1
      (Phase.plain.after h (.transferBegin h successor) (x.transferBegin successor).2) := by
  obtain ⟨hb, ho⟩ := hg
  unfold Handoff.transferBegin
  split
  · exact ⟨hb, ho⟩
  rename_i hs
  split
  · exact ⟨hb, ho⟩
  · exact transferStart_good hb (fun hc => hs (.inl hc)) successor

/-- `Commit` starts unless the handoff is settled: then everything that is due has its entry. -/
theorem commitBegin_good (hg : Phase.Good genID D C c x .plain)
    (hfailed : x.transferDone = true → x.status ≠ .failed) :
    Phase.Good genID D C c x (Phase.plain.after h (.commitBegin h) x.commitBegin) := by
  obtain ⟨hb, ho⟩ := hg
  unfold Handoff.commitBegin
  split
  · exact ⟨hb, ho⟩
  rename_i hdone
  rw [not_not] at hdone
  split
  · rename_i hs
    exact ⟨hb, hs, ho⟩
  rename_i hcommitted
  split
  · exact ⟨hb, ho⟩
  rename_i haborted
  obtain ⟨hpending, hdraining⟩ := hb.transferred hdone
  have hs : x.status = .transferring := by
    have := hfailed hdone
    cases hst : x.status <;> simp_all
  refine ⟨hb, ⟨.inl hs, fun _ hn => by cases hn⟩, ho.filed hs, fun _ _ _ _ hseen => by cases hseen⟩

theorem fail_good (hb : Books genID D C loose c x) (hs : x.status ≠ .committed) (err : Err) :
    Books genID D C loose c (x.fail err) ∧ Orderly D (x.fail err) := by
  refine ⟨hb.update rfl (fun _ => by simp [Handoff.fail]) fun hc => absurd hc hs, ?_⟩
  exact ⟨fun _ _ _ _ => by simp [Handoff.fail], fun hc => by cases hc⟩

/-- All claims are seen, so everything that is due has its entry. -/
theorem transferEnd_good (hg : Phase.Good genID D C c x (.reserving l))
    (hcovers : l.Covers fun _ => True) : Phase.Good genID D C c x.transferEnd .plain := by
  obtain ⟨hb, ⟨hstatus, hnames⟩, hsucc, hfiled⟩ := hg
  obtain ⟨names, hread, hseen⟩ := hcovers
  have hall : ∀ n t s, D n t s → n ∈ l.seen := fun n t s hd =>
    hseen n (hnames names hread ▸ hb.listed n t s hd) trivial
  have hne : x.status ≠ .committed ∧ x.status ≠ .pending ∧ x.status ≠ .draining := by
    rcases hstatus with hs | hs <;> simp [hs]
  refine ⟨hb.update rfl (fun _ => hne.2) fun hc => hc, fun _ _ _ _ => hne.1, fun _ n t s hd _ => ?_⟩
  show x.tokens.lookup n = some t ∧ s = x.successorID
  rw [hsucc]
  exact hfiled n t s hd (hall n t s hd)

variable {tokens : Tokens} {n : String}

/-- All entries are worked through, so nothing is due. -/
theorem commitEnd_good (hg : Phase.Good genID D C c x (.committing l tokens))
    (hcovers : l.Covers fun n => tokens.lookup n ≠ none) :
    Phase.Good genID D C c x.commitEnd .committed := by
  obtain ⟨hb, ⟨hstatus, hnames⟩, hfiled, hunseen⟩ := hg
  obtain ⟨names, hread, hseen⟩ := hcovers
  have hnone : ∀ n t s, ¬ D n t s := by
    intro n t s hd
    refine hunseen n t s hd (hseen n (hnames names hread ▸ hb.listed n t s hd) ?_)
    show tokens.lookup n ≠ none
    simp [(hfiled n t s hd trivial).1]
  refine ⟨hb.update rfl (fun _ => by simp [Handoff.commitEnd]) fun _ => rfl, rfl, ?_⟩
  exact ⟨fun n t s hd => absurd hd (hnone n t s), fun hc => by cases hc⟩

theorem setToken_good {t : FencingToken} (hg : Phase.Good genID D C c x (.applied l n t)) :
    Phase.Good genID D C c (x.setToken n t) (.reserving (l.see n)) := by
  obtain ⟨hb, ⟨hstatus, hnames⟩, hsucc, hfiled, hentry⟩ := hg
  refine ⟨hb.update rfl hb.transferred fun hc => hc, ⟨hstatus, hnames⟩, hsucc, fun m t' s hd hm => ?_⟩
  show (x.tokens.insert n t).lookup m = some t' ∧ s = l.successor
  by_cases hmn : m = n
  · subst hmn
    obtain ⟨rfl, rfl⟩ := hentry t' s hd
    exact ⟨AList.lookup_insert .., rfl⟩
  · rw [AList.lookup_insert_ne hmn]
    exact hfiled m t' s hd ⟨(List.mem_cons.mp hm).resolve_left hmn, hmn⟩

variable {reply : Memory.Reply} {record : ClaimRecord}

theorem prepare_good {req : TransferRequest} (hg : Phase.Good genID D C c x (.reserving l))
    (hsucc : req.toGeneration = l.successor)
    (hname : ∃ names, l.names = some names ∧ req.claimName ∈ names)
    (hcontrols : ∀ record, reply.result = .ok record → record.controls genID = true) :
    Phase.Good genID (D.after (.call (.prepareTransfer req)) reply) C c x
      ((Phase.reserving l).after h (.call (.prepareTransfer req)) reply) := by
  obtain ⟨hb, hloop, hx, hfiled⟩ := hg
  cases hr : reply.result with
  | error err =>
    have hD : D.after (.call (.prepareTransfer req)) reply = D := by simp only [Dues.after, hr]
    rw [hD, Phase.after_prepare_error hr]
    refine ⟨hb, ?_⟩
    show x.status ≠ .committed
    rcases hloop.status with hs | hs <;> simp [hs]
  | ok record =>
    have hD : D.after (.call (.prepareTransfer req)) reply = fun n t s =>
        if n = req.claimName then t = record.fencingToken ∧ s = req.toGeneration else D n t s := by
      simp only [Dues.after, hr]
    rw [hD, Phase.after_prepare_ok hr]
    obtain ⟨names, hread, hin⟩ := hname
    have hold : ∀ n t s, (if n = req.claimName then t = record.fencingToken ∧ s = req.toGeneration
        else D n t s) → n ≠ req.claimName → D n t s := fun n t s hd hn => by rwa [if_neg hn] at hd
    refine ⟨⟨hb.transferred, hb.stable, fun n t s hd => ?_, fun n t s hd hn => ?_⟩, hloop, hx,
      fun n t s hd hn => hfiled n t s (hold n t s hd hn.2) hn.1, fun t s hd => ?_,
      hcontrols record hr⟩
    · by_cases hn : n = req.claimName
      · rw [hn, ← hloop.names names hread]
        exact hin
      · exact hb.listed n t s (hold n t s hd hn)
    · have hn : n ≠ req.claimName := fun h => hn (by rw [h]; rfl)
      exact hb.owned n t s (hold n t s hd hn) (by simp [Phase.loose])
    · simpa [hsucc] using hd

/-- The backend has handed a claim over. -/
theorem commit_good {req : CommitRequest} (hg : Phase.Good genID D C c x (.committing l tokens))
    (hsucc : req.toGeneration = l.successor)
    (hentry : tokens.lookup req.claimName = some req.expectedToken) :
    Phase.Good genID (D.after (.call (.commitTransfer req)) reply) C c x
      ((Phase.committing l tokens).after h (.call (.commitTransfer req)) reply) := by
  obtain ⟨hb, hloop, hfiled, hunseen⟩ := hg
  cases hr : reply.result with
  | error err =>
    have hD : D.after (.call (.commitTransfer req)) reply = D := by simp only [Dues.after, hr]
    rw [hD, Phase.after_commit_error hr]
    refine ⟨hb, ?_⟩
    show x.status ≠ .committed
    rcases hloop.status with hs | hs <;> simp [hs]
  | ok record =>
    have hD : D.after (.call (.commitTransfer req)) reply = fun n t s =>
        D n t s ∧ ¬ (n = req.claimName ∧ t = req.expectedToken ∧ s = req.toGeneration) := by
      simp only [Dues.after, hr]
    rw [hD, Phase.after_commit_ok hr]
    refine ⟨hb.mono (fun n t s hd => hd.1) .inl, hloop, hfiled.mono (fun n t s hd => hd.1) fun _ h => h,
      fun n t s hd hn => ?_⟩
    rcases List.mem_cons.mp hn with rfl | hn
    · obtain ⟨htoken, hs⟩ := hfiled _ t s hd.1 trivial
      rw [hentry, Option.some.injEq] at htoken
      exact hd.2 ⟨rfl, htoken.symm, hs.trans hsucc.symm⟩
    · exact hunseen n t s hd.1 hn

theorem applyReserved_good (hg : Phase.Good genID D C c x (.reserved l n record))
    (hself : (c'.claims n).record = record)
    (hothers : ∀ m, m ≠ n → (c'.claims m).record = (c.claims m).record) :
    Phase.Good genID D C c' x (.applied l n record.fencingToken) := by
  obtain ⟨hb, hloop, hx, hfiled, hentry, hcontrols⟩ := hg
  refine ⟨⟨hb.transferred, hb.stable, hb.listed, fun m t s hd _ => ?_⟩, hloop, hx, hfiled, hentry⟩
  by_cases hm : m = n
  · rw [hm, hself]
    exact hcontrols
  · rw [hothers m hm]
    exact hb.owned m t s hd fun h => hm (Option.some.inj h).symm

/-- The record of a commit is applied, to a claim of which nothing is due. -/
theorem applySettled_good (hg : Phase.Good genID D C c x (.settled l tokens n record))
    (hothers : ∀ m, m ≠ n → (c'.claims m).record = (c.claims m).record) :
    Phase.Good genID D C c' x (.committing (l.see n) tokens) := by
  obtain ⟨hb, ⟨hstatus, hnames⟩, hfiled, hunseen⟩ := hg
  refine ⟨⟨hb.transferred, hb.stable, hb.listed, fun m t s hd hm => ?_⟩, ⟨hstatus, hnames⟩, hfiled,
    hunseen⟩
  have hne : m ≠ n := by
    rintro rfl
    exact hunseen m t s hd List.mem_cons_self
  rw [hothers m hne]
  exact hb.owned m t s hd hm

theorem InLoop.read (hl : InLoop x l) : InLoop x (l.read x.claims) :=
  ⟨hl.status, fun _ hn => (Option.some.inj hn).symm⟩

/-- `Transfer` passes by a claim that this generation does not hold: nothing is due of it. -/
theorem pass_good (hg : Phase.Good genID D C c x (.reserving l))
    (hn : ¬ (c.claims n).record.controls genID = true) :
    Phase.Good genID D C c x (.reserving (l.see n)) := by
  obtain ⟨hb, ⟨hstatus, hnames⟩, hx, hfiled⟩ := hg
  refine ⟨hb, ⟨hstatus, hnames⟩, hx, fun m t s hd hm => ?_⟩
  rcases List.mem_cons.mp hm with rfl | hm
  · exact absurd (hb.owned m t s hd (by simp [Phase.loose])) hn
  · exact hfiled m t s hd hm

/-- An entry is dropped where no entry matters. -/
theorem dropToken_good (n : String) (hg : Phase.Good genID D C c x p)
    (hp : p = .rolling ∨ ∃ l tokens, p = .committing l tokens) :
    Phase.Good genID D C c (x.dropToken n) p := by
  obtain ⟨hb, hh⟩ := hg
  refine ⟨hb.update rfl hb.transferred fun hc => hc, ?_⟩
  rcases hp with rfl | ⟨l, tokens, rfl⟩
  · exact hh
  · exact ⟨⟨hh.1.status, hh.1.names⟩, hh.2⟩

end

/-! ## One action -/

variable {cfg : Config} {w : World} {e : Env} {a : Act} {h : Nat}

theorem Dues.after_beside (D : Dues) (ha : a.beside = true ∨ ∃ n record, a = .applyRecord n record)
    (r : a.Answer) : D.after a r = D := by
  rcases ha with ha | ⟨n, record, rfl⟩
  · cases a with
    | call op => cases op <;> first | rfl | cases ha
    | _ => rfl
  · rfl

theorem applyRecord_record (c : Claim) (record : ClaimRecord) :
    (c.applyRecord genID record).1.record = record := by
  unfold Claim.applyRecord
  simp only
  split
  · rfl
  · split <;> rfl

theorem exec_applyRecord_self (n : String) (record : ClaimRecord) :
    ((exec cfg (.applyRecord n record) e w).1.coord.claims n).record = record := by
  rw [exec_claims, show (Act.applyRecord n record).claimOf = some n from rfl, if_pos rfl]
  exact applyRecord_record _ record

theorem exec_applyRecord_ne {n m : String} (record : ClaimRecord) (hm : m ≠ n) :
    ((exec cfg (.applyRecord n record) e w).1.coord.claims m).record = (w.coord.claims m).record := by
  have hne : (Act.applyRecord n record).claimOf ≠ some m := fun h => hm (Option.some.inj h).symm
  rw [exec_claims, if_neg hne]

theorem controls_of_no_token {c : Claim} {live : Bool} (h : c.currentLeaseToken live genID = none) :
    ¬ c.record.controls genID = true := by
  intro hcontrols
  unfold Claim.currentLeaseToken at h
  rw [hcontrols] at h
  cases hl : c.validLease live with
  | some l | none =>
    rw [hl] at h
    cases h

/-- A call performs an action that any thread may perform. -/
theorem Phase.step_beside (hg : Phase.Good w.genID D C w.coord (w.handoffs h) p)
    (hh : h < w.coord.handoffs) (ha : a.beside = true)
    (hd : ∀ n record, a.delivers = some (n, record) → record.controls w.genID = true) :
    Phase.Good w.genID D C (exec cfg a e w).1.coord ((exec cfg a e w).1.handoffs h)
      (p.after h a (exec cfg a e w).2) := by
  have haside : Aside w.genID h w (exec cfg a e w).1 := exec_aside (.inl ha) hd
  obtain ⟨-, hhandoff, hrecord⟩ := haside
  have hspared := hhandoff.resolve_right fun hnew => Nat.not_lt.mpr hnew.1 hh
  have hgood : Phase.Good w.genID D C (exec cfg a e w).1.coord ((exec cfg a e w).1.handoffs h) p :=
    ⟨hg.1.spared hspared hrecord, hg.2.spared hspared⟩
  rcases Act.beside_cases ha with hq | ⟨h', rfl⟩ | ⟨n, rfl⟩
  · rw [after_quiet hq]
    exact hgood
  · cases p with
    | reserving l =>
      show Phase.Good _ _ _ _ _ (.reserving (if h' = h then l.read (w.handoffs h').claims else l))
      split
      · rename_i hself
        subst hself
        exact ⟨hgood.1, hgood.2.1.read, hgood.2.2⟩
      · exact hgood
    | committing l tokens =>
      show Phase.Good _ _ _ _ _
        (.committing (if h' = h then l.read (w.handoffs h').claims else l) tokens)
      split
      · rename_i hself
        subst hself
        exact ⟨hgood.1, hgood.2.1.read, hgood.2.2⟩
      · exact hgood
    | _ => exact hgood
  · cases p with
    | reserving l =>
      cases htoken : (exec cfg (.currentLeaseToken n) e w).2 with
      | some token => exact hgood
      | none => exact pass_good hgood (controls_of_no_token htoken)
    | _ => exact hgood

theorem good_section (w : World) {w' : World} (hc : w'.coord = w.coord)
    (hx : w'.handoffs = Function.update w.handoffs h x') (hg : Phase.Good genID D C w.coord x' p) :
    Phase.Good genID D C w'.coord (w'.handoffs h) p := by
  rw [hc, hx, Function.update_self]
  exact hg

theorem good_call {op : Memory.Op} (hg : Phase.Good genID D C w.coord (w.handoffs h) p) :
    Phase.Good genID D C (exec cfg (.call op) e w).1.coord ((exec cfg (.call op) e w).1.handoffs h) p := by
  rw [exec_call_coord, exec_handoffs cfg e w (.call op) (by simp)]
  exact hg

/-- A call performs an action of its own phase. -/
theorem Phase.step_own (hg : Phase.Good w.genID D C w.coord (w.handoffs h) p) (ha : p.own h a)
    (hprepare : ∀ req record, a = .call (.prepareTransfer req) →
      (exec cfg (.call (.prepareTransfer req)) e w).2.result = .ok record →
      record.controls w.genID = true)
    (hcommit : a = .commitBegin h → (w.handoffs h).transferDone = true →
      (w.handoffs h).status ≠ .failed) :
    Phase.Good w.genID (D.after a (exec cfg a e w).2) C (exec cfg a e w).1.coord
      ((exec cfg a e w).1.handoffs h) (p.after h a (exec cfg a e w).2) := by
  cases p with
  | plain =>
    cases a with
    | drainBegin h' =>
      obtain rfl : h' = h := ha
      exact good_section w rfl rfl (drainBegin_good h' hg)
    | transferBegin h' s =>
      obtain rfl : h' = h := ha
      exact good_section w rfl rfl (transferBegin_good h' hg s)
    | commitBegin h' =>
      obtain rfl : h' = h := ha
      exact commitBegin_good h' hg (hcommit rfl)
    | call op => cases op <;> exact False.elim ha
    | _ => exact False.elim ha
  | draining =>
    obtain ⟨hb, hs, ho⟩ := hg
    cases a with
    | fail h' err =>
      obtain rfl : h' = h := ha
      obtain ⟨hb, ho⟩ := fail_good hb hs err
      exact good_section w rfl rfl ⟨hb, by simp [Handoff.fail], ho⟩
    | drainEnd h' =>
      obtain rfl : h' = h := ha
      have hb : Books w.genID D C none w.coord (w.handoffs h').drainEnd :=
        hb.update rfl hb.transferred fun hc => hc
      exact good_section w rfl rfl ⟨hb, hs, ho.done, ho.filed⟩
    | transferStart h' s =>
      obtain rfl : h' = h := ha
      exact good_section w rfl rfl (transferStart_good hb hs s)
    | call op => cases op <;> exact False.elim ha
    | _ => exact False.elim ha
  | reserving l =>
    cases a with
    | transferEnd h' =>
      obtain ⟨rfl, hcovers⟩ := ha
      exact good_section w rfl rfl (transferEnd_good hg hcovers)
    | call op =>
      cases op with
      | prepareTransfer req =>
        exact good_call (prepare_good h hg ha.1 ha.2 fun record => hprepare req record rfl)
      | _ => exact False.elim ha
    | _ => exact False.elim ha
  | reserved l n record =>
    cases a with
    | applyRecord n' record' =>
      obtain ⟨rfl, rfl⟩ := ha
      exact applyReserved_good hg (exec_applyRecord_self n' record') fun m hm =>
        exec_applyRecord_ne record' hm
    | call op => cases op <;> exact False.elim ha
    | _ => exact False.elim ha
  | applied l n t =>
    cases a with
    | setToken h' n' t' =>
      obtain ⟨rfl, rfl, rfl⟩ := ha
      exact good_section w rfl rfl (setToken_good hg)
    | call op => cases op <;> exact False.elim ha
    | _ => exact False.elim ha
  | committing l tokens =>
    cases a with
    | commitEnd h' =>
      obtain ⟨rfl, hcovers⟩ := ha
      exact good_section w rfl rfl (commitEnd_good hg hcovers)
    | dropToken h' n =>
      obtain rfl : h' = h := ha
      exact good_section w rfl rfl (dropToken_good n hg (.inr ⟨l, tokens, rfl⟩))
    | call op =>
      cases op with
      | commitTransfer req => exact good_call (commit_good h hg ha.1 ha.2)
      | _ => exact False.elim ha
    | _ => exact False.elim ha
  | settled l tokens n record =>
    cases a with
    | applyRecord n' record' =>
      obtain ⟨rfl, rfl⟩ := ha
      exact applySettled_good hg fun m hm => exec_applyRecord_ne record' hm
    | call op => cases op <;> exact False.elim ha
    | _ => exact False.elim ha
  | broken =>
    cases a with
    | fail h' err =>
      obtain rfl : h' = h := ha
      obtain ⟨hb, -⟩ := fail_good hg.1 hg.2 err
      exact good_section w rfl rfl ⟨hb, by simp [Handoff.fail], by simp [Handoff.fail]⟩
    | call op => cases op <;> exact False.elim ha
    | _ => exact False.elim ha
  | rolling =>
    cases a with
    | dropToken h' n =>
      obtain rfl : h' = h := ha
      exact good_section w rfl rfl (dropToken_good n hg (.inl rfl))
    | call op => cases op <;> exact False.elim ha
    | _ => exact False.elim ha
  | committed =>
    cases a with
    | call op => cases op <;> exact False.elim ha
    | _ => exact False.elim ha

end ShiftLock.Coord
