import ShiftLock.Capability.Authority
import ShiftLock.Conc.Run
import Mathlib.Order.Lattice

/-!
# Delegation (`capability/capability.go`)

What a call of `Delegate` that returns a token has done, for every authority and every choice of the
environment in each of its sections, and chains of such calls.

A permission stands for the set of permissions that it grants (`Grants`); `permissionReduces` decides
it, and it is transitive along a chain. `Delegate` compares permissions and resources and copies the
constraints of the request, so that a child narrows its parent exactly when the request is at least
as strict (`delegate_narrows`). The lifetime is computed from one reading of a clock and added to
another one (`delegate_in_time`).
-/

namespace ShiftLock.Capability

open Conc

/-- What the environment fixes for one section: the keys and the world. -/
abbrev Choice := Crypto × Env

/-- The meaning of an action under a choice. -/
abbrev execWith (act : Act) (e : Choice) (a : Authority) : Authority × act.Answer := exec e.1 act e.2 a

/-! ## The sections -/

namespace Authority

variable {a : Authority} {c : Crypto} {e : Env} {t t' parent child : Token} {req req' : Request}

theorem verifyUses_false (a : Authority) (t : Token) : (a.verifyUses t false).1 = a := by
  unfold verifyUses
  split
  · split <;> rfl
  split
  · split <;> rfl
  · rfl

theorem verifyLocked_false (a : Authority) (c : Crypto) (e : Env) (t : Token) :
    (a.verifyLocked c e t false).1 = a := by
  unfold verifyLocked
  split
  · rfl
  split
  · rfl
  split
  · rfl
  split
  · rfl
  · exact a.verifyUses_false t

theorem issue_same (a : Authority) (c : Crypto) (e : Env) (req : Request) :
    (a.issue c e req).1 = { a with issued := (a.issue c e req).1.issued } := by
  unfold issue
  split
  · rfl
  split
  · rfl
  · split <;> rfl

theorem adopt_same (a : Authority) (c : Crypto) (parent child : Token) :
    (a.adopt c parent child).1 = { a with issued := (a.adopt c parent child).1.issued } := by
  unfold adopt
  split <;> rfl

theorem signLocked_ok (h : a.signLocked c t = .ok t') :
    t'.body = t.body ∧ (a.signer = true → c.sign t.body = .ok (t'.signature, t'.keyID)) := by
  unfold signLocked at h
  split at h
  · split at h
    · cases h
    · rename_i sig hsig
      cases h
      exact ⟨rfl, fun _ => hsig⟩
  · rename_i hsigner
    cases h
    exact ⟨rfl, fun hs => absurd hs hsigner⟩

theorem issue_ok (h : (a.issue c e req).2 = .ok t) :
    (∃ nonce id, e.random = .ok (nonce, id) ∧ t.body = (a.draft e req nonce id).body) ∧
      (a.signer = true → c.sign t.body = .ok (t.signature, t.keyID)) := by
  unfold issue at h
  split at h
  · cases h
  split at h
  · cases h
  rename_i nonce id hrandom
  split at h
  · cases h
  · rename_i t' hsign
    cases h
    obtain ⟨hbody, hkey⟩ := signLocked_ok hsign
    exact ⟨⟨nonce, id, hrandom, hbody⟩, fun hs => hbody ▸ hkey hs⟩

theorem adopt_ok (h : (a.adopt c parent child).2 = .ok t) :
    t.body = ({ child with parentID := parent.id, epoch := parent.epoch } : Token).body ∧
      (a.signer = true → c.sign t.body = .ok (t.signature, t.keyID)) := by
  unfold adopt at h
  split at h
  · cases h
  · rename_i t' hsign
    cases h
    obtain ⟨hbody, hkey⟩ := signLocked_ok hsign
    exact ⟨hbody, fun hs => hbody ▸ hkey hs⟩

end Authority

/-! ## A delegation that returns a token -/

section

variable {es : Nat → Choice} {a : Authority} {parent child : Token} {req : Request}

open Conc.Prog in
/-- What `Delegate` has done when it returns a token: the parent passed the checks, and the child is
the token of the narrowed request, under the parent's epoch. -/
theorem delegate_ok (h : (run execWith es (delegate parent req) 0 a).2.1 = .ok child) :
    (a.verifyLocked (es 0).1 (es 0).2 parent false).2 = none ∧
    (∃ req' nonce id, Authority.narrow (es 1).2 parent req = .ok req' ∧
      child.body = ({ a.draft (es 2).2 req' nonce id with
        parentID := parent.id, epoch := parent.epoch } : Token).body) ∧
    (a.signer = true → (es 3).1.sign child.body = .ok (child.signature, child.keyID)) := by
  have hsame := a.verifyLocked_false (es 0).1 (es 0).2 parent
  simp only [delegate, perform, perform_bind, run, exec] at h
  split at h
  · cases h
  rename_i hverify
  simp only [run, exec] at h
  split at h
  · cases h
  rename_i req' hnarrow
  simp only [run, exec, hsame] at h
  split at h
  · cases h
  rename_i issued hissue
  simp only [Prog.perform, run, exec] at h
  obtain ⟨⟨nonce, id, hrandom, hdraft⟩, _⟩ := Authority.issue_ok hissue
  obtain ⟨hbody, hkey⟩ := Authority.adopt_ok h
  refine ⟨hverify, ⟨req', nonce, id, hnarrow, ?_⟩, fun hs => hkey ?_⟩
  · have hadopt := congrArg (fun b : Token => { b with parentID := parent.id, epoch := parent.epoch })
      hdraft
    exact hbody.trans hadopt
  · rw [Authority.issue_same]
    exact hs

open Conc.Prog in
/-- `Delegate` changes the table of issued tokens only. -/
theorem delegate_same (es : Nat → Choice) (a : Authority) (parent : Token) (req : Request) :
    ∃ issued, (run execWith es (delegate parent req) 0 a).1 = { a with issued } := by
  have hsame := a.verifyLocked_false (es 0).1 (es 0).2 parent
  simp only [delegate, perform, perform_bind, run, exec]
  split
  · exact ⟨a.issued, hsame⟩
  simp only [run, exec]
  split
  · exact ⟨a.issued, hsame⟩
  rename_i req' _
  simp only [run, exec, hsame]
  split
  · exact ⟨_, a.issue_same _ _ req'⟩
  · simp only [Prog.perform, run, exec]
    rw [Authority.adopt_same, Authority.issue_same]
    exact ⟨_, rfl⟩

end

/-! ## What a permission grants -/

/-- The permission `c` is granted by `p`: it is `p`, or `p` is a wildcard `q.*` and `c` is a
permission without wildcard that starts with `q.`. -/
def Grants (p c : String) : Prop :=
  c = p ∨ ∃ q, p.toList = q ++ ['.', '*'] ∧ q ++ ['.'] <+: c.toList ∧ '*' ∉ c.toList

theorem permissionReduces_iff (p c : String) : Authority.permissionReduces p c = true ↔ Grants p c := by
  unfold Authority.permissionReduces Grants
  split
  · rename_i heq
    simp [heq]
  rename_i hne
  have hne' : c ≠ p := fun h => hne h.symm
  have htake : ∀ q : List Char, (q ++ ['.', '*']).take ((q ++ ['.', '*']).length - 1) = q ++ ['.'] := by
    intro q
    simp [List.take_append, List.take_of_length_le]
  split
  · rename_i hsuffix
    obtain ⟨q, hq⟩ := List.isSuffixOf_iff_suffix.mp hsuffix
    rw [← hq, htake]
    simp [hne', List.isPrefixOf_iff_prefix]
  · rename_i hsuffix
    have hno : ∀ q, p.toList ≠ q ++ ['.', '*'] := by
      intro q hq
      exact hsuffix (List.isSuffixOf_iff_suffix.mpr ⟨q, hq.symm⟩)
    simp [hne', hno]

theorem Grants.trans {p q c : String} (h : Grants p q) (h' : Grants q c) : Grants p c := by
  rcases h with rfl | ⟨r, hp, hr, hstar⟩
  · exact h'
  rcases h' with rfl | ⟨r', hq, _, _⟩
  · exact .inr ⟨r, hp, hr, hstar⟩
  · -- A permission that a wildcard grants is not a wildcard itself.
    rw [hq] at hstar
    simp at hstar

/-- Everything that `q` grants is granted by `p`. -/
def Covers (p q : String) : Prop := ∀ c, Grants q c → Grants p c

/-! ## The order of tokens -/

/-- The constraints `c` are at least as strict as `p`. -/
structure Constraints.Stricter (c p : Constraints) : Prop where
  singleUse : p.singleUse = true → c.singleUse = true
  maxUses : 0 < p.maxUses → 0 < c.maxUses ∧ c.maxUses ≤ p.maxUses
  environment : p.environment ≠ "" → c.environment = p.environment
  allowedResources : p.allowedResources ≠ [] →
    c.allowedResources ≠ [] ∧ c.allowedResources ⊆ p.allowedResources

theorem Constraints.Stricter.refl (c : Constraints) : c.Stricter c :=
  ⟨id, fun h => ⟨h, Int.le_refl _⟩, fun _ => rfl, fun h => ⟨h, List.Subset.refl _⟩⟩

theorem Constraints.Stricter.trans {c d p : Constraints} (h : c.Stricter d) (h' : d.Stricter p) :
    c.Stricter p where
  singleUse hp := h.singleUse (h'.singleUse hp)
  maxUses hp :=
    have hd := h'.maxUses hp
    ⟨(h.maxUses hd.1).1, Int.le_trans (h.maxUses hd.1).2 hd.2⟩
  environment hp := by
    have hd := h'.environment hp
    rw [h.environment (hd ▸ hp), hd]
  allowedResources hp :=
    have hd := h'.allowedResources hp
    ⟨(h.allowedResources hd.1).1, List.Subset.trans (h.allowedResources hd.1).2 hd.2⟩

/-- The token `child` grants no more than `parent`. -/
structure Narrows (child parent : Token) : Prop where
  permission : Covers parent.permission child.permission
  resource : parent.resource ≠ "" → child.resource = parent.resource
  constraints : child.constraints.Stricter parent.constraints

theorem Narrows.refl (t : Token) : Narrows t t :=
  ⟨fun _ => id, fun _ => rfl, .refl _⟩

theorem Narrows.trans {t u v : Token} (h : Narrows t u) (h' : Narrows u v) : Narrows t v where
  permission c hc := h'.permission c (h.permission c hc)
  resource hv := by
    have hu := h'.resource hv
    rw [h.resource (hu ▸ hv), hu]
  constraints := h.constraints.trans h'.constraints

/-! ## The narrowed request -/

/-- The request lives no longer than the parent if it is issued at `issued`: `checked` is the clock at
the comparison of the lifetimes, and `left` the one of `time.Until`. -/
def InTime (parent : Token) (ttl : Duration) (checked left issued : Time) : Prop :=
  (0 < ttl ∧ issued + ttl ≤ parent.expiresAt) ∨
  ((ttl ≤ 0 ∨ parent.expiresAt < checked + ttl) ∧
    (issued ≤ left ∨ issued + maxDuration ≤ parent.expiresAt))

section

variable {e : Env} {parent : Token} {req req' : Request}

theorem narrow_scope (h : Authority.narrow e parent req = .ok req') :
    Grants parent.permission req'.permission ∧
    (parent.resource ≠ "" → req'.resource = parent.resource) ∧ req'.constraints = req.constraints := by
  unfold Authority.narrow at h
  split at h
  · cases h
  rename_i hperm
  split at h
  · cases h
  rename_i hres
  have hgrants : Grants parent.permission req.permission := by
    simpa [← permissionReduces_iff] using hperm
  have hresource : parent.resource ≠ "" →
      (if parent.resource ≠ "" ∧ req.resource = "" then parent.resource else req.resource) =
        parent.resource := by
    intro hne
    by_cases hempty : req.resource = ""
    · simp [hne, hempty]
    · simp only [hempty, and_false, if_false]
      by_contra hdiff
      exact hres ⟨hne, hempty, Ne.symm hdiff⟩
  simp only at h
  split at h
  · split at h
    · cases h
    · cases h
      exact ⟨hgrants, hresource, rfl⟩
  · cases h
    exact ⟨hgrants, hresource, rfl⟩

/-- The lifetime that is cut to what is left of the parent's. -/
theorem clamped_le {exp ttl checked left big : Int} (hclamp : ttl ≤ 0 ∨ exp < checked + ttl) (now : Int) :
    now + (if ttl ≤ 0 ∨ min (exp - left) big < ttl then min (exp - left) big else ttl) ≤ exp ↔
      (0 < ttl ∧ now + ttl ≤ exp) ∨
      ((ttl ≤ 0 ∨ exp < checked + ttl) ∧ (now ≤ left ∨ now + big ≤ exp)) := by
  have hmin : now + min (exp - left) big ≤ exp ↔ now ≤ left ∨ now + big ≤ exp := by omega
  split <;> omega

theorem narrow_ttl (h : Authority.narrow e parent req = .ok req') :
    0 < req'.ttl ∧
    ∀ now, now + req'.ttl ≤ parent.expiresAt ↔ InTime parent req.ttl e.now e.wall now := by
  unfold Authority.narrow at h
  split at h
  · cases h
  split at h
  · cases h
  simp only at h
  split at h
  · rename_i hclamp
    split at h
    · cases h
    rename_i hleft
    cases h
    refine ⟨?_, fun now => clamped_le hclamp now⟩
    simp only
    split
    · exact Int.not_le.mp hleft
    · rename_i httl
      exact Int.not_le.mp fun h => httl (.inl h)
  · rename_i hfits
    cases h
    have hpos : 0 < req.ttl := Int.not_le.mp fun h => hfits (.inl h)
    refine ⟨hpos, fun now => ⟨fun h => .inl ⟨hpos, h⟩, ?_⟩⟩
    rintro (hin | hclamp)
    · exact hin.2
    · exact absurd hclamp.1 hfits

end

/-! ## Chains of delegations -/

/-- One call of `Delegate`: the authority as it is then, and the environment in each section. -/
structure Link where
  req : Request
  authority : Authority
  choices : Nat → Choice

/-- What the call returns. -/
def Link.child (l : Link) (parent : Token) : Except Error Token :=
  (Conc.Prog.run execWith l.choices (delegate parent l.req) 0 l.authority).2.1

/-- The child lives no longer than the parent, by the readings of the clocks in the call. -/
def Link.InTime (l : Link) (parent : Token) : Prop :=
  Capability.InTime parent l.req.ttl (l.choices 1).2.now (l.choices 1).2.wall (l.choices 2).2.now

/-- One delegation of what the chain has returned so far. -/
def delegateNext (r : Except Error Token) (l : Link) : Except Error Token := r.bind l.child

/-- The token after `i` delegations, each of the token before. -/
abbrev tokenAt (root : Token) (ls : List Link) (i : Nat) : Except Error Token :=
  Conc.Run.stateAt delegateNext (.ok root) ls i

section

variable {l : Link} {ls : List Link} {root parent child : Token}

theorem Link.narrows_iff (h : l.child parent = .ok child) :
    Narrows child parent ↔ l.req.constraints.Stricter parent.constraints := by
  obtain ⟨_, ⟨req', nonce, id, hnarrow, hbody⟩, _⟩ := delegate_ok h
  obtain ⟨hgrants, hresource, hcons⟩ := narrow_scope hnarrow
  have hpermission : child.permission = req'.permission := congrArg Token.permission hbody
  have hres : child.resource = req'.resource := congrArg Token.resource hbody
  have hconstraints : child.constraints = req'.constraints := congrArg Token.constraints hbody
  rw [← hcons, ← hconstraints]
  refine ⟨fun h => h.constraints, fun h => ⟨fun c hc => ?_, fun hne => ?_, h⟩⟩
  · exact hgrants.trans (hpermission ▸ hc)
  · exact hres.trans (hresource hne)

theorem Link.expires_iff (h : l.child parent = .ok child) :
    child.expiresAt ≤ parent.expiresAt ↔ l.InTime parent := by
  obtain ⟨_, ⟨req', nonce, id, hnarrow, hbody⟩, _⟩ := delegate_ok h
  obtain ⟨hpos, hle⟩ := narrow_ttl hnarrow
  have hexpires : child.expiresAt = (l.choices 2).2.now + req'.ttl := by
    have hdraft := congrArg Token.expiresAt hbody
    simp only [Token.body, Authority.draft, if_neg (Int.not_le.mpr hpos)] at hdraft
    exact hdraft
  rw [hexpires]
  exact hle _

theorem tokenAt_succ {i : Nat} (hl : ls[i]? = some l) (hparent : tokenAt root ls i = .ok parent)
    (hchild : tokenAt root ls (i + 1) = .ok child) : l.child parent = .ok child := by
  rw [tokenAt] at hparent
  rw [tokenAt, Run.stateAt_succ hl, hparent] at hchild
  exact hchild

/-- A preorder that holds along every link of a part of the chain relates its ends. -/
theorem tokenAt_related {R : Token → Token → Prop} (hrefl : ∀ t, R t t)
    (htrans : ∀ t u v, R t u → R u v → R t v) {i j : Nat} (hij : i ≤ j)
    (hparent : tokenAt root ls i = .ok parent) (hchild : tokenAt root ls j = .ok child)
    (hlinks : ∀ k l t u, i ≤ k → k < j → ls[k]? = some l → tokenAt root ls k = .ok t →
      l.child t = .ok u → R u t) : R child parent := by
  refine Run.kept (I := fun r : Except Error Token => ∀ t, r = .ok t → R t parent) ?_ hij ?_
    child hchild
  · intro t ht
    obtain rfl : parent = t := Except.ok.inj (hparent.symm.trans ht)
    exact hrefl _
  · intro k l hik hkj hl hkept u hu
    cases ht : Run.stateAt delegateNext (.ok root) ls k with
    | error err =>
      rw [ht] at hu
      cases hu
    | ok t =>
      rw [ht] at hu
      exact htrans _ _ _ (hlinks k l t u hik hkj hl ht hu) (hkept t ht)

end

/-- A child narrows its parent exactly when the request's constraints are at least as strict as the
parent's; so when they are along a part of a chain, its last token narrows its first. -/
theorem delegate_narrows (root : Token) (ls : List Link) :
    (∀ i l t u, ls[i]? = some l → tokenAt root ls i = .ok t → tokenAt root ls (i + 1) = .ok u →
      (Narrows u t ↔ l.req.constraints.Stricter t.constraints)) ∧
    (∀ i j t u, i ≤ j → tokenAt root ls i = .ok t → tokenAt root ls j = .ok u →
      (∀ k l v, i ≤ k → k < j → ls[k]? = some l → tokenAt root ls k = .ok v →
        l.req.constraints.Stricter v.constraints) → Narrows u t) := by
  refine ⟨fun i l t u hl ht hu => Link.narrows_iff (tokenAt_succ hl ht hu), ?_⟩
  intro i j t u hij ht hu hstrict
  refine tokenAt_related Narrows.refl (fun _ _ _ => Narrows.trans) hij ht hu ?_
  intro k l v w hik hkj hl hv hw
  exact (Link.narrows_iff hw).mpr (hstrict k l v hik hkj hl hv)

/-- The text of 16 random bytes. -/
def sampleNonce : String := "000102030405060708090a0b0c0d0e0f"

/-- A key that signs and accepts everything. -/
def sampleCrypto : Crypto where
  sign _ := .ok ([1], "k")
  verify _ _ _ := true

/-- A call of `Delegate` on a new authority, with the readings of its clocks. -/
def sampleLink (req : Request) (checked left issued : Time) : Link where
  req
  authority := {}
  choices
    | 0 => (sampleCrypto, { now := checked, wall := checked })
    | 1 => (sampleCrypto, { now := checked, wall := left })
    | _ => (sampleCrypto, { now := issued, wall := issued, random := .ok (sampleNonce, "0001020304050607") })

/-- A token that may be used once. -/
def sampleParent : Token where
  id := "p"
  subject := "s"
  permission := "claim.*"
  resource := "a"
  issuedAt := 0
  expiresAt := 10
  constraints := { singleUse := true }
  nonce := ""
  epoch := 0

/-- The child of a delegation of `sampleParent`. -/
def sampleChild (constraints : Constraints) (expiresAt : Time) : Token :=
  { sampleParent with
    id := "cap_0001020304050607", permission := "claim.release", constraints, nonce := sampleNonce
    parentID := "p", expiresAt }

theorem delegate_narrows_once :
    Narrows (sampleChild { singleUse := true } 4) sampleParent :=
  (delegate_narrows sampleParent
    [sampleLink { permission := "claim.release", ttl := 4, constraints := { singleUse := true } } 0 0 0]).2
    0 1 _ _ (by decide) rfl rfl (by
      intro k l v _ hk hl hv
      obtain rfl : k = 0 := by omega
      cases hl
      cases hv
      exact ⟨fun _ => rfl, fun h => absurd h (by decide), fun h => absurd rfl h, fun h => absurd rfl h⟩)

/-- A token for one use is delegated without the limit. -/
theorem delegate_drops_constraints :
    (sampleLink { permission := "claim.release", ttl := 4 } 0 0 0).child sampleParent =
      .ok (sampleChild {} 4) ∧ ¬ Narrows (sampleChild {} 4) sampleParent := by
  refine ⟨rfl, fun h => ?_⟩
  have := h.constraints.singleUse rfl
  cases this

/-- A child lives no longer than its parent exactly when the readings of the clocks in its call allow
it; so when they do along a part of a chain, its last token lives no longer than its first. -/
theorem delegate_in_time (root : Token) (ls : List Link) :
    (∀ i l t u, ls[i]? = some l → tokenAt root ls i = .ok t → tokenAt root ls (i + 1) = .ok u →
      (u.expiresAt ≤ t.expiresAt ↔ l.InTime t)) ∧
    (∀ i j t u, i ≤ j → tokenAt root ls i = .ok t → tokenAt root ls j = .ok u →
      (∀ k l v, i ≤ k → k < j → ls[k]? = some l → tokenAt root ls k = .ok v → l.InTime v) →
      u.expiresAt ≤ t.expiresAt) := by
  refine ⟨fun i l t u hl ht hu => Link.expires_iff (tokenAt_succ hl ht hu), ?_⟩
  intro i j t u hij ht hu hin
  refine tokenAt_related (R := fun u t => u.expiresAt ≤ t.expiresAt) (fun _ => Int.le_refl _)
    (fun _ _ _ => Int.le_trans) hij ht hu ?_
  intro k l v w hik hkj hl hv hw
  exact (Link.expires_iff hw).mpr (hin k l v hik hkj hl hv)

theorem delegate_in_time_once :
    (sampleChild {} 4).expiresAt ≤ sampleParent.expiresAt ↔
      (sampleLink { permission := "claim.release", ttl := 4 } 0 0 0).InTime sampleParent :=
  (delegate_in_time sampleParent [sampleLink { permission := "claim.release", ttl := 4 } 0 0 0]).1
    0 _ _ _ rfl rfl rfl

/-- With the default clock, which has moved on by one between `time.Until` and `Issue`, the child of a
request without lifetime lives longer than the parent. -/
theorem delegate_outlives :
    (sampleLink { permission := "claim.release" } 0 0 1).child sampleParent =
      .ok { sampleChild {} 11 with issuedAt := 1 } ∧
    ¬ (11 : Time) ≤ sampleParent.expiresAt := ⟨rfl, by decide⟩

end ShiftLock.Capability
