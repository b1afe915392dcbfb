import ShiftLock.Audit.Store
import ShiftLock.Security.Signing
import ShiftLock.Hash.Chain

/-!
# Verification of an audit log (`VerifyRecords` in `audit/audit.go`, `security/signing/signing.go`)

`VerifyRecords` with its findings and `VerifyBytes` with its errors. SHA-256 over the canonical JSON,
`ed25519.Verify` and the verb `%q` are parameters (`Verifier`); `clock` gives the readings of the
clock that `VerifyBytes` takes for a record without a time.

`verifyRecords_ok` says when a list of records is accepted: they are numbered from 1, linked by their
hashes, hashed as `hashBody` does, dated, of different operation IDs, and whatever signature there is
verifies.
-/

namespace ShiftLock.Audit

open Function Signing
open Json (utf8)

/-- SHA-256 over `signing.CanonicalJSON`, `ed25519.Verify` with a public key, a payload and a
signature, and the verb `%q`. -/
structure Verifier where
  hash : AuditBody → Except String Digest
  verify : Bytes → Bytes → Bytes → Bool
  quote : Bytes → String

/-- The text of an error of the package `signing`. -/
def errorText (v : Verifier) : Signing.Error → String
  | .unknownKey => "signing: unknown key id"
  | .expiredKey => "signing: key expired"
  | .invalidSig => "signing: invalid signature"
  | .emptyPayload => "signing: empty payload"
  | .duplicateKeyID => "signing: duplicate key id"
  | .invalidLength => "signing: invalid public key length"
  | .unsupportedAlgorithm algorithm => "signing: unsupported algorithm " ++ v.quote (utf8 algorithm)

/-! ## Findings -/

inductive FindingCode where
  | sequenceGap
  | sequenceMismatch
  | chainBroken
  | mutationOrRemoval
  | hashError
  | mutation
  | badTimestamp
  | duplicateOpID
  | unknownKey
  | invalidSignature
  | removal
  deriving DecidableEq, Repr

def FindingCode.text : FindingCode → String
  | .sequenceGap => "sequence_gap"
  | .sequenceMismatch => "sequence_mismatch"
  | .chainBroken => "chain_broken"
  | .mutationOrRemoval => "mutation_or_removal"
  | .hashError => "hash_error"
  | .mutation => "mutation"
  | .badTimestamp => "bad_timestamp"
  | .duplicateOpID => "duplicate_op_id"
  | .unknownKey => "unknown_key"
  | .invalidSignature => "invalid_signature"
  | .removal => "removal"

structure Finding where
  code : FindingCode
  sequence : UInt64
  message : String
  deriving DecidableEq, Repr

/-- The order in which the findings are sorted. -/
def Finding.less (f g : Finding) : Bool :=
  if f.sequence = g.sequence then decide (f.code.text < g.code.text)
  else decide (f.sequence < g.sequence)

structure Report where
  ok : Bool
  records : Nat
  findings : List Finding

/-! ## VerifyRecords -/

/-- What the loop of `VerifyRecords` keeps. -/
structure Scan where
  ok : Bool := true
  findings : List Finding := []
  seenOps : Bytes → Option UInt64 := fun _ => none
  expectPrev : Digest := zeroDigest
  expectSeq : UInt64 := 1

def Scan.flag (s : Scan) : Option Finding → Scan
  | none => s
  | some f => { s with ok := false, findings := s.findings ++ [f] }

section Checks

variable (v : Verifier) (keys : Option TrustedKeys)

def checkSequence (expectSeq : UInt64) (r : Record) : Option Finding :=
  if r.sequence = expectSeq then none
  else if expectSeq < r.sequence then
    some ⟨.sequenceGap, r.sequence,
      "expected sequence " ++ toString expectSeq.toNat ++ ", got " ++ toString r.sequence.toNat
        ++ " (possible removal)"⟩
  else
    some ⟨.sequenceMismatch, r.sequence,
      "expected sequence " ++ toString expectSeq.toNat ++ ", got " ++ toString r.sequence.toNat⟩

/-- The hash that the record points to; `i` is its index. -/
def checkPrevious (i : Nat) (expectPrev : Digest) (r : Record) : Option Finding :=
  if r.previousHash = expectPrev then none
  else some ⟨if 0 < i then .mutationOrRemoval else .chainBroken, r.sequence,
    "previous_hash does not match prior record_hash"⟩

def checkHash (r : Record) : Option Finding :=
  match v.hash r.body with
  | .error text => some ⟨.hashError, r.sequence, text⟩
  | .ok want =>
    if want = r.recordHash then none
    else some ⟨.mutation, r.sequence, "record_hash does not match canonical body"⟩

def checkTime (r : Record) : Option Finding :=
  if r.time = 0 then some ⟨.badTimestamp, r.sequence, "audit: invalid timestamp"⟩ else none

def checkOp (seenOps : Bytes → Option UInt64) (r : Record) : Option Finding :=
  if r.operationID = [] then none
  else
    match seenOps r.operationID with
    | some prev => some ⟨.duplicateOpID, r.sequence,
        "operation_id " ++ v.quote r.operationID ++ " also at sequence " ++ toString prev.toNat⟩
    | none => none

/-- The signature that `VerifyRecords` makes of a record. -/
def Record.sig (r : Record) : Signature where
  keyID := r.keyID
  algorithm := "ed25519"
  version := 1
  signedAt := r.time
  sig := r.signature

/-- The ring is nil or empty. -/
def noKeys (keys : Option TrustedKeys) : Bool := keys.all fun trusted => trusted.len = 0

def checkSignature (now : Time) (r : Record) : Option Finding :=
  if r.signature.length = 0 then none
  else if noKeys keys then some ⟨.unknownKey, r.sequence, "audit: unknown signing key"⟩
  else
    match verifyBytes v.verify now (keys.map (·.ring)) r.recordHash.val r.sig with
    | none => none
    | some err =>
      some ⟨if err = .unknownKey then .unknownKey else .invalidSignature, r.sequence, errorText v err⟩

/-- One round of the loop of `VerifyRecords`. -/
def Scan.record (now : Time) (i : Nat) (s : Scan) (r : Record) : Scan :=
  { [checkSequence s.expectSeq r, checkPrevious i s.expectPrev r, checkHash v r, checkTime r,
      checkOp v s.seenOps r, checkSignature v keys now r].foldl Scan.flag s with
    seenOps := if r.operationID = [] then s.seenOps
      else Function.update s.seenOps r.operationID (some r.sequence)
    expectPrev := r.recordHash
    expectSeq := r.sequence + 1 }

/-- The loop of `VerifyRecords` from record `i` on. -/
def scanRecords (clock : Nat → Time) : Nat → Scan → List Record → Scan
  | _, s, [] => s
  | i, s, r :: recs => scanRecords clock (i + 1) (s.record v keys (clock i) i r) recs

def checkStart : List Record → Option Finding
  | [] => none
  | r :: _ =>
    if r.sequence = 1 then none
    else some ⟨.removal, r.sequence, "chain does not start at sequence 1"⟩

def verifyRecords (clock : Nat → Time) (recs : List Record) : Report :=
  if recs.length = 0 then { ok := true, records := recs.length, findings := [] }
  else
    let s := (scanRecords v keys clock 0 {} recs).flag (checkStart recs)
    { ok := s.ok
      records := recs.length
      -- `sort.SliceStable`
      findings := s.findings.mergeSort fun f g => !g.less f }

end Checks

/-! ## When a list is accepted -/

def Record.SignedIn (v : Verifier) (keys : Option TrustedKeys) (r : Record) : Prop :=
  ∃ trusted k, keys = some trusted ∧ trusted.ring.lookup r.keyID = some k ∧ k.validAt r.time = true ∧
    v.verify k.key r.recordHash.val r.signature = true

def operationIDs (l : List Record) : List Bytes := (l.map (·.operationID)).filter (· ≠ [])

/-- The records continue a log whose last hash is `prev`, whose next number is `seq` and in which the
operation IDs `seen` are taken. -/
structure VerifiedFrom (v : Verifier) (keys : Option TrustedKeys) (prev : Digest) (seq : UInt64)
    (seen : Bytes → Option UInt64) (l : List Record) : Prop where
  numbered : ∀ i r, l[i]? = some r → r.sequence = seq + UInt64.ofNat i
  linked : HashChain.Linked (·.previousHash) (·.recordHash) prev l
  hashed : ∀ r ∈ l, v.hash r.body = .ok r.recordHash
  timed : ∀ r ∈ l, r.time ≠ 0
  operations : (operationIDs l).Nodup
  unseen : ∀ id ∈ operationIDs l, seen id = none
  signed : ∀ r ∈ l, r.signature = [] ∨ r.SignedIn v keys

/-- The records are those of a whole log. -/
abbrev Verified (v : Verifier) (keys : Option TrustedKeys) (l : List Record) : Prop :=
  VerifiedFrom v keys zeroDigest 1 (fun _ => none) l

/-- A record continues the log that was read. -/
structure Scan.Passes (v : Verifier) (keys : Option TrustedKeys) (s : Scan) (r : Record) : Prop where
  sequence : r.sequence = s.expectSeq
  previous : r.previousHash = s.expectPrev
  hash : v.hash r.body = .ok r.recordHash
  time : r.time ≠ 0
  operation : r.operationID = [] ∨ s.seenOps r.operationID = none
  signature : r.signature = [] ∨ r.SignedIn v keys

variable {v : Verifier} {keys : Option TrustedKeys} {s : Scan} {r : Record} {l : List Record}

@[simp] theorem Scan.flag_ok (s : Scan) (f : Option Finding) :
    (s.flag f).ok = (s.ok && f.isNone) := by
  cases f <;> simp [flag]

theorem checkHash_eq_none : checkHash v r = none ↔ v.hash r.body = .ok r.recordHash := by
  unfold checkHash
  cases v.hash r.body with
  | error text | ok want => simp

theorem checkOp_eq_none {seen : Bytes → Option UInt64} :
    checkOp v seen r = none ↔ r.operationID = [] ∨ seen r.operationID = none := by
  unfold checkOp
  by_cases hid : r.operationID = []
  · simp [hid]
  · cases seen r.operationID <;> simp [hid]

/-- `VerifyBytes` accepts the signature of a record with a time if its key does. -/
theorem verifyBytes_eq_none (htime : r.time ≠ 0) (now : Time) :
    verifyBytes v.verify now (keys.map (·.ring)) r.recordHash.val r.sig = none ↔ r.SignedIn v keys := by
  have hpayload : r.recordHash.val ≠ [] := by
    intro hnil
    simpa [hnil] using r.recordHash.property
  cases keys with
  | none => simp [verifyBytes, Record.SignedIn]
  | some trusted =>
    simp only [verifyBytes, hpayload, Record.sig, htime, Record.SignedIn, if_false, Option.map_some,
      algorithmEd25519]
    cases hk : trusted.ring.lookup r.keyID with
    | none => simp [hk]
    | some k => cases hvalid : k.validAt r.time <;> simp [hk, hvalid]

theorem checkSignature_eq_none (htime : r.time ≠ 0) (now : Time) :
    checkSignature v keys now r = none ↔ r.signature = [] ∨ r.SignedIn v keys := by
  unfold checkSignature
  by_cases hsig : r.signature = []
  · simp [hsig]
  have hlen : r.signature.length ≠ 0 := by simpa using hsig
  rw [if_neg hlen]
  by_cases hkeys : noKeys keys = true
  · -- an empty ring has no key to verify with
    have hnot : ¬ r.SignedIn v keys := by
      rintro ⟨trusted, k, rfl, hk, -, -⟩
      have hempty : trusted.len = 0 := by simpa [noKeys] using hkeys
      rw [trusted.len_eq_zero.mp hempty] at hk
      cases hk
    simp [hkeys, hsig, hnot]
  · rw [if_neg hkeys]
    cases h : verifyBytes v.verify now (keys.map (·.ring)) r.recordHash.val r.sig with
    | none => simp [(verifyBytes_eq_none htime now).mp h]
    | some err =>
      have hnot : ¬ r.SignedIn v keys := fun hr => by
        rw [(verifyBytes_eq_none htime now).mpr hr] at h
        cases h
      simp [hsig, hnot]

theorem Scan.record_ok (now : Time) (i : Nat) :
    (s.record v keys now i r).ok = true ↔ s.ok = true ∧ s.Passes v keys r := by
  have hsequence : checkSequence s.expectSeq r = none ↔ r.sequence = s.expectSeq := by
    unfold checkSequence
    split
    · simp_all
    · split <;> simp_all
  have hprevious : checkPrevious i s.expectPrev r = none ↔ r.previousHash = s.expectPrev := by
    simp [checkPrevious]
  have htime : checkTime r = none ↔ r.time ≠ 0 := by simp [checkTime]
  simp only [record, List.foldl, flag_ok, Bool.and_eq_true, Option.isNone_iff_eq_none,
    hsequence, hprevious, htime, checkHash_eq_none, checkOp_eq_none]
  constructor
  · rintro ⟨⟨⟨⟨⟨⟨hok, h1⟩, h2⟩, h3⟩, h4⟩, h5⟩, h6⟩
    exact ⟨hok, h1, h2, h3, h4, h5, (checkSignature_eq_none h4 now).mp h6⟩
  · rintro ⟨hok, h⟩
    exact ⟨⟨⟨⟨⟨⟨hok, h.1⟩, h.2⟩, h.3⟩, h.4⟩, h.5⟩, (checkSignature_eq_none h.4 now).mpr h.6⟩

theorem operationIDs_cons :
    operationIDs (r :: l) = if r.operationID = [] then operationIDs l
      else r.operationID :: operationIDs l := by
  by_cases h : r.operationID = [] <;> simp [operationIDs, h]

theorem add_ofNat_succ (x : UInt64) (i : Nat) :
    x + UInt64.ofNat (i + 1) = x + 1 + UInt64.ofNat i := by
  rw [UInt64.ofNat_add, UInt64.add_assoc, UInt64.add_comm (UInt64.ofNat i)]
  rfl

theorem verifiedFrom_nil {prev : Digest} {seq : UInt64} {seen : Bytes → Option UInt64} :
    VerifiedFrom v keys prev seq seen [] :=
  ⟨by simp, trivial, by simp, by simp, by simp [operationIDs], by simp [operationIDs], by simp⟩

/-- The rest of the log after a record that continues it. -/
theorem verifiedFrom_cons :
    VerifiedFrom v keys s.expectPrev s.expectSeq s.seenOps (r :: l) ↔
      s.Passes v keys r ∧
        VerifiedFrom v keys r.recordHash (r.sequence + 1)
          (if r.operationID = [] then s.seenOps
            else update s.seenOps r.operationID (some r.sequence)) l := by
  constructor
  · intro h
    have hseq : r.sequence = s.expectSeq := by simpa using h.numbered 0 r rfl
    obtain ⟨hops, hunseen⟩ : (r.operationID = [] ∨ s.seenOps r.operationID = none) ∧
        ∀ id ∈ operationIDs l, (if r.operationID = [] then s.seenOps
          else update s.seenOps r.operationID (some r.sequence)) id = none := by
      have hnodup := h.operations
      have hseen := h.unseen
      rw [operationIDs_cons] at hnodup hseen
      by_cases hid : r.operationID = []
      · simp only [hid, if_true] at hseen ⊢
        exact ⟨.inl trivial, hseen⟩
      · simp only [hid, if_false, List.nodup_cons, List.mem_cons, forall_eq_or_imp] at hnodup hseen ⊢
        refine ⟨.inr hseen.1, fun id hmem => ?_⟩
        have hne : id ≠ r.operationID := fun heq => hnodup.1 (heq ▸ hmem)
        rw [update_of_ne hne]
        exact hseen.2 id hmem
    refine ⟨⟨hseq, h.linked.1, h.hashed r (by simp), h.timed r (by simp), hops, h.signed r (by simp)⟩,
      ⟨fun i r' hr' => ?_, h.linked.2, fun r' hr' => h.hashed r' (by simp [hr']),
        fun r' hr' => h.timed r' (by simp [hr']), ?_, hunseen,
        fun r' hr' => h.signed r' (by simp [hr'])⟩⟩
    · rw [h.numbered (i + 1) r' (by simpa using hr'), hseq, add_ofNat_succ]
    · have hnodup := h.operations
      rw [operationIDs_cons] at hnodup
      split at hnodup
      · exact hnodup
      · exact (List.nodup_cons.mp hnodup).2
  · rintro ⟨hr, h⟩
    refine ⟨fun i r' hr' => ?_, ⟨hr.previous, h.linked⟩, ?_, ?_, ?_, ?_, ?_⟩
    · cases i with
      | zero =>
        obtain rfl : r = r' := by simpa using hr'
        simpa using hr.sequence
      | succ i => rw [h.numbered i r' (by simpa using hr'), hr.sequence, add_ofNat_succ]
    · simpa using ⟨hr.hash, h.hashed⟩
    · simpa using ⟨hr.time, h.timed⟩
    · rw [operationIDs_cons]
      split
      · exact h.operations
      · rename_i hid
        refine List.nodup_cons.mpr ⟨fun hmem => ?_, h.operations⟩
        have htaken := h.unseen _ hmem
        simp [hid] at htaken
    · intro id hmem
      rw [operationIDs_cons] at hmem
      by_cases hid : r.operationID = []
      · have hseen := h.unseen id (by simpa [hid] using hmem)
        simpa [hid] using hseen
      · rw [if_neg hid, List.mem_cons] at hmem
        by_cases heq : id = r.operationID
        · rw [heq]
          exact hr.operation.resolve_left hid
        · have hseen := h.unseen id (hmem.resolve_left heq)
          rwa [if_neg hid, update_of_ne heq] at hseen
    · simpa using ⟨hr.signature, h.signed⟩

theorem scanRecords_ok (clock : Nat → Time) (i : Nat) :
    (scanRecords v keys clock i s l).ok = true ↔
      s.ok = true ∧ VerifiedFrom v keys s.expectPrev s.expectSeq s.seenOps l := by
  induction l generalizing i s with
  | nil => simp [scanRecords, verifiedFrom_nil]
  | cons r l ih =>
    rw [scanRecords, ih, Scan.record_ok, verifiedFrom_cons, and_assoc]
    rfl

/-- **The records that `VerifyRecords` accepts.** -/
theorem verifyRecords_ok (clock : Nat → Time) :
    (verifyRecords v keys clock l).ok = true ↔ Verified v keys l := by
  unfold verifyRecords
  cases l with
  | nil => simp [verifiedFrom_nil]
  | cons r l =>
    have hstart : Verified v keys (r :: l) → checkStart (r :: l) = none := fun h => by
      have hone : r.sequence = 1 := by simpa using h.numbered 0 r rfl
      simp [checkStart, hone]
    simp only [List.length_cons, Nat.succ_ne_zero, if_false, Scan.flag_ok, Bool.and_eq_true,
      Option.isNone_iff_eq_none, scanRecords_ok, true_and]
    exact ⟨fun h => h.1, fun h => ⟨h, hstart h⟩⟩

end ShiftLock.Audit
