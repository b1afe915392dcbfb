import ShiftLock.Audit.Chain
import Mathlib.Data.List.Forall2

/-!
# What a verified log commits to

The last hash of an accepted log fixes everything that is hashed (`tip_fixes_chain`).

A signature is checked if a record has one, and nothing says how long a log is. So somebody without
the key can cut a signed log, drop signatures, and go on with a store of their own that does not sign.
What is hashed is a text, so they can also put bytes that are no text in the place of others.
`verify_rejects_iff` says that this is all: a list is accepted exactly if it continues a beginning of
the log in this way.
-/

namespace ShiftLock.Audit

open Signing
open Json (utf8)

/-! ## Bodies -/

structure Record.Agree (r r' : Record) : Prop where
  sequence : r.sequence = r'.sequence
  previousHash : r.previousHash = r'.previousHash
  time : r.time = r'.time
  actor : r.actor = r'.actor
  action : r.action = r'.action
  resource : r.resource = r'.resource
  result : r.result = r'.result
  operationID : r.operationID = r'.operationID
  metadata : r.metadata = r'.metadata
  recordHash : r.recordHash = r'.recordHash

theorem Record.agree_iff {r r' : Record} :
    r.Agree r' ↔ (r.body, r.recordHash) = (r'.body, r'.recordHash) := by
  simp only [Prod.mk.injEq, body, AuditBody.mk.injEq]
  constructor
  · intro h
    exact ⟨⟨h.1, h.2, h.3, h.4, h.5, h.6, h.7, h.8, h.9⟩, h.10⟩
  · rintro ⟨⟨h1, h2, h3, h4, h5, h6, h7, h8, h9⟩, h10⟩
    exact ⟨h1, h2, h3, h4, h5, h6, h7, h8, h9, h10⟩

/-- The hash has no collision between the records of two lists. -/
def CollisionFree (v : Verifier) (l l' : List Record) : Prop :=
  ∀ r ∈ l, ∀ r' ∈ l', ∀ d, v.hash r.body = .ok d → v.hash r'.body = .ok d → r.body = r'.body

variable {v : Verifier} {l l' : List Record}

/-- Without collisions the hash of a record determines its body. -/
theorem CollisionFree.keyed (h : CollisionFree v l l')
    (hl : ∀ r ∈ l, v.hash r.body = .ok r.recordHash)
    (hl' : ∀ r ∈ l', v.hash r.body = .ok r.recordHash) :
    HashChain.Keyed (·.previousHash) (·.recordHash) Record.body l l' :=
  ⟨fun r hr r' hr' heq => h r hr r' hr' _ (hl r hr) (by rw [hl' r' hr']; exact congrArg _ heq.symm),
    fun _ _ h => congrArg AuditBody.previousHash h⟩

theorem agree_of_map_eq {i : Nat} {r r' : Record}
    (h : l.map (fun r => (r.body, r.recordHash)) = l'.map fun r => (r.body, r.recordHash))
    (hr : l[i]? = some r) (hr' : l'[i]? = some r') : r.Agree r' := by
  have hi := congrArg (·[i]?) h
  simp only [List.getElem?_map, hr, hr', Option.map_some, Option.some.injEq] at hi
  exact Record.agree_iff.mpr hi

/-- **The tip fixes the chain.** Two accepted logs whose last records have the same hash agree in
everything that is hashed. -/
theorem tip_fixes_chain (keys keys' : Option TrustedKeys) (clock clock' : Nat → Time)
    (hne : l ≠ []) (hne' : l' ≠ []) (hok : (verifyRecords v keys clock l).ok = true)
    (hok' : (verifyRecords v keys' clock' l').ok = true) (hfree : CollisionFree v l l')
    (hzero : ∀ r ∈ l ++ l', v.hash r.body ≠ .ok zeroDigest)
    (htip : (l.getLast hne).recordHash = (l'.getLast hne').recordHash) :
    l.length = l'.length ∧
      ∀ (i : Nat) (r r' : Record), l[i]? = some r → l'[i]? = some r' → r.Agree r' := by
  have hv := (verifyRecords_ok clock).mp hok
  have hv' := (verifyRecords_ok clock').mp hok'
  have hkeyed := hfree.keyed hv.hashed hv'.hashed
  have htips : HashChain.tip Record.recordHash zeroDigest l =
      HashChain.tip Record.recordHash zeroDigest l' := by
    simpa [HashChain.tip, List.getLast?_eq_some_getLast hne, List.getLast?_eq_some_getLast hne']
      using htip
  have hlen : l.length = l'.length := by
    refine HashChain.Linked.length_eq_of_tip hkeyed hv.linked hv'.linked ?_ ?_ htips
    · intro r hr hrz
      exact hzero r (by simp [hr]) (by rw [hv.hashed r hr]; exact congrArg _ hrz)
    · intro r hr hrz
      exact hzero r (by simp [hr]) (by rw [hv'.hashed r hr]; exact congrArg _ hrz)
  have hmap := HashChain.Linked.map_eq_of_tip hkeyed hv.linked hv'.linked hlen htips
  exact ⟨hlen, fun i r r' hr hr' => agree_of_map_eq hmap hr hr'⟩

/-- A record without its signature. -/
def Record.unsigned (r : Record) : Record := { r with signature := [], keyID := "" }

/-- The hash of a record in the sample stores. -/
def sampleHash (r : Record) : Option Digest := (Verifier.sample.hash r.body).toOption

/-- Collisions of the hash of the sample stores can be searched for. -/
theorem collisionFree_sample {l l' : List Record}
    (h : ∀ r ∈ l, ∀ r' ∈ l', sampleHash r = sampleHash r' → r.body = r'.body) :
    CollisionFree Verifier.sample l l' := by
  intro r hr r' hr' d hd hd'
  exact h r hr r' hr' (by rw [sampleHash, sampleHash, hd, hd'])

/-- The records of the sample store without their signatures. -/
def unsignedRecords : List Record := sampleRecords.map Record.unsigned

/-- The sample store with and without its signatures has one tip. -/
theorem tip_fixes_sample :
    sampleRecords ≠ unsignedRecords ∧ sampleRecords.length = unsignedRecords.length ∧
      ∀ (i : Nat) (r r' : Record), sampleRecords[i]? = some r → unsignedRecords[i]? = some r' →
        r.Agree r' := by
  have hzero : ∀ r ∈ sampleRecords ++ unsignedRecords, sampleHash r ≠ some zeroDigest := by
    decide +kernel
  exact ⟨by decide +kernel, tip_fixes_chain (some sampleKeys) none (fun _ => 0) (fun _ => 0)
    (by decide +kernel) (by decide +kernel) (by decide +kernel) (by decide +kernel)
    (collisionFree_sample (by decide +kernel)) (fun r hr h => hzero r hr (by rw [sampleHash, h]; rfl))
    (by decide +kernel)⟩

/-! ## Lists that are made without the key -/

/-- The records are numbered, linked, hashed and dated, and have different operation IDs. -/
structure Consistent (v : Verifier) (l : List Record) : Prop where
  numbered : ∀ i r, l[i]? = some r → r.sequence = 1 + UInt64.ofNat i
  linked : HashChain.Linked (·.previousHash) (·.recordHash) zeroDigest l
  hashed : ∀ r ∈ l, v.hash r.body = .ok r.recordHash
  timed : ∀ r ∈ l, r.time ≠ 0
  operations : (operationIDs l).Nodup

theorem verified_iff {keys : Option TrustedKeys} :
    Verified v keys l ↔ Consistent v l ∧ ∀ r ∈ l, r.signature = [] ∨ r.SignedIn v keys := by
  constructor
  · intro h
    exact ⟨⟨h.numbered, h.linked, h.hashed, h.timed, h.operations⟩, h.signed⟩
  · rintro ⟨h, hsigned⟩
    exact ⟨h.numbered, h.linked, h.hashed, h.timed, h.operations, fun _ _ => rfl, hsigned⟩

theorem forall₂_iff_map_eq {β : Type} {R : Record → Record → Prop} {f : Record → β}
    (h : ∀ r r', R r r' ↔ f r = f r') : List.Forall₂ R l l' ↔ l.map f = l'.map f := by
  have hR : R = fun r r' => f r = f r' := by
    funext r r'
    exact propext (h r r')
  rw [hR, ← List.forall₂_eq_eq_eq, List.forall₂_map_left_iff, List.forall₂_map_right_iff]

theorem linked_take {prev : Digest} (n : Nat)
    (h : HashChain.Linked Record.previousHash Record.recordHash prev l) :
    HashChain.Linked Record.previousHash Record.recordHash prev (l.take n) := by
  rw [← List.take_append_drop n l] at h
  exact (HashChain.linked_append.mp h).1

theorem tip_take_succ {prev : Digest} {i : Nat} {r : Record} (h : l[i]? = some r) :
    HashChain.tip Record.recordHash prev (l.take (i + 1)) = r.recordHash := by
  rw [List.take_add_one, h, Option.toList_some, HashChain.tip_concat]

/-- A record that has the hash of one of the log stands in its place, after the records of the log. -/
theorem map_take_of_hash {κ : Type} {key : Record → κ} {log : List Record} {i j : Nat} {r r' : Record}
    (hkeyed : HashChain.Keyed (·.previousHash) (·.recordHash) key l log)
    (hplace : ∀ (i j : Nat) r r', l[i]? = some r → log[j]? = some r' → key r = key r' → i = j)
    (hl : HashChain.Linked (·.previousHash) (·.recordHash) zeroDigest l)
    (hlog : HashChain.Linked (·.previousHash) (·.recordHash) zeroDigest log) (hr : l[i]? = some r)
    (hr' : log[j]? = some r') (h : r'.recordHash = r.recordHash) :
    (l.take (i + 1)).map (fun r => (key r, r.recordHash)) =
      (log.take (i + 1)).map fun r => (key r, r.recordHash) := by
  have hi : i < l.length := (List.getElem?_eq_some_iff.mp hr).1
  have hj : j < log.length := (List.getElem?_eq_some_iff.mp hr').1
  obtain rfl : i = j := hplace i j r r' hr hr'
    (hkeyed.keys r (List.mem_of_getElem? hr) r' (List.mem_of_getElem? hr') h.symm)
  refine HashChain.Linked.map_eq_of_tip (hkeyed.left_right (fun r => List.mem_of_mem_take)
    (fun r => List.mem_of_mem_take)) (linked_take _ hl) (linked_take _ hlog) ?_ ?_
  · simp only [List.length_take]
    omega
  · rw [tip_take_succ hr, tip_take_succ hr', h]

/-- A signature that verifies is one on a hash of the log: nobody else has the key. -/
def Unforged (v : Verifier) (keys : Option TrustedKeys) (log l : List Record) : Prop :=
  ∀ r ∈ l, r.signature ≠ [] → r.SignedIn v keys → ∃ r' ∈ log, r'.recordHash = r.recordHash

/-- After some `k` no record is signed, and the one before is. -/
theorem exists_last_signed (l : List Record) :
    ∃ k, (∀ r ∈ l.drop k, r.signature = []) ∧
      (k = 0 ∨ ∃ m r, k = m + 1 ∧ l[m]? = some r ∧ r.signature ≠ []) := by
  induction l using List.reverseRecOn with
  | nil => exact ⟨0, by simp, .inl rfl⟩
  | append_singleton l x ih =>
    by_cases hx : x.signature = []
    · obtain ⟨k, hk, hlast⟩ := ih
      have hle : k ≤ l.length := by
        rcases hlast with rfl | ⟨m, r, rfl, hr, -⟩
        · omega
        · exact (List.getElem?_eq_some_iff.mp hr).1
      refine ⟨k, fun r hr => ?_, hlast.imp_right ?_⟩
      · rw [List.drop_append_of_le_length hle, List.mem_append, List.mem_singleton] at hr
        rcases hr with hr | rfl
        · exact hk r hr
        · exact hx
      · rintro ⟨m, r, hkm, hr, hsig⟩
        exact ⟨m, r, hkm, by rw [List.getElem?_append_left (by omega)]; exact hr, hsig⟩
    · exact ⟨l.length + 1, by simp, .inr ⟨l.length, x, rfl, by simp, hx⟩⟩

variable {keys : Option TrustedKeys}

/-- The list begins like the log, and after that it is not signed: its last signature is one of the
log. -/
theorem begins_of_verified {κ : Type} {key : Record → κ} {log : List Record}
    (hkeyed : HashChain.Keyed (·.previousHash) (·.recordHash) key l log)
    (hplace : ∀ (i j : Nat) r r', l[i]? = some r → log[j]? = some r' → key r = key r' → i = j)
    (hlog : HashChain.Linked (·.previousHash) (·.recordHash) zeroDigest log)
    (hunforged : Unforged v keys log l) (h : Verified v keys l) :
    ∃ k, (∀ r ∈ l.drop k, r.signature = []) ∧
      (l.take k).map (fun r => (key r, r.recordHash)) =
        (log.take k).map fun r => (key r, r.recordHash) := by
  obtain ⟨k, hunsigned, hlast⟩ := exists_last_signed l
  refine ⟨k, hunsigned, ?_⟩
  rcases hlast with rfl | ⟨m, r, rfl, hr, hsig⟩
  · simp
  · obtain ⟨r', hmem, heq⟩ := hunforged r (List.mem_of_getElem? hr) hsig
      ((h.signed r (List.mem_of_getElem? hr)).resolve_left hsig)
    obtain ⟨j, hj⟩ := List.getElem?_of_mem hmem
    exact map_take_of_hash hkeyed hplace h.linked hlog hr hj heq

theorem Unforged.of_mem {log l : List Record} (h : ∀ r ∈ l, r ∈ log) :
    Unforged v keys log l := fun r hr _ _ => ⟨r, h r hr, rfl⟩

/-- Numbers from 1 on say where a record stands. -/
theorem place_of_sequence {i j : Nat} {r r' : Record} (hi : i < 2 ^ 63) (hj : j < 2 ^ 63)
    (hr : r.sequence = 1 + UInt64.ofNat i) (hr' : r'.sequence = 1 + UInt64.ofNat j)
    (h : r.sequence = r'.sequence) : i = j := by
  rw [hr, hr', UInt64.add_right_inj] at h
  have hnat := congrArg UInt64.toNat h
  rw [UInt64.toNat_ofNat', UInt64.toNat_ofNat'] at hnat
  omega

variable {c : Crypto}

/-- **A fully signed list is the log.** If `VerifyRecords` accepts a list made without the key of the
store that is signed throughout and at least as long as the log, it is the log. -/
theorem signed_list_fixed (keys : Option TrustedKeys) (clock : Nat → Time) (path : String)
    (calls : List Call) (log : List Record) (hhash : v.hash = c.hash)
    (hlog : log = (Store.run c { signer := true, path } calls).records)
    (hfree : CollisionFree v l log) (hunforged : Unforged v keys log l) (hlen : l.length < 2 ^ 63)
    (hlong : log.length ≤ l.length) (hok : (verifyRecords v keys clock l).ok = true)
    (hsigned : ∀ r ∈ l, r.signature ≠ []) : List.Forall₂ Record.Agree l log := by
  subst hlog
  have hs := (Store.Chained.new (c := c) true path).run calls
  have hv := (verifyRecords_ok clock).mp hok
  obtain ⟨k, hunsigned, hbegins⟩ := begins_of_verified (hfree.keyed hv.hashed (hhash ▸ hs.hashed))
    (fun i j r r' hr hr' hbody => place_of_sequence
      ((List.getElem?_eq_some_iff.mp hr).1.trans hlen)
      ((List.getElem?_eq_some_iff.mp hr').1.trans (by omega)) (by simpa using hv.numbered i r hr)
      (hs.numbered j r' hr') (congrArg AuditBody.sequence hbody)) hs.linked hunforged hv
  have hall : l.drop k = [] := by
    refine List.eq_nil_iff_forall_not_mem.mpr fun r hr => ?_
    exact hsigned r (List.mem_of_mem_drop hr) (hunsigned r hr)
  have hle : l.length ≤ k := List.drop_eq_nil_iff.mp hall
  rw [List.take_of_length_le hle, List.take_of_length_le (by omega)] at hbegins
  refine (forall₂_iff_map_eq fun _ _ => ?_).mpr hbegins
  exact Record.agree_iff

theorem signed_list_sample : List.Forall₂ Record.Agree sampleRecords sampleRecords :=
  signed_list_fixed (some sampleKeys) (fun _ => 0) "" [sampleAppend "op-1", sampleCheckpoint] _ rfl rfl
    (collisionFree_sample (by decide +kernel)) (.of_mem fun _ h => h) (by decide +kernel)
    (Nat.le_refl _) (by decide +kernel) (by decide +kernel)

/-! ### What a store without a signer makes -/

/-- The arguments with which `Append` makes the record. -/
def Record.call (r : Record) : Call where
  now := r.time
  request := .append ⟨r.actor, r.action, r.resource, r.result, r.operationID, r.metadata⟩

variable {s : Store}

/-- A store without a signer makes a record that continues its log. -/
theorem call_of_passes {r : Record} (hsigner : s.signer = false) (hhash : v.hash = c.hash)
    (hr : Scan.Passes v keys ⟨true, [], s.ops, s.tip, s.nextSequence⟩ r) :
    (s.call c r.call).1 = s.push r.unsigned := by
  have hdraft : s.draft r.time ⟨r.actor, r.action, r.resource, r.result, r.operationID, r.metadata⟩ =
      { r.unsigned with recordHash := zeroDigest } := by
    have hsequence : s.nextSequence = r.sequence := hr.sequence.symm
    have hprevious : s.tip = r.previousHash := hr.previous.symm
    rw [Store.draft, hsequence, hprevious]
    rfl
  have happend := Store.append_unsigned (d := r.recordHash) none hsigner
    (x := ⟨r.actor, r.action, r.resource, r.result, r.operationID, r.metadata⟩) hr.operation
    (by rw [hdraft]; exact hhash ▸ hr.hash)
  rw [hdraft] at happend
  exact happend

/-- A store without a signer makes all records that continue its log. -/
theorem run_of_verifiedFrom (hsigner : s.signer = false) (hhash : v.hash = c.hash)
    (h : VerifiedFrom v keys s.tip s.nextSequence s.ops l) :
    (s.run c (l.map Record.call)).records = s.records ++ l.map Record.unsigned := by
  induction l generalizing s with
  | nil => simp [Store.run]
  | cons r l ih =>
    obtain ⟨hr, hrest⟩ := (verifiedFrom_cons (s := ⟨true, [], s.ops, s.tip, s.nextSequence⟩)).mp h
    have hcall := call_of_passes hsigner hhash hr
    have htip : (s.push r.unsigned).tip = r.recordHash := by simp [Store.tip, Store.push, Record.unsigned]
    have hnext : (s.push r.unsigned).nextSequence = r.sequence + 1 := by
      simp [Store.nextSequence, Store.push, Record.unsigned]
    have hrun : s.run c ((r :: l).map Record.call) = (s.push r.unsigned).run c (l.map Record.call) := by
      rw [← hcall]
      rfl
    rw [hrun, ih (s := s.push r.unsigned) hsigner (by rw [htip, hnext]; exact hrest)]
    simp [Store.push]

/-- The records of a run are those that were there, and records of its calls. -/
theorem time_of_run (ks : List Call) {r : Record} (hr : r ∈ (s.run c ks).records) :
    r ∈ s.records ∨ ∃ k ∈ ks, r.time = k.now := by
  induction ks generalizing s with
  | nil => exact .inl hr
  | cons k ks ih =>
    rcases ih (s := (s.call c k).1) hr with hmem | ⟨k', hk', htime⟩
    · obtain ⟨hsame, -⟩ | ⟨r', hadds, happend⟩ :=
        Store.append_cases s c k.now k.file (s.entry k.request)
      · exact .inl (by rwa [Store.call, hsame] at hmem)
      · rw [Store.call, happend, Store.push, List.mem_append, List.mem_singleton] at hmem
        rcases hmem with hmem | rfl
        · exact .inl hmem
        · exact .inr ⟨k, List.mem_cons_self, hadds.time⟩
    · exact .inr ⟨k', List.mem_cons_of_mem _ hk', htime⟩

theorem consistent_unsigned : Consistent v (l.map Record.unsigned) ↔ Consistent v l := by
  have hops : operationIDs (l.map Record.unsigned) = operationIDs l := by
    simp only [operationIDs, List.map_map]
    rfl
  constructor
  · intro h
    refine ⟨fun i r hr => h.numbered i r.unsigned (by simp [hr]),
      (HashChain.linked_map (f := Record.unsigned)).mp h.linked,
      fun r hr => h.hashed r.unsigned (List.mem_map_of_mem hr),
      fun r hr => h.timed r.unsigned (List.mem_map_of_mem hr),
      hops ▸ h.operations⟩
  · intro h
    refine ⟨fun i r hr => ?_, HashChain.linked_map.mpr h.linked, fun r hr => ?_, fun r hr => ?_,
      hops.symm ▸ h.operations⟩
    · rw [List.getElem?_map] at hr
      obtain ⟨r', hr', rfl⟩ := Option.map_eq_some_iff.mp hr
      exact h.numbered i r' hr'
    · obtain ⟨r', hr', rfl⟩ := List.mem_map.mp hr
      exact h.hashed r' hr'
    · obtain ⟨r', hr', rfl⟩ := List.mem_map.mp hr
      exact h.timed r' hr'

/-- Without its signatures, the list is one that a store without a signer makes. -/
def Made (c : Crypto) (l : List Record) : Prop :=
  ∃ calls : List Call, (∀ k ∈ calls, k.now ≠ 0) ∧ (Store.run c {} calls).records = l.map Record.unsigned

theorem consistent_iff_made (hhash : v.hash = c.hash) : Consistent v l ↔ Made c l := by
  constructor
  · intro h
    have hverified : Verified v none (l.map Record.unsigned) := by
      refine verified_iff.mpr ⟨consistent_unsigned.mpr h, fun r hr => .inl ?_⟩
      obtain ⟨r', -, rfl⟩ := List.mem_map.mp hr
      rfl
    refine ⟨(l.map Record.unsigned).map Record.call, fun k hk => ?_, ?_⟩
    · obtain ⟨r, hr, rfl⟩ := List.mem_map.mp hk
      exact hverified.timed r hr
    · have hrun := run_of_verifiedFrom (s := {}) rfl hhash hverified
      rw [hrun]
      simp [Record.unsigned, Function.comp_def]
  · rintro ⟨calls, hnow, hrecords⟩
    have hs := (Store.Chained.new (c := c) false "").run calls
    have hverified : Verified v none (l.map Record.unsigned) := by
      rw [← hrecords]
      refine hs.verified hhash (fun r hr => ?_) fun hsigner => ?_
      · rcases time_of_run calls hr with hmem | ⟨k, hk, htime⟩
        · cases hmem
        · exact htime ▸ hnow k hk
      · rw [Store.run_signer] at hsigner
        cases hsigner
    exact consistent_unsigned.mp (verified_iff.mp hverified).1

/-! ### Tampering -/

section Tampering

variable {ν : Type} {C : Signing.Codec ν} {sum : Bytes → Digest}

/-- The bodies of two records are read back alike, and their hashes are the same. -/
structure Record.ReadAlike (r r' : Record) : Prop where
  body : r.body.Agree r'.body
  recordHash : r.recordHash = r'.recordHash

/-- The list begins with the first `k` records of the log as they are read back, which may have lost
their signatures; the other records are not signed; and without its signatures the list is one that
anybody can make. -/
structure Continues (c : Crypto) (v : Verifier) (keys : Option TrustedKeys) (log l : List Record)
    (k : Nat) : Prop where
  begins : List.Forall₂ Record.ReadAlike (l.take k) (log.take k)
  signatures : ∀ r ∈ l.take k, r.signature = [] ∨ r.SignedIn v keys
  unsigned : ∀ r ∈ l.drop k, r.signature = []
  made : Made c l

/-- SHA-256 has no collision between the texts of two lists. -/
def SumInjective (C : Signing.Codec ν) (sum : Bytes → Digest) (l l' : List Record) : Prop :=
  ∀ r ∈ l, ∀ r' ∈ l', ∀ t t', C.audit r.body = some t → C.audit r'.body = some t' → sum t = sum t' →
    t = t'

/-- The text of a body that is hashed. -/
theorem audit_of_hashBody {b : AuditBody} {d : Digest} (h : hashBody C sum b = .ok d) :
    ∃ t, C.audit b = some t ∧ sum t = d := by
  unfold hashBody at h
  split at h
  · cases h
  · exact ⟨_, ‹_›, Except.ok.inj h⟩

/-- Without collisions the hash of a record determines what is read back of its body. -/
theorem SumInjective.keyed (h : SumInjective C sum l l')
    (hl : ∀ r ∈ l, hashBody C sum r.body = .ok r.recordHash)
    (hl' : ∀ r ∈ l', hashBody C sum r.body = .ok r.recordHash) :
    HashChain.Keyed (·.previousHash) (·.recordHash) (fun r : Record => r.body.read) l l' := by
  refine ⟨fun r hr r' hr' heq => ?_, fun r r' h => (AuditBody.read_inj.mp h).previousHash⟩
  obtain ⟨t, ht, hsum⟩ := audit_of_hashBody (hl r hr)
  obtain ⟨t', ht', hsum'⟩ := audit_of_hashBody (hl' r' hr')
  refine AuditBody.read_inj.mpr ((Codec.audit_inj ht ht').mp ?_)
  exact h r hr r' hr' t t' ht ht' (hsum.trans (heq.trans hsum'.symm))

/-- Numbers up to `2 ^ 53` are read back as they are. -/
theorem place_of_read {i j : Nat} {r r' : Record} (hi : i < 2 ^ 53) (hj : j < 2 ^ 53)
    (hr : r.sequence = 1 + UInt64.ofNat i) (hr' : r'.sequence = 1 + UInt64.ofNat j)
    (h : r.body.Agree r'.body) : i = j := by
  have hnat : ∀ n < 2 ^ 53, (1 + UInt64.ofNat n).toNat = n + 1 := by
    intro n hn
    rw [UInt64.toNat_add, UInt64.toNat_ofNat']
    change (1 + _) % 2 ^ 64 = _
    omega
  have hseq : Json.float64 r.sequence.toNat = Json.float64 r'.sequence.toNat := h.sequence
  have hexact : ∀ n < 2 ^ 53, Json.float64 (n + 1 : Nat) = (n + 1 : Nat) := fun n hn =>
    Json.float64_of_exact (by rw [Json.Exact]; omega)
  rw [hr, hr', hnat i hi, hnat j hj, hexact i hi, hexact j hj] at hseq
  omega

theorem Record.readAlike_iff {r r' : Record} :
    r.ReadAlike r' ↔ (r.body.read, r.recordHash) = (r'.body.read, r'.recordHash) := by
  rw [Prod.mk.injEq, AuditBody.read_inj]
  exact ⟨fun h => ⟨h.body, h.recordHash⟩, fun h => ⟨h.1, h.2⟩⟩

/-- **Tamper evidence.** Of the lists that can be made of the records of a signed store without its
key, `VerifyRecords` rejects exactly those that do not continue a beginning of the log, perhaps without
some of its signatures, by what a store without a signer appends. -/
theorem verify_rejects_iff (C : Signing.Codec ν) (sum : Bytes → Digest) (keys : Option TrustedKeys)
    (clock : Nat → Time) (path : String) (calls : List Call) (log : List Record)
    (hsum : c.hash = hashBody C sum) (hhash : v.hash = c.hash)
    (hlog : log = (Store.run c { signer := true, path } calls).records)
    (hfree : SumInjective C sum l log) (hunforged : Unforged v keys log l)
    (hlen : l.length < 2 ^ 53) (hloglen : log.length < 2 ^ 53) :
    (verifyRecords v keys clock l).ok = false ↔ ¬ ∃ k, Continues c v keys log l k := by
  subst hlog
  have hs := (Store.Chained.new (c := c) true path).run calls
  rw [← Bool.not_eq_true, verifyRecords_ok, not_iff_not]
  constructor
  · intro h
    have hkeyed := hfree.keyed (hsum ▸ hhash ▸ h.hashed) (hsum ▸ hs.hashed)
    obtain ⟨k, hunsigned, hbegins⟩ := begins_of_verified hkeyed
      (fun i j r r' hr hr' hread => place_of_read
        ((List.getElem?_eq_some_iff.mp hr).1.trans hlen)
        ((List.getElem?_eq_some_iff.mp hr').1.trans hloglen) (h.numbered i r hr)
        (hs.numbered j r' hr') (AuditBody.read_inj.mp hread)) hs.linked hunforged h
    obtain ⟨hconsistent, hsigned⟩ := verified_iff.mp h
    refine ⟨k, (forall₂_iff_map_eq fun _ _ => ?_).mpr hbegins,
      fun r hr => hsigned r (List.mem_of_mem_take hr), hunsigned, (consistent_iff_made hhash).mp hconsistent⟩
    exact Record.readAlike_iff
  · rintro ⟨k, h⟩
    refine verified_iff.mpr ⟨(consistent_iff_made hhash).mpr h.made, fun r hr => ?_⟩
    rw [← List.take_append_drop k l, List.mem_append] at hr
    exact hr.elim (h.signatures r) fun hr => .inl (h.unsigned r hr)

end Tampering

/-- Collisions between the texts of the sample stores can be searched for. -/
theorem sumInjective_sample {l l' : List Record}
    (h : ∀ r ∈ l, ∀ r' ∈ l', sampleHash r = sampleHash r' → sampleCodec.audit r.body =
      sampleCodec.audit r'.body) : SumInjective sampleCodec sampleSum l l' := by
  intro r hr r' hr' t t' ht ht' hsum
  have hhash : ∀ {r : Record} {t : Bytes}, sampleCodec.audit r.body = some t →
      sampleHash r = some (sampleSum t) := fun ht => by
    simp [sampleHash, Verifier.sample, hashBody, ht, Except.toOption]
  have heq := h r hr r' hr' (by rw [hhash ht, hhash ht', hsum])
  exact Option.some.inj (ht.symm.trans (heq.trans ht'))

/-- The records of the sample store the other way round are rejected exactly because they continue no
beginning of the log. -/
theorem verify_rejects_reversed :
    (verifyRecords .sample (some sampleKeys) (fun _ => 0) sampleRecords.reverse).ok = false ↔
      ¬ ∃ k, Continues .sample .sample (some sampleKeys) sampleRecords sampleRecords.reverse k :=
  verify_rejects_iff sampleCodec sampleSum (some sampleKeys) _ "" [sampleAppend "op-1", sampleCheckpoint]
    _ rfl rfl rfl (sumInjective_sample (by decide +kernel)) (.of_mem (by simp)) (by decide +kernel)
    (by decide +kernel)

/-- A signed record whose resource is a byte that is no text. -/
def sampleBinary : List Record :=
  (Store.run Crypto.sample { signer := true } [{
    now := unixEpoch
    request := .append ⟨sampleActor, utf8 "deploy", [254], utf8 "ok", utf8 "op-3", {}⟩ }]).records

/-- A list other than the log that can be made without the key, and is accepted. -/
structure Undetected (log l : List Record) : Prop where
  differs : l ≠ log
  injective : SumInjective sampleCodec sampleSum l log
  unforged : Unforged .sample (some sampleKeys) log l
  accepted : (verifyRecords .sample (some sampleKeys) (fun _ => 0) l).ok = true

/-- The checkpoint at the end of the sample store can be cut off, and all signatures can be dropped. A
byte that is no text can be replaced by another one under a signature. -/
theorem cut_chain_accepted :
    sampleRecords.length = 2 ∧ Undetected sampleRecords (sampleRecords.take 1) ∧
      Undetected sampleRecords unsignedRecords ∧
      Undetected sampleBinary (sampleBinary.map fun r => { r with resource := [255] }) := by
  refine ⟨by decide +kernel, ⟨by decide +kernel, sumInjective_sample (by decide +kernel), ?_,
    by decide +kernel⟩, ⟨by decide +kernel, sumInjective_sample (by decide +kernel), ?_,
    by decide +kernel⟩, ⟨by decide +kernel, sumInjective_sample (by decide +kernel), ?_,
    by decide +kernel⟩⟩
  · exact .of_mem fun r hr => List.mem_of_mem_take hr
  · intro r hr hsig
    obtain ⟨r, -, rfl⟩ := List.mem_map.mp hr
    exact absurd rfl hsig
  · intro r hr _ _
    obtain ⟨r, hmem, rfl⟩ := List.mem_map.mp hr
    exact ⟨r, hmem, rfl⟩

end ShiftLock.Audit
