import ShiftLock.Audit.Verify

/-!
# The chain that a store keeps (`audit/audit.go`)

`Checkpoint`, and what a sequence of calls makes of a store: every record that was appended is
numbered, linked to the one before it, hashed, and signed if the store has a signer
(`Store.Chained`). `append_cases` says what one `Append` can do; the chain is kept by every call
(`Chained.call`) and so by every sequence of calls (`Chained.run`).
-/

namespace ShiftLock.Audit

open Signing
open Json (utf8)

/-- What a caller asks for. -/
inductive Request where
  | append (x : Entry)
  | checkpoint (actor : Actor)
  deriving DecidableEq

/-- A call, with the reading of its clock and the error of its write to the mirror file. -/
structure Call where
  now : Time
  file : Option String := none
  request : Request
  deriving DecidableEq

namespace Store

/-- What `Checkpoint` appends. -/
def checkpointEntry (s : Store) (actor : Actor) : Entry where
  actor
  action := utf8 "audit.checkpoint"
  resource := []
  result := utf8 "ok"
  operationID := []
  metadata := .ofList [(utf8 "checkpoint", utf8 "true"),
    (utf8 "tip_hash", utf8 ((s.records.getLast?.map fun r => hex r.recordHash).getD ""))]

def entry (s : Store) : Request → Entry
  | .append x => x
  | .checkpoint actor => s.checkpointEntry actor

/-- `Append` or `Checkpoint`. -/
def call (s : Store) (c : Crypto) (k : Call) : Store × Record × Option AppendError :=
  s.append c k.now k.file (s.entry k.request)

def run (c : Crypto) (s : Store) (ks : List Call) : Store := ks.foldl (fun s k => (s.call c k).1) s

/-- The record is one that `Append` adds to the store. -/
structure Adds (s : Store) (c : Crypto) (now : Time) (x : Entry) (r : Record) : Prop extends
    s.Of now x r where
  fresh : s.Fresh x.operationID
  hashed : c.hash r.body = .ok r.recordHash
  signed : if s.signer then c.sign r.recordHash = .ok (r.signature, r.keyID) else r.signature = []

variable {s : Store} {c : Crypto} {now : Time} {x : Entry} {r : Record}

/-- `Append` returns an error and changes nothing, or adds its record. -/
theorem append_cases (s : Store) (c : Crypto) (now : Time) (file : Option String) (x : Entry) :
    ((s.append c now file x).1 = s ∧ (s.append c now file x).2.2 ≠ none) ∨
      ∃ r, s.Adds c now x r ∧
        s.append c now file x = (s.push r, r, if s.path = "" then none else file.map .file) := by
  unfold append
  split
  · exact .inl ⟨rfl, by simp⟩
  rename_i hfresh
  have hfresh : s.Fresh x.operationID := by
    by_cases hid : x.operationID = []
    · exact .inl hid
    · exact .inr (by simpa [hid] using hfresh)
  split
  · exact .inl ⟨rfl, by simp⟩
  rename_i d hd
  unfold signed
  by_cases hsigner : s.signer = true
  · rw [if_pos hsigner]
    cases hsign : c.sign d with
    | error text => exact .inl ⟨rfl, by simp [Except.map]⟩
    | ok sig =>
      simp only [Except.map]
      exact .inr ⟨_, ⟨⟨rfl, rfl, rfl, rfl, rfl, rfl, rfl, rfl, rfl⟩, hfresh, hd,
        by rw [if_pos hsigner]; exact hsign⟩, rfl⟩
  · rw [if_neg hsigner]
    exact .inr ⟨_, ⟨⟨rfl, rfl, rfl, rfl, rfl, rfl, rfl, rfl, rfl⟩, hfresh, hd,
      by rw [if_neg hsigner]; rfl⟩, rfl⟩

structure Chained (s : Store) (c : Crypto) : Prop where
  numbered : ∀ i r, s.records[i]? = some r → r.sequence = 1 + UInt64.ofNat i
  linked : HashChain.Linked (·.previousHash) (·.recordHash) zeroDigest s.records
  hashed : ∀ r ∈ s.records, c.hash r.body = .ok r.recordHash
  operations : (operationIDs s.records).Nodup
  ops : ∀ id ∈ operationIDs s.records, s.ops id ≠ none
  signed : ∀ r ∈ s.records,
    if s.signer then c.sign r.recordHash = .ok (r.signature, r.keyID) else r.signature = []

theorem Chained.new (signer : Bool) (path : String) : Chained { signer, path } c :=
  ⟨by simp, trivial, by simp, by simp [operationIDs], by simp [operationIDs], by simp⟩

theorem nextSequence_eq (h : s.Chained c) :
    s.nextSequence = 1 + UInt64.ofNat s.records.length := by
  unfold nextSequence
  cases hr : s.records.getLast? with
  | none =>
    rw [List.getLast?_eq_none_iff] at hr
    simp [hr]
  | some r =>
    have hlen : s.records.length ≠ 0 := by
      intro h0
      rw [List.length_eq_zero_iff] at h0
      simp [h0] at hr
    rw [List.getLast?_eq_getElem?] at hr
    obtain ⟨n, hn⟩ := Nat.exists_eq_succ_of_ne_zero hlen
    rw [hn] at hr ⊢
    rw [Option.map_some, Option.getD_some, h.numbered n r hr, Nat.succ_eq_add_one, add_ofNat_succ,
      UInt64.add_assoc, UInt64.add_comm (UInt64.ofNat n), ← UInt64.add_assoc]

theorem operationIDs_concat :
    operationIDs (s.records ++ [r]) = if r.operationID = [] then operationIDs s.records
      else operationIDs s.records ++ [r.operationID] := by
  by_cases h : r.operationID = [] <;> simp [operationIDs, h]

theorem Chained.push (h : s.Chained c) (hr : s.Adds c now x r) : (s.push r).Chained c := by
  have hfresh : r.operationID = [] ∨ s.ops r.operationID = none := by
    rw [hr.operationID]
    exact hr.fresh
  refine ⟨fun i r' hr' => ?_, HashChain.linked_concat.mpr ⟨h.linked, hr.previousHash⟩, ?_, ?_, ?_, ?_⟩
  · -- the numbers go on
    by_cases hi : i < s.records.length
    · exact h.numbered i r' (by rwa [Store.push, List.getElem?_append_left hi] at hr')
    · have hlast : i = s.records.length ∧ r = r' := by
        simp only [Store.push] at hr'
        rw [List.getElem?_append_right (by omega), List.getElem?_singleton] at hr'
        split at hr'
        · exact ⟨by omega, by simpa using hr'⟩
        · cases hr'
      obtain ⟨rfl, rfl⟩ := hlast
      rw [hr.sequence, nextSequence_eq h]
  · simp only [Store.push, List.mem_append, List.mem_singleton]
    rintro r' (hr' | rfl)
    · exact h.hashed r' hr'
    · exact hr.hashed
  · simp only [Store.push, operationIDs_concat]
    split
    · exact h.operations
    · rename_i hid
      rw [List.nodup_append]
      refine ⟨h.operations, by simp, ?_⟩
      simp only [List.mem_singleton]
      rintro id hmem _ rfl rfl
      exact h.ops _ hmem (hfresh.resolve_left hid)
  · simp only [Store.push, operationIDs_concat]
    intro id hmem
    split at hmem
    · rename_i hid
      rw [if_pos hid]
      exact h.ops id hmem
    · rename_i hid
      rw [if_neg hid]
      by_cases heq : id = r.operationID
      · simp [heq]
      · rw [Function.update_of_ne heq]
        exact h.ops id (by simpa [heq] using hmem)
  · simp only [Store.push, List.mem_append, List.mem_singleton]
    rintro r' (hr' | rfl)
    · exact h.signed r' hr'
    · exact hr.signed

theorem call_signer (k : Call) : (s.call c k).1.signer = s.signer := by
  obtain ⟨hsame, -⟩ | ⟨r, -, happend⟩ := append_cases s c k.now k.file (s.entry k.request)
  · exact congrArg signer hsame
  · exact congrArg (·.1.signer) happend

theorem run_signer (ks : List Call) : (s.run c ks).signer = s.signer := by
  induction ks generalizing s with
  | nil => rfl
  | cons k ks ih => exact ih.trans (call_signer k)

theorem Chained.call (h : s.Chained c) (k : Call) : (s.call c k).1.Chained c := by
  unfold Store.call
  obtain ⟨hsame, -⟩ | ⟨r, hr, happend⟩ := append_cases s c k.now k.file (s.entry k.request)
  · rwa [hsame]
  · rw [happend]
    exact h.push hr

/-- **Every sequence of calls keeps the chain.** -/
theorem Chained.run (h : s.Chained c) (ks : List Call) : (s.run c ks).Chained c := by
  induction ks generalizing s with
  | nil => exact h
  | cons k ks ih => exact ih (h.call k)

end Store

/-- The keys verify what is signed at time `t`. -/
def Trusts (v : Verifier) (keys : Option TrustedKeys)
    (sign : Digest → Except String (Bytes × String)) (t : Time) : Prop :=
  ∀ d sig, sign d = .ok sig → ∃ trusted k, keys = some trusted ∧ trusted.ring.lookup sig.2 = some k ∧
    k.validAt t = true ∧ v.verify k.key d.val sig.1 = true

/-- The chain of a store verifies if its records are dated and its keys are known. -/
theorem Store.Chained.verified {s : Store} {c : Crypto} {v : Verifier} {keys : Option TrustedKeys}
    (h : s.Chained c) (hhash : v.hash = c.hash) (htime : ∀ r ∈ s.records, r.time ≠ 0)
    (htrusts : s.signer = true → ∀ r ∈ s.records, Trusts v keys c.sign r.time) :
    Verified v keys s.records := by
  refine ⟨h.numbered, h.linked, hhash ▸ h.hashed, htime, h.operations, fun _ _ => rfl,
    fun r hr => ?_⟩
  have hsigned := h.signed r hr
  split at hsigned
  · rename_i hsigner
    exact .inr (htrusts hsigner r hr _ _ hsigned)
  · exact .inl hsigned

/-! ## A sample store -/

/-- SHA-256 over the canonical JSON of a first record, with the operation ID `op-1`. -/
def hashOne : Digest :=
  ⟨[223, 183, 106, 231, 143, 58, 172, 169, 252, 150, 65, 118, 228, 4, 238, 187, 66, 187, 134, 55,
    148, 177, 4, 164, 230, 243, 13, 174, 97, 43, 198, 173], rfl⟩

/-- The same with the operation ID `op-2`. -/
def hashTwo : Digest :=
  ⟨[187, 57, 171, 169, 44, 211, 197, 43, 58, 172, 202, 65, 184, 225, 2, 254, 7, 62, 228, 246, 132,
    141, 145, 243, 139, 46, 6, 193, 239, 246, 81, 126], rfl⟩

/-- The same with the operation ID `op-3` and a resource that is no text. -/
def hashBinary : Digest :=
  ⟨[42, 152, 92, 83, 132, 13, 68, 247, 89, 87, 78, 46, 241, 241, 63, 118, 191, 182, 246, 114, 255, 192,
    113, 248, 2, 214, 113, 126, 8, 251, 3, 81], rfl⟩

/-- The hash of a checkpoint after the record with the operation ID `op-1`. -/
def hashCheckpoint : Digest :=
  ⟨[119, 175, 100, 45, 144, 227, 102, 36, 108, 130, 234, 7, 137, 228, 253, 106, 104, 173, 118,
    164, 6, 241, 209, 193, 107, 33, 124, 48, 37, 96, 195, 180], rfl⟩

/-- How the text of an operation of the samples begins. -/
def sampleText (id : String) : Bytes :=
  utf8 ("\x7b\"action\":\"deploy\",\"actor\":\x7b\"id\":\"op\",\"type\":\"user\"\x7d,\"operation_id\":\"" ++ id)

/-- The hashes of the texts of the sample records, which differ in their operation IDs. -/
def sampleSum (text : Bytes) : Digest :=
  if (sampleText "op-1").isPrefixOf text then hashOne
  else if (sampleText "op-2").isPrefixOf text then hashTwo
  else if (sampleText "op-3").isPrefixOf text then hashBinary
  else hashCheckpoint

/-- Their Ed25519 signatures with the key of the all-zero seed. -/
def sampleSignature (d : Digest) : List UInt8 :=
  if d = hashOne then
    [105, 244, 61, 197, 119, 157, 212, 176, 137, 51, 200, 196, 236, 55, 249, 193, 250, 155, 72,
      207, 189, 44, 78, 173, 76, 82, 27, 140, 189, 63, 56, 218, 214, 234, 225, 70, 131, 165, 203,
      246, 65, 244, 101, 82, 114, 211, 22, 185, 83, 154, 183, 231, 29, 193, 106, 59, 112, 35, 66,
      196, 153, 111, 158, 15]
  else if d = hashTwo then
    [156, 160, 186, 219, 104, 70, 228, 207, 27, 24, 166, 16, 218, 2, 13, 18, 85, 174, 60, 104,
      117, 225, 229, 92, 23, 207, 40, 164, 197, 99, 84, 123, 46, 32, 151, 62, 82, 45, 171, 93,
      210, 95, 243, 219, 52, 159, 99, 101, 244, 239, 150, 48, 110, 22, 199, 122, 207, 235, 243,
      70, 36, 110, 156, 13]
  else if d = hashBinary then
    [14, 123, 112, 91, 44, 81, 146, 119, 101, 96, 141, 0, 76, 9, 89, 132, 13, 97, 46, 86, 76, 142, 196,
      209, 72, 73, 142, 35, 102, 92, 165, 104, 33, 41, 218, 55, 176, 17, 141, 210, 8, 25, 11, 203, 124,
      212, 195, 130, 196, 250, 115, 16, 146, 18, 179, 212, 21, 140, 15, 201, 237, 1, 162, 9]
  else
    [177, 114, 69, 84, 164, 191, 226, 177, 152, 186, 239, 158, 46, 212, 229, 112, 228, 221, 180,
      198, 189, 92, 93, 24, 231, 128, 190, 235, 8, 209, 95, 150, 88, 120, 133, 171, 124, 84, 31,
      184, 45, 1, 154, 135, 117, 144, 116, 204, 155, 3, 155, 218, 45, 157, 23, 32, 53, 184, 130,
      188, 164, 60, 238, 14]

/-- The digests that are signed in the sample stores. -/
def sampleDigests : List Digest := [hashOne, hashTwo, hashBinary, hashCheckpoint]

def sampleKeyID : String := "ed25519:0000000000000000"

/-- The public key of the all-zero seed. -/
def samplePublicKey : PublicKey where
  id := sampleKeyID
  key := [59, 106, 39, 188, 206, 182, 164, 45, 98, 163, 168, 208, 42, 111, 13, 115, 101, 50, 21, 119,
    29, 226, 67, 166, 58, 192, 72, 161, 139, 89, 218, 41]

def sampleKeys : TrustedKeys where
  ring := (newKeyRing.add samplePublicKey).1
  len := 1
  len_eq_zero := iff_of_false Nat.one_ne_zero fun h => Option.some_ne_none _ (h sampleKeyID)

def Crypto.sample : Crypto where
  hash := hashBody sampleCodec sampleSum
  sign d :=
    if d ∈ sampleDigests then .ok (sampleSignature d, sampleKeyID)
    else .error "not a sample"

def Verifier.sample : Verifier where
  hash := hashBody sampleCodec sampleSum
  verify key payload sig :=
    key == samplePublicKey.key &&
      sampleDigests.any fun d => payload == d.val && sig == sampleSignature d
  quote text := "\"" ++ String.ofList (Json.decode text) ++ "\""

theorem Trusts.sample (t : Time) : Trusts .sample (some sampleKeys) Crypto.sample.sign t := by
  intro d sig hsig
  have hmem : d ∈ sampleDigests ∧ sig = (sampleSignature d, sampleKeyID) := by
    simp only [Crypto.sample] at hsig
    split at hsig
    · rename_i hmem
      exact ⟨hmem, (Except.ok.inj hsig).symm⟩
    · cases hsig
  obtain ⟨hmem, rfl⟩ := hmem
  refine ⟨sampleKeys, samplePublicKey, rfl, rfl, rfl, ?_⟩
  have hsamples : ∀ d ∈ sampleDigests,
      Verifier.sample.verify samplePublicKey.key d.val (sampleSignature d) = true := by
    decide +kernel
  exact hsamples d hmem

/-- The actor of the sample records. -/
def sampleActor : Actor := { id := utf8 "op", type := utf8 "user" }

/-- An operation on the service. -/
def sampleEntry (id : String) : Entry where
  actor := sampleActor
  action := utf8 "deploy"
  resource := utf8 "svc"
  result := utf8 "ok"
  operationID := utf8 id

def sampleAppend (id : String) : Call := { now := unixEpoch, request := .append (sampleEntry id) }

def sampleCheckpoint : Call where
  now := unixEpoch
  request := .checkpoint sampleActor

def sampleRecords : List Record :=
  (Store.run Crypto.sample { signer := true } [sampleAppend "op-1", sampleCheckpoint]).records

end ShiftLock.Audit
