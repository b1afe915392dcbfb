import ShiftLock.Security.Bodies

/-!
# The audit log (`audit/audit.go`)

`Store.Append` with everything it reads and writes: the records with their hash chain, the table of
operation IDs, the signature, and the mirror file. SHA-256 over the canonical JSON of a record and
the signature scheme are parameters (`Crypto`).

An operation ID is accepted once: `append_fresh` and `append_duplicate` say what one call does, and
`append_iff` that a call makes its record exactly if its operation ID is empty or new.
-/

namespace ShiftLock.Audit

open Signing
open Json (utf8)

structure Record where
  sequence : UInt64 := 0
  previousHash : Digest := zeroDigest
  recordHash : Digest := zeroDigest
  time : Time := 0
  actor : Actor := { id := [] }
  action : Bytes := []
  resource : Bytes := []
  result : Bytes := []
  operationID : Bytes := []
  metadata : Metadata := {}
  signature : Bytes := []
  keyID : String := ""
  deriving DecidableEq

/-- The body that `hashBody` makes of a record. -/
def Record.body (r : Record) : AuditBody where
  sequence := r.sequence
  previousHash := r.previousHash
  time := r.time
  actor := r.actor
  action := r.action
  resource := r.resource
  result := r.result
  operationID := r.operationID
  metadata := r.metadata

/-- SHA-256 over `signing.CanonicalJSON`, and `signing.SignBytes`: the signature and the key's ID. -/
structure Crypto where
  hash : AuditBody → Except String Digest
  sign : Digest → Except String (Bytes × String)

/-- `hashBody`: `sum` is `sha256.Sum256`. It fails for a time that has no text. -/
def hashBody {ν : Type} (C : Codec ν) (sum : Bytes → Digest) (b : AuditBody) : Except String Digest :=
  match C.audit b with
  | none => .error "Time.MarshalJSON: year outside of range [0,9999]"
  | some text => .ok (sum text)

/-- Hashing and signing succeed. -/
structure Crypto.Works (c : Crypto) : Prop where
  hash : ∀ b, ∃ d, c.hash b = .ok d
  sign : ∀ d, ∃ sig, c.sign d = .ok sig

/-- `Store`, without the keys, which only `Verify` reads. -/
structure Store where
  records : List Record := []
  ops : Bytes → Option UInt64 := fun _ => none
  signer : Bool := false
  path : String := ""

/-- What `Append` returns besides nil. -/
inductive AppendError where
  | duplicateOp (operationID : Bytes) (seq : UInt64)
  | hash (text : String)
  | sign (text : String)
  | file (text : String)
  deriving DecidableEq

/-- The arguments of `Append`. -/
structure Entry where
  actor : Actor
  action : Bytes
  resource : Bytes
  result : Bytes
  operationID : Bytes
  metadata : Metadata := {}
  deriving DecidableEq

namespace Store

/-- The hash that the next record points to. -/
def tip (s : Store) : Digest := (s.records.getLast?.map (·.recordHash)).getD zeroDigest

def nextSequence (s : Store) : UInt64 := (s.records.getLast?.map (·.sequence + 1)).getD 1

def draft (s : Store) (now : Time) (x : Entry) : Record where
  sequence := s.nextSequence
  previousHash := s.tip
  time := now
  actor := x.actor
  action := x.action
  resource := x.resource
  result := x.result
  operationID := x.operationID
  metadata := x.metadata

def signed (s : Store) (c : Crypto) (r : Record) : Except String Record :=
  if s.signer then (c.sign r.recordHash).map fun sig => { r with signature := sig.1, keyID := sig.2 }
  else .ok r

/-- The record is appended, and its operation ID is taken. -/
def push (s : Store) (r : Record) : Store :=
  { s with
    records := s.records ++ [r]
    ops := if r.operationID = [] then s.ops
      else Function.update s.ops r.operationID (some r.sequence) }

/-- `Append`. `file` is the error of the write to the mirror file, if there is one. -/
def append (s : Store) (c : Crypto) (now : Time) (file : Option String) (x : Entry) :
    Store × Record × Option AppendError :=
  match if x.operationID = [] then none else s.ops x.operationID with
  | some seq => (s, {}, some (.duplicateOp x.operationID seq))
  | none =>
    match c.hash (s.draft now x).body with
    | .error text => (s, {}, some (.hash text))
    | .ok d =>
      match s.signed c { s.draft now x with recordHash := d } with
      | .error text => (s, {}, some (.sign text))
      | .ok r => (s.push r, r, if s.path = "" then none else file.map .file)

def Fresh (s : Store) (id : Bytes) : Prop := id = [] ∨ s.ops id = none

instance (s : Store) (id : Bytes) : Decidable (s.Fresh id) :=
  inferInstanceAs (Decidable (_ ∨ _))

/-- The record is the one that `Append` makes of its arguments. -/
structure Of (s : Store) (now : Time) (x : Entry) (r : Record) : Prop where
  sequence : r.sequence = s.nextSequence
  previousHash : r.previousHash = s.tip
  time : r.time = now
  actor : r.actor = x.actor
  action : r.action = x.action
  resource : r.resource = x.resource
  result : r.result = x.result
  operationID : r.operationID = x.operationID
  metadata : r.metadata = x.metadata

variable {s : Store} {c : Crypto} {now : Time} {file : Option String} {x : Entry}

theorem of_signed (hc : c.Works) {r : Record} (hr : s.Of now x r) :
    ∃ r', s.signed c r = .ok r' ∧ s.Of now x r' := by
  unfold signed
  split
  · obtain ⟨sig, hsig⟩ := hc.sign r.recordHash
    rw [hsig]
    exact ⟨_, rfl, hr.1, hr.2, hr.3, hr.4, hr.5, hr.6, hr.7, hr.8, hr.9⟩
  · exact ⟨r, rfl, hr⟩

theorem Fresh.lookup {id : Bytes} (h : s.Fresh id) : (if id = [] then none else s.ops id) = none := by
  rcases h with h | h
  · simp [h]
  · simp [h]

/-- A store without a signer makes the record as it is hashed. -/
theorem append_unsigned {d : Digest} (file : Option String) (hsigner : s.signer = false) (h : s.Fresh x.operationID)
    (hd : c.hash (s.draft now x).body = .ok d) :
    (s.append c now file x).1 = s.push { s.draft now x with recordHash := d } := by
  simp only [append, h.lookup, hd, signed, hsigner]
  rfl

/-- A call with an empty or a new operation ID makes its record. -/
theorem append_fresh (now : Time) (file : Option String) (hc : c.Works) (h : s.Fresh x.operationID) :
    ∃ r, s.Of now x r ∧
      s.append c now file x = (s.push r, r, if s.path = "" then none else file.map .file) := by
  obtain ⟨d, hd⟩ := hc.hash (s.draft now x).body
  have hdraft : s.Of now x { s.draft now x with recordHash := d } :=
    ⟨rfl, rfl, rfl, rfl, rfl, rfl, rfl, rfl, rfl⟩
  obtain ⟨r, hr, hof⟩ := of_signed hc hdraft
  refine ⟨r, hof, ?_⟩
  simp only [append, h.lookup, hd, hr]

/-- A call with an operation ID that is taken changes nothing. -/
theorem append_duplicate (c : Crypto) (now : Time) (file : Option String)
    (h : ¬ s.Fresh x.operationID) :
    ∃ seq, s.append c now file x = (s, {}, some (.duplicateOp x.operationID seq)) := by
  obtain ⟨hne, htaken⟩ := not_or.mp h
  obtain ⟨seq, hseq⟩ := Option.ne_none_iff_exists'.mp htaken
  exact ⟨seq, by simp [append, hne, hseq]⟩

/-- **A call makes exactly one record, its own, exactly if its operation ID is empty or new.** -/
theorem append_iff (hc : c.Works) :
    s.Fresh x.operationID ↔
      ∃ r, s.Of now x r ∧ (s.append c now file x).1.records = s.records ++ [r] := by
  constructor
  · intro h
    obtain ⟨r, hof, happend⟩ := append_fresh now file hc h
    exact ⟨r, hof, by rw [happend]; rfl⟩
  · rintro ⟨r, -, hrecords⟩
    by_contra h
    obtain ⟨seq, happend⟩ := append_duplicate c now file h
    rw [happend] at hrecords
    simp at hrecords

/-- An in-memory store refuses nothing but a taken operation ID. -/
theorem append_err (hc : c.Works) (hpath : s.path = "") :
    (s.append c now file x).2.2 = none ↔ s.Fresh x.operationID := by
  by_cases h : s.Fresh x.operationID
  · obtain ⟨r, -, happend⟩ := append_fresh now file hc h
    simp [happend, hpath, h]
  · obtain ⟨seq, happend⟩ := append_duplicate c now file h
    simp [happend, h]

theorem append_path : (s.append c now file x).1.path = s.path := by
  unfold append
  split
  · rfl
  split
  · rfl
  split <;> rfl

end Store
end ShiftLock.Audit
