import ShiftLock.Audit.Tamper

/-!
# The mirror file of an audit log (`WithFile`, `LoadNDJSON` in `audit/audit.go`)

Stores that are created one after another on one path append their records to the same file. A new
store does not read what is there, so its chain starts again with number 1 and the zero hash. The
file of successful calls verifies exactly if at most one of the stores was used
(`audit_file_verifies_iff`).

The encoding of a record and `bytes.TrimSpace` are parameters (`Codec`).
-/

namespace ShiftLock.Audit

open Json (utf8)

/-- `json.Encoder` and `json.Unmarshal` of a record, and `bytes.TrimSpace`. -/
structure Codec where
  encode : Record → List UInt8
  decode : List UInt8 → Except String Record
  trimSpace : List UInt8 → List UInt8

/-- What the code relies on in the encoding of a record. -/
structure Codec.Lawful (e : Codec) (r : Record) : Prop where
  newline : 10 ∉ e.encode r
  trim : e.trimSpace (e.encode r) = e.encode r
  nonempty : e.encode r ≠ []
  decode : e.decode (e.encode r) = .ok r

/-- The file after `appendFile`. -/
def appendFile (e : Codec) (r : Record) (file : List UInt8) : List UInt8 := file ++ (e.encode r ++ [10])

/-- The loop of `LoadNDJSON`; `out` are the records that were read. -/
def loadLines (e : Codec) (out : List Record) : List (List UInt8) → Except String (List Record)
  | [] => .ok out
  | line :: lines =>
    if (e.trimSpace line).length = 0 then loadLines e out lines
    else
      match e.decode (e.trimSpace line) with
      | .error err => .error err
      | .ok r => loadLines e (out ++ [r]) lines

/-- `LoadNDJSON` of a file that can be read. -/
def loadNDJSON (e : Codec) (file : List UInt8) : Except String (List Record) :=
  loadLines e [] (file.splitOn 10)

/-- A store with the mirror file, perhaps with a signer, and the calls on it. -/
structure Session where
  signer : Bool := false
  sign : Digest → Except String (List UInt8 × String) := fun _ => .error ""
  calls : List Call

section Sessions

variable (hash : Signing.AuditBody → Except String Digest) (path : String) (e : Codec)

def Session.crypto (x : Session) : Crypto := { hash, sign := x.sign }

def mirror (c : Crypto) (w : Store × List UInt8) (k : Call) : Store × List UInt8 :=
  ((w.1.call c k).1,
    if w.1.path ≠ "" ∧ (w.1.call c k).2.2 = none then appendFile e (w.1.call c k).2.1 w.2 else w.2)

def Session.store (x : Session) : Store :=
  Store.run (x.crypto hash) { signer := x.signer, path } x.calls

def Session.file (file : List UInt8) (x : Session) : List UInt8 :=
  (x.calls.foldl (mirror e (x.crypto hash)) ({ signer := x.signer, path }, file)).2

/-- The file after sessions one after another, from a file that is there and empty. -/
def mirrorFile (xs : List Session) : List UInt8 := xs.foldl (Session.file hash path e) []

/-- Every call returns nil. -/
def Succeeds (c : Crypto) : Store → List Call → Prop
  | _, [] => True
  | s, k :: ks => (s.call c k).2.2 = none ∧ Succeeds c (s.call c k).1 ks

def Session.Succeeds (x : Session) : Prop :=
  Audit.Succeeds (x.crypto hash) { signer := x.signer, path } x.calls

def written (xs : List Session) : List Record := xs.flatMap fun x => (x.store hash path).records

end Sessions

def Request.operationID : Request → Signing.Bytes
  | .append x => x.operationID
  | .checkpoint _ => []

def callIDs (ks : List Call) : List Signing.Bytes :=
  (ks.map (·.request.operationID)).filter (· ≠ [])

/-! ## What a session writes -/

variable {e : Codec} {c : Crypto} {s : Store}

def lines (e : Codec) (l : List Record) : List UInt8 := l.flatMap fun r => e.encode r ++ [10]

theorem loadLines_lines {l : List Record} (h : ∀ r ∈ l, e.Lawful r) (hnil : e.trimSpace [] = [])
    (out : List Record) : loadLines e out ((lines e l).splitOn 10) = .ok (out ++ l) := by
  induction l generalizing out with
  | nil => simp [lines, loadLines, hnil]
  | cons r l ih =>
    have hr := h r (by simp)
    have hlen : (e.encode r).length ≠ 0 := by simpa using hr.nonempty
    have hsplit : (lines e (r :: l)).splitOn 10 = e.encode r :: (lines e l).splitOn 10 := by
      simp only [lines, List.flatMap_cons, List.append_assoc, List.singleton_append]
      exact List.splitOn_append_cons_self_of_not_mem hr.newline _
    rw [hsplit, loadLines, hr.trim, if_neg hlen, hr.decode]
    simp [ih (fun r' hr' => h r' (by simp [hr']))]

/-- A call that returns nil adds the record of its request. -/
theorem call_succeeds {k : Call} (h : (s.call c k).2.2 = none) :
    ∃ r, r.time = k.now ∧ (s.call c k).1 = s.push r ∧ (s.call c k).2.1 = r := by
  obtain ⟨-, herr⟩ | ⟨r, hr, happend⟩ := Store.append_cases s c k.now k.file (s.entry k.request)
  · exact absurd h herr
  · exact ⟨r, hr.time, congrArg Prod.fst happend, congrArg (·.2.1) happend⟩

theorem mirror_succeeds {ks : List Call} (hpath : s.path ≠ "") (h : Succeeds c s ks)
    (file : List UInt8) :
    ∃ l, l.length = ks.length ∧ (∀ r ∈ l, ∃ k ∈ ks, r.time = k.now) ∧
      (s.run c ks).records = s.records ++ l ∧
      (ks.foldl (mirror e c) (s, file)).2 = file ++ lines e l := by
  induction ks generalizing s file with
  | nil => exact ⟨[], rfl, by simp, by simp [Store.run], by simp [lines]⟩
  | cons k ks ih =>
    obtain ⟨hk, hks⟩ := h
    obtain ⟨r, hr, hpush, hanswer⟩ := call_succeeds hk
    have hpath' : (s.call c k).1.path ≠ "" := by rw [hpush]; exact hpath
    obtain ⟨l, hlen, hl, hrecords, hfile⟩ := ih hpath' hks (appendFile e r file)
    refine ⟨r :: l, by simp [hlen], ?_, ?_, ?_⟩
    · simp only [List.mem_cons, exists_eq_or_imp]
      rintro r' (rfl | hr')
      · exact .inl hr
      · exact .inr (hl r' hr')
    · have hrun : s.run c (k :: ks) = (s.call c k).1.run c ks := rfl
      rw [hrun, hrecords, hpush]
      simp [Store.push]
    · have hstep : mirror e c (s, file) k = ((s.call c k).1, appendFile e r file) := by
        simp [mirror, hk, hanswer, hpath]
      rw [List.foldl_cons, hstep, hfile]
      simp [appendFile, lines]

section Files

variable {hash : Signing.AuditBody → Except String Digest} {path : String} {x : Session} {xs : List Session}

/-- What a session answers and writes. -/
theorem Session.written (hpath : path ≠ "") (h : x.Succeeds hash path) (file : List UInt8) :
    (x.store hash path).records.length = x.calls.length ∧
      (∀ r ∈ (x.store hash path).records, ∃ k ∈ x.calls, r.time = k.now) ∧
      x.file hash path e file = file ++ lines e (x.store hash path).records := by
  obtain ⟨l, hlen, hl, hrecords, hfile⟩ := mirror_succeeds
    hpath h file
  rw [List.nil_append] at hrecords
  rw [store, hrecords]
  exact ⟨hlen, hl, hfile⟩

theorem mirrorFile_eq (hpath : path ≠ "") (h : ∀ x ∈ xs, x.Succeeds hash path) :
    mirrorFile hash path e xs = lines e (Audit.written hash path xs) := by
  suffices ∀ file, xs.foldl (Session.file hash path e) file =
      file ++ lines e (Audit.written hash path xs) by
    simpa [mirrorFile] using this []
  induction xs with
  | nil => simp [Audit.written, lines]
  | cons x xs ih =>
    intro file
    rw [List.foldl_cons, (Session.written hpath (h x (by simp)) file).2.2,
      ih (fun y hy => h y (by simp [hy]))]
    simp [Audit.written, lines]

def Session.Trusted (v : Verifier) (keys : Option Signing.TrustedKeys) (x : Session) : Prop :=
  x.signer = true → ∀ k ∈ x.calls, Trusts v keys x.sign k.now

variable {v : Verifier} {keys : Option Signing.TrustedKeys}

theorem Session.verified (hpath : path ≠ "") (h : x.Succeeds v.hash path)
    (htime : ∀ k ∈ x.calls, k.now ≠ 0) (htrusted : x.Trusted v keys) :
    Verified v keys (x.store v.hash path).records := by
  have hs : (x.store v.hash path).Chained (x.crypto v.hash) := (Store.Chained.new _ _).run _
  have htimes : ∀ r ∈ (x.store v.hash path).records, ∃ k ∈ x.calls, r.time = k.now :=
    (written (e := ⟨fun _ => [], fun _ => .error "", id⟩) hpath h []).2.1
  refine hs.verified rfl (fun r hr => ?_) fun hsigner r hr => ?_
  · obtain ⟨k, hk, hkr⟩ := htimes r hr
    rw [hkr]
    exact htime k hk
  · obtain ⟨k, hk, hkr⟩ := htimes r hr
    rw [hkr]
    exact htrusted (by rwa [store, Store.run_signer] at hsigner) k hk

theorem Session.records_ne_nil (hpath : path ≠ "") (h : x.Succeeds hash path) :
    (x.store hash path).records ≠ [] ↔ x.calls ≠ [] := by
  have hlen := (written (e := ⟨fun _ => [], fun _ => .error "", id⟩) hpath h []).1
  rw [← List.length_pos_iff, ← List.length_pos_iff, hlen]

def used (xs : List Session) : List Session := xs.filter fun x => x.calls ≠ []

theorem written_used (hpath : path ≠ "") (h : ∀ x ∈ xs, x.Succeeds hash path) :
    Audit.written hash path xs = Audit.written hash path (used xs) := by
  induction xs with
  | nil => rfl
  | cons x xs ih =>
    have hrest := ih fun y hy => h y (by simp [hy])
    by_cases hx : x.calls = []
    · have hnil : (x.store hash path).records = [] :=
        not_not.mp fun hne => (Session.records_ne_nil hpath (h x (by simp))).mp hne hx
      simpa [used, Audit.written, hx, hnil] using hrest
    · simpa [used, Audit.written, hx] using hrest

/-- A list in which a second chain begins is not accepted. -/
theorem not_verified_append {l l' : List Record} {r : Record} (hl : l ≠ [])
    (hlen : l.length < 2 ^ 63) (hone : r.sequence = 1) : ¬ Verified v keys (l ++ (r :: l')) := by
  intro h
  have hseq := h.numbered l.length r (by simp)
  rw [hone] at hseq
  have hnat := congrArg UInt64.toNat hseq
  have hpos := List.length_pos_iff.mpr hl
  rw [UInt64.toNat_add, UInt64.toNat_ofNat'] at hnat
  change 1 = (1 + _) % 2 ^ 64 at hnat
  omega

/-- **The audit file.** The file of sessions whose calls all succeed loads, and it verifies exactly if
at most one of the sessions was used. -/
theorem audit_file_verifies_iff (clock : Nat → Time) (hpath : path ≠ "")
    (hlawful : ∀ r ∈ Audit.written v.hash path xs, e.Lawful r) (hnil : e.trimSpace [] = [])
    (hsucceeds : ∀ x ∈ xs, x.Succeeds v.hash path) (htime : ∀ x ∈ xs, ∀ k ∈ x.calls, k.now ≠ 0)
    (htrusted : ∀ x ∈ xs, x.Trusted v keys)
    (hlen : (Audit.written v.hash path xs).length < 2 ^ 63) :
    ∃ recs, loadNDJSON e (mirrorFile v.hash path e xs) = .ok recs ∧
      ((verifyRecords v keys clock recs).ok = true ↔ (used xs).length ≤ 1) := by
  refine ⟨Audit.written v.hash path xs, ?_, ?_⟩
  · rw [mirrorFile_eq hpath hsucceeds]
    exact loadLines_lines hlawful hnil []
  rw [verifyRecords_ok]
  rw [written_used hpath hsucceeds] at hlen ⊢
  have hused : ∀ x ∈ used xs, x ∈ xs ∧ x.calls ≠ [] := by simp [used]
  rcases hys : used xs with _ | ⟨x, _ | ⟨y, ys⟩⟩
  · simp [Audit.written, verifiedFrom_nil]
  · obtain ⟨hx, -⟩ := hused x (by simp [hys])
    simpa [Audit.written] using
      Session.verified hpath (hsucceeds x hx) (htime x hx) (htrusted x hx)
  · -- the chain of `y` begins after that of `x`
    rw [hys] at hused hlen
    obtain ⟨hx, hxne⟩ := hused x (by simp)
    obtain ⟨hy, hyne⟩ := hused y (by simp)
    have hxrecords := (Session.records_ne_nil hpath (hsucceeds x hx)).mpr hxne
    have hyrecords := (Session.records_ne_nil hpath (hsucceeds y hy)).mpr hyne
    have hychain : (y.store v.hash path).Chained (y.crypto v.hash) := (Store.Chained.new _ _).run _
    obtain ⟨r, l, hrl⟩ := List.exists_cons_of_ne_nil hyrecords
    have hone : r.sequence = 1 := by simpa using hychain.numbered 0 r (by rw [hrl]; rfl)
    have hwritten : Audit.written v.hash path (x :: y :: ys) =
        (x.store v.hash path).records ++ (r :: (l ++ Audit.written v.hash path ys)) := by
      simp [Audit.written, hrl]
    rw [hwritten] at hlen ⊢
    have hxlen : (x.store v.hash path).records.length < 2 ^ 63 := by
      rw [List.length_append] at hlen
      omega
    simpa using not_verified_append hxrecords hxlen hone

end Files

/-! ### A sample file -/

/-- The numbers of a JSON array of bytes. -/
def bytesText (l : List UInt8) : String := ",".intercalate (l.map fun b => toString b.toNat)

def sampleJSON (r : Record) : String :=
  "\x7b\"sequence\":" ++ toString r.sequence.toNat ++ ",\"previous_hash\":["
    ++ bytesText r.previousHash.val ++ "],\"record_hash\":[" ++ bytesText r.recordHash.val
    ++ "],\"time\":\"1970-01-01T00:00:00Z\",\"actor\":\x7b\"id\":\"op\",\"type\":\"user\"\x7d"
    ++ ",\"action\":\"deploy\",\"resource\":\"svc\",\"result\":\"ok\",\"operation_id\":\""
    ++ String.ofList (Json.decode r.operationID) ++ "\"\x7d"

/-- Two stores one after another, each with one operation. -/
def sampleSessions : List Session :=
  [{ calls := [sampleAppend "op-1"] }, { calls := [sampleAppend "op-2"] }]

def sampleWritten : List Record := written Verifier.sample.hash "audit.ndjson" sampleSessions

/-- The encoding of the records of the sample sessions; a line is decoded by looking for its record. -/
def Codec.sample : Codec where
  encode r := utf8 (sampleJSON r)
  decode line :=
    match sampleWritten.find? fun r => utf8 (sampleJSON r) == line with
    | some r => .ok r
    | none => .error "invalid character"
  trimSpace line :=
    ((line.dropWhile fun b => b ∈ [9, 10, 11, 12, 13, 32]).reverse.dropWhile fun b =>
      b ∈ [9, 10, 11, 12, 13, 32]).reverse

theorem Codec.sample_lawful : ∀ r ∈ sampleWritten, sample.Lawful r := by
  have h : ∀ r ∈ sampleWritten, 10 ∉ sample.encode r ∧
      sample.trimSpace (sample.encode r) = sample.encode r ∧
      sample.encode r ≠ [] ∧
      (sample.decode (sample.encode r)).toOption = some r := by
    decide +kernel
  intro r hr
  obtain ⟨hnewline, htrim, hne, hdecode⟩ := h r hr
  refine ⟨hnewline, htrim, hne, ?_⟩
  cases hread : sample.decode (sample.encode r) with
  | error text => simp [hread, Except.toOption] at hdecode
  | ok r' => simpa [hread, Except.toOption] using hdecode

theorem sampleSessions_succeed :
    ∀ x ∈ sampleSessions, x.Succeeds Verifier.sample.hash "audit.ndjson" := by
  simp only [sampleSessions, List.mem_cons, List.not_mem_nil, or_false]
  rintro x (rfl | rfl)
  · exact ⟨by decide +kernel, trivial⟩
  · exact ⟨by decide +kernel, trivial⟩

/-- The file of the sample sessions verifies exactly if at most one of them was used. -/
theorem audit_file_sample :
    ∃ recs, loadNDJSON .sample (mirrorFile Verifier.sample.hash "audit.ndjson" .sample sampleSessions)
        = .ok recs ∧
      ((verifyRecords .sample (some sampleKeys) (fun _ => 0) recs).ok = true ↔
        (used sampleSessions).length ≤ 1) :=
  audit_file_verifies_iff _ (by decide) Codec.sample_lawful (by decide) sampleSessions_succeed
    (by decide +kernel) (by simp [sampleSessions, Session.Trusted]) (by decide +kernel)

/-- The file of two stores with one operation each does not verify. -/
theorem audit_file_restart_rejected :
    (∀ r ∈ sampleWritten, Codec.sample.Lawful r) ∧
      (∀ x ∈ sampleSessions, x.Succeeds Verifier.sample.hash "audit.ndjson") ∧
      (sampleSessions.flatMap fun x => callIDs x.calls).Nodup ∧
      (loadNDJSON .sample
          (mirrorFile Verifier.sample.hash "audit.ndjson" .sample sampleSessions)).toOption.map
        (fun recs => (verifyRecords .sample (some sampleKeys) (fun _ => 0) recs).ok) = some false :=
  ⟨Codec.sample_lawful, sampleSessions_succeed, by decide +kernel, by decide +kernel⟩

end ShiftLock.Audit
