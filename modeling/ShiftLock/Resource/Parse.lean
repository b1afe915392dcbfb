import ShiftLock.Types
import ShiftLock.Json.Text

/-!
# The text of a resource ID (`resource/id.go`, `kind.go`)

Four segments with slashes between them, as byte strings: a Go string need not be text. The characters
of a segment are those that `range` gives (`Json.decode`), where a byte that starts no character is the
replacement character. The custom kinds are a parameter.

`validateSegment` knows the ASCII control characters only, so that an ID can have others
(`control_accepted`).
-/

namespace ShiftLock.Resource

open Json

/-- A Go string. -/
abbrev Bytes := List UInt8

structure ResourceID where
  kind : Bytes := []
  environment : Bytes := []
  service : Bytes := []
  name : Bytes := []
  deriving DecidableEq, Repr

inductive Sentinel where
  | invalidID | unknownKind
  deriving DecidableEq, Repr

/-- The message of an error: a text, or the text `unknown kind` with the kind in quotes. -/
inductive Message where
  | text (s : String)
  | unknownKind (kind : Bytes)
  deriving DecidableEq, Repr

structure Error where
  op : String
  id : ResourceID := {}
  err : Sentinel
  message : Message
  deriving DecidableEq, Repr

def builtinKinds : List String :=
  ["database", "queue", "stream", "cache", "filesystem", "object-store", "http-service",
    "grpc-service", "worker", "scheduler", "deployment", "configuration", "secret-reference",
    "rate-limit", "feature", "custom"]

/-- `ValidKind`. -/
def validKind (customKinds : List Bytes) (k : Bytes) : Bool :=
  k ∈ builtinKinds.map utf8 ∨ k ∈ customKinds

/-- The byte of `/`. -/
def slash : UInt8 := 47

/-- `String`. -/
def string (id : ResourceID) : Bytes :=
  id.kind ++ slash :: id.environment ++ slash :: id.service ++ slash :: id.name

/-- The characters of `unicode.IsSpace`. -/
def spaces : List Char :=
  [0x9, 0xA, 0xB, 0xC, 0xD, 0x20, 0x85, 0xA0, 0x1680, 0x2000, 0x2001, 0x2002, 0x2003, 0x2004, 0x2005,
    0x2006, 0x2007, 0x2008, 0x2009, 0x200A, 0x2028, 0x2029, 0x202F, 0x205F, 0x3000].map Char.ofNat

def validateSegment (s : Bytes) : Option String :=
  if s = [] then some "empty segment"
  else if slash ∈ s then some "segment must not contain '/'"
  else (decode s).findSome? fun r =>
    if r ∈ spaces then some "segment must not contain whitespace"
    else if r.toNat < 0x20 ∨ r.toNat = 0x7f then some "segment contains control character"
    else none

def segments (id : ResourceID) : List Bytes := [id.kind, id.environment, id.service, id.name]

def validate (id : ResourceID) : Option Error :=
  let invalid (message : String) : Error :=
    { op := "ResourceID.Validate", id, err := .invalidID, message := .text message }
  if [] ∈ segments id then some (invalid "all segments required")
  else ((segments id).findSome? validateSegment).map invalid

/-- The string after its first `k` bytes, without the prefixes in `ps` it begins with. -/
def stripFrom (ps : List Bytes) : Nat → Bytes → Bytes
  | _, [] => []
  | k + 1, _ :: s => stripFrom ps k s
  | 0, b :: s =>
    match ps.find? (·.isPrefixOf (b :: s)) with
    | some p => stripFrom ps (p.length - 1) s
    | none => b :: s

/-- The encodings of the spaces. -/
def spaceBytes : List Bytes := spaces.map String.utf8EncodeChar

/-- `strings.TrimSpace`: whole characters go, from the left and from the right. -/
def trimSpace (s : Bytes) : Bytes :=
  (stripFrom (spaceBytes.map List.reverse) 0 (stripFrom spaceBytes 0 s).reverse).reverse

def parseResourceID (customKinds : List Bytes) (s : Bytes) : Except Error ResourceID :=
  match (trimSpace s).splitOn slash with
  | [kind, environment, service, name] =>
    let id : ResourceID := { kind, environment, service, name }
    match validate id with
    | some err => .error err
    | none =>
      if validKind customKinds id.kind then .ok id
      else .error { op := "ParseResourceID", id, err := .unknownKind, message := .unknownKind id.kind }
  | _ => .error
      { op := "ParseResourceID", err := .invalidID
        message := .text "want kind/environment/service/name" }

/-! ## Valid IDs -/

/-- A segment is not empty and has no slash, whitespace or ASCII control character. -/
def Segment (s : Bytes) : Prop :=
  s ≠ [] ∧ slash ∉ s ∧ ∀ c ∈ decode s, c ∉ spaces ∧ 0x20 ≤ c.toNat ∧ c.toNat ≠ 0x7f

theorem validateSegment_eq_none {s : Bytes} : validateSegment s = none ↔ Segment s := by
  unfold validateSegment Segment
  split
  · rename_i hempty
    simp [hempty]
  split
  · rename_i hslash
    simp [hslash]
  · rename_i hne hslash
    rw [List.findSome?_eq_none_iff]
    refine ⟨fun h => ⟨hne, hslash, fun c hc => ?_⟩, fun h c hc => ?_⟩
    · have hc := h c hc
      split at hc
      · cases hc
      split at hc
      · cases hc
      · rename_i hspace hcontrol
        rw [not_or, Nat.not_lt] at hcontrol
        exact ⟨hspace, hcontrol⟩
    · obtain ⟨hspace, hcontrol⟩ := h.2.2 c hc
      rw [if_neg hspace, if_neg (by omega)]

theorem validate_eq_none {id : ResourceID} : validate id = none ↔ ∀ s ∈ segments id, Segment s := by
  unfold validate
  split
  · rename_i hempty
    simp only [reduceCtorEq, false_iff]
    exact fun h => (h _ hempty).1 rfl
  · rw [Option.map_eq_none_iff, List.findSome?_eq_none_iff]
    simp only [validateSegment_eq_none]

theorem string_eq (id : ResourceID) : string id = [slash].intercalate (segments id) := by
  simp [string, segments, List.intercalate]

theorem stripFrom_of_none {ps : List Bytes} {s : Bytes} (h : ∀ p ∈ ps, ¬ p <+: s) :
    stripFrom ps 0 s = s := by
  cases s with
  | nil => rfl
  | cons b s =>
    have hnone : ps.find? (·.isPrefixOf (b :: s)) = none :=
      List.find?_eq_none.mpr fun p hp => by simpa using h p hp
    rw [stripFrom, hnone]

theorem slash_notMem_spaceBytes : ∀ p ∈ spaceBytes, slash ∉ p := by decide +kernel

/-- What has no slash and begins a text with a slash begins the part before it. -/
theorem isPrefix_of_slash {p s t : Bytes} (hp : slash ∉ p) (h : p <+: s ++ slash :: t) : p <+: s := by
  rcases List.prefix_or_prefix_of_prefix h (List.prefix_append s (slash :: t)) with hps | ⟨r, rfl⟩
  · exact hps
  cases r with
  | nil => simp
  | cons b r =>
    rw [List.prefix_append_right_inj] at h
    obtain rfl := (List.cons_prefix_cons.mp h).1
    simp at hp

/-- The text of a valid ID has no whitespace around it. -/
theorem trimSpace_string {id : ResourceID} (h : ∀ seg ∈ segments id, Segment seg) :
    trimSpace (string id) = string id := by
  have hleft : stripFrom spaceBytes 0 (string id) = string id := by
    refine stripFrom_of_none fun p hp hprefix => ?_
    obtain ⟨c, hc, rfl⟩ := List.mem_map.mp hp
    rw [string, List.append_assoc, List.append_assoc] at hprefix
    obtain ⟨t, ht⟩ := isPrefix_of_slash (slash_notMem_spaceBytes _ hp) hprefix
    have hmem : c ∈ decode id.kind := by
      rw [← ht, decode_char]
      exact List.mem_cons_self
    exact ((h id.kind (by simp [segments])).2.2 c hmem).1 hc
  have hright : stripFrom (spaceBytes.map List.reverse) 0 (string id).reverse = (string id).reverse := by
    refine stripFrom_of_none fun p hp hprefix => ?_
    obtain ⟨q, hq, rfl⟩ := List.mem_map.mp hp
    obtain ⟨c, hc, rfl⟩ := List.mem_map.mp hq
    rw [string, List.reverse_append, List.reverse_cons, List.append_assoc, List.singleton_append] at hprefix
    have hslash : slash ∉ (String.utf8EncodeChar c).reverse := by
      simpa using slash_notMem_spaceBytes _ hq
    obtain ⟨t, ht⟩ := List.reverse_prefix.mp (isPrefix_of_slash hslash hprefix)
    have hmem : c ∈ decode id.name := by
      rw [← ht]
      exact mem_decodeFrom_append_char c (Nat.zero_le _)
    exact ((h id.name (by simp [segments])).2.2 c hmem).1 hc
  rw [trimSpace, hleft, hright, List.reverse_reverse]

theorem parse_eq_ok {kinds : List Bytes} {s : Bytes} {id : ResourceID} :
    parseResourceID kinds s = .ok id ↔
      string id = trimSpace s ∧ (∀ seg ∈ segments id, Segment seg) ∧ validKind kinds id.kind := by
  constructor
  · intro h
    unfold parseResourceID at h
    split at h
    · rename_i hsplit
      dsimp only at h
      split at h
      · cases h
      rename_i hvalid
      split at h
      · rename_i hkind
        cases h
        refine ⟨?_, validate_eq_none.mp hvalid, hkind⟩
        rw [string_eq, ← @List.intercalate_splitOn _ (trimSpace s) _ _ slash, hsplit]
        simp [segments]
      · cases h
    · cases h
  · rintro ⟨htext, hseg, hkind⟩
    have hsplit := List.splitOn_intercalate slash (fun seg hs => (hseg seg hs).2.1) (by simp [segments])
    rw [← string_eq, htext] at hsplit
    unfold parseResourceID
    rw [hsplit]
    simp [segments, validate_eq_none.mpr hseg, hkind]

/-- **One canonical text.** `ParseResourceID` accepts the texts of the valid IDs of a known kind, with
whitespace around them, and no two valid IDs have the same text. -/
theorem resourceID_text (kinds : List Bytes) :
    (∀ s, (∃ id, parseResourceID kinds s = .ok id) ↔
      ∃ kind environment service name, trimSpace s =
          [slash].intercalate [kind, environment, service, name] ∧
        (∀ seg ∈ [kind, environment, service, name], Segment seg) ∧ validKind kinds kind) ∧
    (∀ s id, parseResourceID kinds s = .ok id → string id = trimSpace s) ∧
    (∀ id, validate id = none → validKind kinds id.kind → parseResourceID kinds (string id) = .ok id) ∧
    ∀ id id', validate id = none → validate id' = none → string id = string id' → id = id' := by
  -- A valid ID is parsed from its own text, with any kinds that have its own.
  have hself (kinds : List Bytes) (id : ResourceID) (hid : validate id = none)
      (hkind : validKind kinds id.kind) : parseResourceID kinds (string id) = .ok id := by
    have hseg := validate_eq_none.mp hid
    exact parse_eq_ok.mpr ⟨(trimSpace_string hseg).symm, hseg, hkind⟩
  refine ⟨fun s => ⟨?_, ?_⟩, fun s id h => (parse_eq_ok.mp h).1, hself kinds, fun id id' hid hid' heq => ?_⟩
  · rintro ⟨id, h⟩
    obtain ⟨htext, hseg, hkind⟩ := parse_eq_ok.mp h
    exact ⟨id.kind, id.environment, id.service, id.name, htext ▸ string_eq id, hseg, hkind⟩
  · rintro ⟨kind, environment, service, name, htext, hseg, hkind⟩
    exact ⟨⟨kind, environment, service, name⟩, parse_eq_ok.mpr ⟨htext ▸ string_eq _, hseg, hkind⟩⟩
  · have h := hself [id.kind, id'.kind] id hid (by simp [validKind])
    rw [heq, hself [id.kind, id'.kind] id' hid' (by simp [validKind])] at h
    exact (Except.ok.inj h).symm

/-- `unicode.IsControl`. -/
def isControl (c : Char) : Bool := c.toNat < 0x20 ∨ 0x7f ≤ c.toNat ∧ c.toNat ≤ 0x9f

/-- Control characters that are not ASCII are accepted in a segment, and so is a byte that is no text. -/
theorem control_accepted :
    (isControl (Char.ofNat 0x80) ∧ isControl (Char.ofNat 0x9b)) ∧
    parseResourceID [] (utf8 "database/\u0080/svc/\u009b") =
      .ok ⟨utf8 "database", utf8 "\u0080", utf8 "svc", utf8 "\u009b"⟩ ∧
    parseResourceID [] (utf8 "database/" ++ 255 :: utf8 "/pay/orders") =
      .ok ⟨utf8 "database", [255], utf8 "pay", utf8 "orders"⟩ := by
  decide +kernel

end ShiftLock.Resource
