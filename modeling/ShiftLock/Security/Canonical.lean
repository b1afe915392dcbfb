import ShiftLock.Json.Print
import ShiftLock.Json.Object
import ShiftLock.Json.Text
import Mathlib.Data.List.Lex
import Mathlib.Data.List.Nodup
import Mathlib.Data.Char

/-!
# Canonical JSON (`CanonicalJSON` of `security/signing/signing.go`)

`CanonicalJSON` marshals a value, unmarshals the text into untyped values, normalizes those and marshals
them again. `encoding/json`, `time.Time.MarshalJSON` and the decoding of raw content are parameters
(`Codec`) where their text is not written out in `Json`: strings come back as the characters of their
bytes (`Json.decode`), integers as the nearest binary64 number (`Json.float64`), records as maps without
the fields that `omitempty` leaves out.
-/

namespace ShiftLock.Signing

open Json

/-- A string of the source: any bytes. -/
abbrev Bytes := List UInt8

/-! ## Untyped values -/

/-- What `json.Unmarshal` makes of a text: every object is a map. -/
inductive Canonical {ν : Type} : Value ν → Prop
  | null : Canonical .null
  | bool (b : Bool) : Canonical (.bool b)
  | num (x : ν) : Canonical (.num x)
  | str (s : List Char) : Canonical (.str s)
  | arr {items : List (Value ν)} (h : ∀ v ∈ items, Canonical v) : Canonical (.arr items)
  | obj {members : List (List Char × Value ν)} (hs : Object.Sorted members)
      (h : ∀ e ∈ members, Canonical e.2) : Canonical (.obj members)

section Normalize

variable {ν : Type}

mutual

def normalize : Value ν → Value ν
  | .arr items => .arr (normalizeItems items)
  -- The keys are visited in their order, and `out[k]` is assigned for each.
  | .obj members => .obj (Object.ofList (normalizeMembers members))
  | v => v

/-- The loop of `normalize` over an array. -/
def normalizeItems : List (Value ν) → List (Value ν)
  | [] => []
  | v :: vs => normalize v :: normalizeItems vs

/-- The loop of `normalize` over the entries of a map. -/
def normalizeMembers : List (List Char × Value ν) → List (List Char × Value ν)
  | [] => []
  | (k, v) :: ms => (k, normalize v) :: normalizeMembers ms

end

theorem normalizeItems_eq {items : List (Value ν)} (h : ∀ v ∈ items, normalize v = v) :
    normalizeItems items = items := by
  induction items with
  | nil => rfl
  | cons v vs ih =>
    rw [normalizeItems, h v List.mem_cons_self, ih fun w hw => h w (List.mem_cons_of_mem _ hw)]

theorem normalizeMembers_eq {members : List (List Char × Value ν)}
    (h : ∀ e ∈ members, normalize e.2 = e.2) : normalizeMembers members = members := by
  induction members with
  | nil => rfl
  | cons e ms ih =>
    obtain ⟨k, v⟩ := e
    rw [normalizeMembers, h (k, v) List.mem_cons_self, ih fun w hw => h w (List.mem_cons_of_mem _ hw)]

/-- The maps of the decoder are in order already. -/
theorem normalize_canonical {v : Value ν} (h : Canonical v) : normalize v = v := by
  induction h with
  | null | bool | num | str => rw [normalize] <;> simp
  | arr _ ih => rw [normalize, normalizeItems_eq ih]
  | obj hs _ ih => rw [normalize, normalizeMembers_eq ih, Object.ofList_of_sorted hs]

end Normalize

/-! ## The codec -/

/-- `encoding/json` and `time` as far as their texts are not spelled out here. -/
structure Codec (ν : Type) where
  /-- The number that is read for an integer. -/
  ofInt : Int → ν
  ofInt_injective : ∀ m n, ofInt (float64 m) = ofInt (float64 n) → float64 m = float64 n
  /-- How a number is written. -/
  format : Format ν
  /-- `time.Time.MarshalJSON` for a reading of the clock and the zone in minutes, if it is not UTC; it
  fails outside of the years 0 to 9999. -/
  time : Int → Option Int → Option (List Char)
  time_injective : ∀ w z w' z' t, time w z = some t → time w' z' = some t → w = w' ∧ z = z'
  /-- `json.Unmarshal` of a `json.RawMessage`. -/
  raw : Bytes → Option (Value ν)
  raw_canonical : ∀ b v, raw b = some v → Canonical v

namespace Codec

variable {ν : Type} (C : Codec ν)

def str (s : Bytes) : Value ν := .str (decode s)

/-- An integer field. -/
def int (n : Int) : Value ν := .num (C.ofInt (float64 n))

/-- A field with `omitempty`. -/
def omitempty {α : Type} [DecidableEq α] (zero : α) (write : α → Value ν) (x : α) : Option (Value ν) :=
  if x = zero then none else some (write x)

def strs (l : List Bytes) : Value ν := .arr (l.map str)

def record (fs : List (String × Option (Value ν))) : Value ν :=
  .obj (Object.ofFields (fs.map fun f => (f.1.toList, f.2)))

/-- `CanonicalJSON`, for what marshalling and unmarshalling make of a value. -/
def canonicalJSON (v : Value ν) : Bytes := encode (C.format.print (normalize v))

theorem canonicalJSON_inj {v v' : Value ν} (h : Canonical v) (h' : Canonical v') :
    C.canonicalJSON v = C.canonicalJSON v' ↔ v = v' := by
  constructor
  · intro heq
    have hprint := congrArg decode heq
    rw [canonicalJSON, canonicalJSON, decode_encode, decode_encode, normalize_canonical h,
      normalize_canonical h'] at hprint
    exact Format.print_injective hprint
  · rintro rfl
    rfl

/-! ### Fields -/

/-- The field is left out, or holds a value of the decoder. -/
def Decoded (o : Option (Value ν)) : Prop := ∀ v ∈ o, Canonical v

theorem decoded_some {v : Value ν} (h : Canonical v) : Decoded (some v) := by
  intro w hw
  exact Option.some.inj hw ▸ h

theorem decoded_omitempty {α : Type} [DecidableEq α] {zero : α} {write : α → Value ν} {x : α}
    (h : Canonical (write x)) : Decoded (omitempty zero write x) := by
  rw [omitempty]
  split
  · intro w hw
    cases hw
  · exact decoded_some h

theorem strs_canonical (l : List Bytes) : Canonical (strs l : Value ν) := by
  refine .arr fun v hv => ?_
  obtain ⟨s, -, rfl⟩ := List.mem_map.mp hv
  exact .str _

theorem record_canonical {fs : List (String × Option (Value ν))} (h : ∀ f ∈ fs, Decoded f.2) :
    Canonical (record fs) := by
  refine .obj (Object.ofList_sorted _) fun e he => ?_
  obtain ⟨f, hf, heq⟩ := List.mem_map.mp (Object.mem_present (Object.mem_ofList he))
  exact h f hf e.2 (Prod.ext_iff.mp heq).2

theorem str_inj {s s' : Bytes} : (str s : Value ν) = str s' ↔ decode s = decode s' := by
  simp [str]

theorem int_inj {m n : Int} : C.int m = C.int n ↔ float64 m = float64 n := by
  simp only [int, Value.num.injEq]
  exact ⟨C.ofInt_injective m n, fun h => by rw [h]⟩

/-- What is left out is told apart from what is written. -/
theorem omitempty_inj {α β : Type} [DecidableEq α] {zero x y : α} {write : α → Value ν}
    {r : α → β} (hzero : ∀ x, r x = r zero ↔ x = zero)
    (hwrite : write x = write y ↔ r x = r y) :
    omitempty zero write x = omitempty zero write y ↔ r x = r y := by
  by_cases hx : x = zero
  · by_cases hy : y = zero
    · simp [omitempty, hx, hy]
    · have hne : ¬ r zero = r y := fun h => hy ((hzero y).mp h.symm)
      simp [omitempty, hx, hy, hne]
  · by_cases hy : y = zero
    · have hne : ¬ r x = r zero := fun h => hx ((hzero x).mp h)
      simp [omitempty, hx, hy, hne]
    · simp [omitempty, hx, hy, hwrite]

theorem record_inj (names : List String) (hn : names.Nodup) {fs fs' : List (String × Option (Value ν))}
    (h : fs.map Prod.fst = names) (h' : fs'.map Prod.fst = names) :
    record fs = record fs' ↔ fs = fs' := by
  have hkeys : ∀ fs : List (String × Option (Value ν)),
      (fs.map fun f => (f.1.toList, f.2)).map Prod.fst = (fs.map Prod.fst).map String.toList := by
    simp
  have hpair : Function.Injective fun f : String × Option (Value ν) => (f.1.toList, f.2) := by
    intro f g hfg
    exact Prod.ext (String.toList_injective (Prod.ext_iff.mp hfg).1) (Prod.ext_iff.mp hfg).2
  constructor
  · intro heq
    refine List.map_injective_iff.mpr hpair (Object.ofFields_injective ?_ ?_ (Value.obj.inj heq))
    · rw [hkeys, h]
      exact List.Nodup.map (fun _ _ => String.toList_injective) hn
    · rw [hkeys, hkeys, h, h']
  · rintro rfl
    rfl

end Codec

end ShiftLock.Signing
