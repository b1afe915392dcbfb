import ShiftLock.Audit.Chain
import ShiftLock.Conc.Run
import Mathlib.Order.Nat

/-!
# What callers of an audit store share with it

A `Record` is a value, but its metadata is a map and its signature a slice: copies of a record point
to the same ones. `Append` copies the map that it is given; what it returns, and what `Checkpoint` and
`Records` return, shares metadata and signatures with the records of the store.

The state has the maps and byte arrays by their addresses, the records of the store as values that
point to them, and what the caller has: the maps it made and the records it got back. The caller can
write to the maps and bytes it can reach. Next to it runs the store of `ShiftLock.Audit.Store`, where
records are not shared. The two agree as long as the caller writes to its own maps only
(`store_unaltered`); a write to a signature that was returned changes the store
(`signature_altered`).
-/

namespace ShiftLock.Audit
namespace Alias

open Conc Function Signing
open Json (utf8)

/-- The maps, with their entries, and the byte arrays. -/
structure Heap where
  maps : Nat → Metadata := fun _ => {}
  bytes : Nat → List UInt8 := fun _ => []
  nextMap : Nat := 0
  nextBytes : Nat := 0

/-- A value of the type `Record`; its metadata and its signature are references or nil, and those of
`fields` are not used. -/
structure Cell where
  fields : Record := {}
  metadata : Option Nat := none
  signature : Option Nat := none

def Cell.read (h : Heap) (x : Cell) : Record :=
  { x.fields with
    metadata := (x.metadata.map h.maps).getD {}
    signature := (x.signature.map h.bytes).getD [] }

def Cell.hashed (x : Cell) (d : Digest) : Cell := { x with fields := { x.fields with recordHash := d } }

namespace Heap

def newMap (h : Heap) (m : Metadata) : Heap :=
  { h with maps := update h.maps h.nextMap m, nextMap := h.nextMap + 1 }

/-- A new byte array. -/
def newBytes (h : Heap) (b : List UInt8) : Heap :=
  { h with bytes := update h.bytes h.nextBytes b, nextBytes := h.nextBytes + 1 }

/-- `copyMeta` of a map with the given entries, or of nil. -/
def copyMeta (h : Heap) : Option (Metadata) → Heap × Option Nat
  | none => (h, none)
  | some m => (h.newMap m, some h.nextMap)

end Heap

/-- The arguments of `Append` besides the metadata. -/
structure Args where
  actor : Actor
  action : Bytes
  resource : Bytes
  result : Bytes
  operationID : Bytes

/-- The arguments with the entries of the metadata. -/
def Args.entry (x : Args) (metadata : Metadata) : Entry where
  actor := x.actor
  action := x.action
  resource := x.resource
  result := x.result
  operationID := x.operationID
  metadata

structure State where
  heap : Heap := {}
  records : List Cell := []
  ops : Bytes → Option UInt64 := fun _ => none
  signer : Bool := false
  path : String := ""
  /-- The maps that the caller made. -/
  own : List Nat := []
  /-- The records that the caller got back. -/
  returned : List Cell := []

def State.view (w : State) : Store where
  records := w.records.map (·.read w.heap)
  ops := w.ops
  signer := w.signer
  path := w.path

namespace State

/-- The record of `Append` before it is hashed. -/
def draft (w : State) (now : Time) (x : Args) (metadata : Option Nat) : Cell where
  fields := {
    sequence := (w.records.getLast?.map (·.fields.sequence + 1)).getD 1
    previousHash := (w.records.getLast?.map (·.fields.recordHash)).getD zeroDigest
    time := now
    actor := x.actor
    action := x.action
    resource := x.resource
    result := x.result
    operationID := x.operationID }
  metadata

def signed (w : State) (c : Crypto) (h : Heap) (r : Cell) : Except String (Heap × Cell) :=
  if w.signer then
    (c.sign r.fields.recordHash).map fun sig => (h.newBytes sig.1,
      { r with fields := { r.fields with keyID := sig.2 }, signature := some h.nextBytes })
  else .ok (h, r)

/-- The record is appended, and its operation ID is taken. -/
def push (w : State) (h : Heap) (r : Cell) : State :=
  { w with
    heap := h
    records := w.records ++ [r]
    ops := if r.fields.operationID = [] then w.ops
      else update w.ops r.fields.operationID (some r.fields.sequence) }

/-- `Append` with the entries of the map it is given, or nil. -/
def append (w : State) (c : Crypto) (now : Time) (file : Option String) (x : Args)
    (metadata : Option (Metadata)) : State × Cell × Option AppendError :=
  match if x.operationID = [] then none else w.ops x.operationID with
  | some seq => (w, {}, some (.duplicateOp x.operationID seq))
  | none =>
    let h := (w.heap.copyMeta metadata).1
    let r := w.draft now x (w.heap.copyMeta metadata).2
    match c.hash (r.read h).body with
    | .error text => ({ w with heap := h }, {}, some (.hash text))
    | .ok d =>
      match w.signed c h (r.hashed d) with
      | .error text => ({ w with heap := h }, {}, some (.sign text))
      | .ok out => (w.push out.1 out.2, out.2, if w.path = "" then none else file.map .file)

/-- The arguments of the `Append` of `Checkpoint`. -/
def checkpointArgs (actor : Actor) : Args where
  actor
  action := utf8 "audit.checkpoint"
  resource := []
  result := utf8 "ok"
  operationID := []

/-- The metadata of the `Append` of `Checkpoint`. -/
def checkpointMeta (w : State) : Metadata :=
  .ofList [(utf8 "checkpoint", utf8 "true"),
    (utf8 "tip_hash", utf8 ((w.records.getLast?.map fun r => hex r.fields.recordHash).getD ""))]

end State

/-! ## The caller -/

/-- What the caller does; a write replaces the entries of a map, or one byte. -/
inductive Op where
  | newMap (m : Metadata)
  | append (now : Time) (file : Option String) (x : Args) (metadata : Option Nat)
  | checkpoint (now : Time) (file : Option String) (actor : Actor)
  | records
  | verify
  | writeMap (a : Nat) (m : Metadata)
  | writeBytes (a : Nat) (i : Nat) (b : UInt8)

/-- The reading of the clock in an operation. -/
def Op.time : Op → Option Time
  | .append now _ _ _ | .checkpoint now _ _ => some now
  | _ => none

namespace State

/-- The caller can reach the map. -/
def holdsMap (w : State) (a : Nat) : Bool := a ∈ w.own ∨ a ∈ w.returned.filterMap (·.metadata)

/-- The caller can reach the bytes. -/
def holdsBytes (w : State) (a : Nat) : Bool := a ∈ w.returned.filterMap (·.signature)

/-- The caller gets a record back. -/
def giveBack (out : State × Cell × Option AppendError) : State :=
  { out.1 with returned := out.1.returned ++ [out.2.1] }

/-- One operation; nothing happens to what the caller cannot reach. -/
def step (c : Crypto) (w : State) : Op → State
  | .newMap m => { w with heap := w.heap.newMap m, own := w.own ++ [w.heap.nextMap] }
  | .append now file x metadata =>
    if metadata.all w.holdsMap then
      giveBack (w.append c now file x (metadata.map w.heap.maps))
    else w
  | .checkpoint now file actor =>
    giveBack (w.append c now file (checkpointArgs actor) (some w.checkpointMeta))
  | .records => { w with returned := w.returned ++ w.records }
  | .verify => w
  | .writeMap a m =>
    if w.holdsMap a then { w with heap := { w.heap with maps := update w.heap.maps a m } }
    else w
  | .writeBytes a i b =>
    if w.holdsBytes a then
      { w with heap := { w.heap with
          bytes := update w.heap.bytes a ((w.heap.bytes a).set i b) } }
    else w

end State

/-- What the operation does to a store whose records are not shared: `Append` takes the entries that
the map has at the call. -/
def unshared (c : Crypto) (w : State) (s : Store) : Op → Store
  | .append now file x metadata =>
    if metadata.all w.holdsMap then
      (s.append c now file (x.entry ((metadata.map w.heap.maps).getD {}))).1
    else s
  | .checkpoint now file actor => (s.append c now file (s.checkpointEntry actor)).1
  | _ => s

/-- One operation on both. -/
def track (c : Crypto) (p : State × Store) (op : Op) : State × Store :=
  (p.1.step c op, unshared c p.1 p.2 op)

/-! ## Frames -/

/-- The references of a record are allocated. -/
structure Cell.In (h : Heap) (x : Cell) : Prop where
  metadata : ∀ a ∈ x.metadata, a < h.nextMap
  signature : ∀ a ∈ x.signature, a < h.nextBytes

structure Heap.Extends (h h' : Heap) : Prop where
  nextMap : h.nextMap ≤ h'.nextMap
  nextBytes : h.nextBytes ≤ h'.nextBytes
  maps : ∀ a < h.nextMap, h'.maps a = h.maps a
  bytes : ∀ a < h.nextBytes, h'.bytes a = h.bytes a

variable {h h' h'' : Heap} {x r : Cell}

theorem Heap.Extends.refl (h : Heap) : h.Extends h :=
  ⟨le_refl _, le_refl _, fun _ _ => rfl, fun _ _ => rfl⟩

theorem Heap.Extends.trans (h₁ : h.Extends h') (h₂ : h'.Extends h'') : h.Extends h'' where
  nextMap := h₁.nextMap.trans h₂.nextMap
  nextBytes := h₁.nextBytes.trans h₂.nextBytes
  maps a ha := (h₂.maps a (ha.trans_le h₁.nextMap)).trans (h₁.maps a ha)
  bytes a ha := (h₂.bytes a (ha.trans_le h₁.nextBytes)).trans (h₁.bytes a ha)

theorem Heap.extends_newMap (h : Heap) (m : Metadata) : h.Extends (h.newMap m) :=
  ⟨Nat.le_succ _, le_refl _, fun _ ha => update_of_ne ha.ne _ _, fun _ _ => rfl⟩

theorem Heap.extends_newBytes (h : Heap) (b : List UInt8) : h.Extends (h.newBytes b) :=
  ⟨le_refl _, Nat.le_succ _, fun _ _ => rfl, fun _ ha => update_of_ne ha.ne _ _⟩

theorem Cell.In.mono (hx : x.In h) (hh : h.Extends h') : x.In h' :=
  ⟨fun a ha => (hx.metadata a ha).trans_le hh.nextMap,
    fun a ha => (hx.signature a ha).trans_le hh.nextBytes⟩

/-- A record is read as before if its map and its bytes are. -/
theorem Cell.read_congr (hm : ∀ a ∈ x.metadata, h'.maps a = h.maps a)
    (hb : ∀ a ∈ x.signature, h'.bytes a = h.bytes a) : x.read h' = x.read h := by
  have hmap : x.metadata.map h'.maps = x.metadata.map h.maps := Option.map_congr hm
  have hbytes : x.signature.map h'.bytes = x.signature.map h.bytes := Option.map_congr hb
  simp only [read, hmap, hbytes]

theorem Cell.In.read (hx : x.In h) (hh : h.Extends h') : x.read h' = x.read h :=
  Cell.read_congr (fun a ha => hh.maps a (hx.metadata a ha)) fun a ha =>
    hh.bytes a (hx.signature a ha)

/-! ## Append -/

variable {w : State} {c : Crypto} {s : Store}

theorem Heap.copyMeta_spec (h : Heap) (m : Option (Metadata)) :
    h.Extends (h.copyMeta m).1 ∧
      (∀ a ∈ (h.copyMeta m).2, a = h.nextMap ∧ a < (h.copyMeta m).1.nextMap) ∧
      ((h.copyMeta m).2.map (h.copyMeta m).1.maps).getD {} = m.getD {} := by
  cases m with
  | none => exact ⟨.refl h, by simp [copyMeta], rfl⟩
  | some m => exact ⟨h.extends_newMap m, by simp [copyMeta, newMap], by simp [copyMeta, newMap]⟩

theorem State.read_draft (now : Time) (y : Args) (m : Option (Metadata)) :
    (w.draft now y (w.heap.copyMeta m).2).read (w.heap.copyMeta m).1 =
      w.view.draft now (y.entry (m.getD {})) := by
  have hseq : w.view.nextSequence = (w.records.getLast?.map (·.fields.sequence + 1)).getD 1 := by
    simp only [Store.nextSequence, view, List.getLast?_map, Option.map_map]
    rfl
  have htip : w.view.tip = (w.records.getLast?.map (·.fields.recordHash)).getD zeroDigest := by
    simp only [Store.tip, view, List.getLast?_map, Option.map_map]
    rfl
  simp only [Cell.read, draft, (Heap.copyMeta_spec w.heap m).2.2, Store.draft, Args.entry, hseq,
    htip]
  rfl

theorem State.checkpointMeta_eq (actor : Actor) :
    w.checkpointMeta = (w.view.checkpointEntry actor).metadata := by
  simp only [checkpointMeta, Store.checkpointEntry, view, List.getLast?_map,
    Option.map_map]
  rfl

theorem State.signed_spec (hr : r.In h) :
    w.view.signed c (r.read h) = (w.signed c h r).map (fun out => out.2.read out.1) ∧
      ∀ out, w.signed c h r = .ok out → h.Extends out.1 ∧ out.2.In out.1 ∧
        out.2.metadata = r.metadata := by
  unfold Store.signed signed
  have hsigner : w.view.signer = w.signer := rfl
  rw [hsigner]
  split
  · have hhash : (r.read h).recordHash = r.fields.recordHash := rfl
    rw [hhash]
    cases c.sign r.fields.recordHash with
    | error text => exact ⟨rfl, by simp [Except.map]⟩
    | ok sig =>
      refine ⟨?_, fun out hout => ?_⟩
      · simp [Except.map, Cell.read, Heap.newBytes]
      · cases hout
        refine ⟨h.extends_newBytes _, ⟨hr.metadata, ?_⟩, rfl⟩
        simp [Heap.newBytes]
  · refine ⟨rfl, fun out hout => ?_⟩
    cases hout
    exact ⟨.refl h, hr, rfl⟩

/-- The store is read as `s`, and the caller does not have its maps as its own. -/
structure Kept (w : State) (s : Store) : Prop where
  view : w.view = s
  bounded : ∀ x ∈ w.records, x.In w.heap
  own : ∀ a ∈ w.own, a < w.heap.nextMap
  apart : ∀ x ∈ w.records, ∀ a ∈ x.metadata, a ∉ w.own

theorem Kept.heap (hk : Kept w s) (hh : w.heap.Extends h') : Kept { w with heap := h' } s := by
  refine ⟨?_, fun x hx => (hk.bounded x hx).mono hh, fun a ha => (hk.own a ha).trans_le hh.nextMap,
    hk.apart⟩
  rw [← hk.view]
  simp only [State.view, Store.mk.injEq, and_true]
  exact List.map_congr_left fun x hx => (hk.bounded x hx).read hh

/-- The caller gets records back. -/
theorem Kept.returned (hk : Kept w s) (l : List Cell) : Kept { w with returned := l } s :=
  ⟨hk.view, hk.bounded, hk.own, hk.apart⟩

theorem Kept.push (hk : Kept w s) (hh : w.heap.Extends h') (hr : r.In h')
    (hnew : ∀ a ∈ r.metadata, a ∉ w.own) : Kept (w.push h' r) (s.push (r.read h')) := by
  have hk' := hk.heap hh
  refine ⟨?_, ?_, hk'.own, ?_⟩
  · have hview := hk'.view
    rw [← hview]
    simp only [State.push, State.view, Store.push, List.map_append, List.map_singleton]
    rfl
  · simp only [State.push, List.mem_append, List.mem_singleton]
    rintro x (hx | rfl)
    · exact hk'.bounded x hx
    · exact hr
  · simp only [State.push, List.mem_append, List.mem_singleton]
    rintro x (hx | rfl)
    · exact hk.apart x hx
    · exact hnew

/-- `Append` does to the store what it does without sharing. -/
theorem Kept.append (hk : Kept w s) (now : Time) (file : Option String) (y : Args)
    (m : Option (Metadata)) :
    Kept (w.append c now file y m).1 (s.append c now file (y.entry (m.getD {}))).1 := by
  obtain ⟨hext, hnew, -⟩ := Heap.copyMeta_spec w.heap m
  have hread := State.read_draft (w := w) now y m
  have hops : s.ops = w.ops := by rw [← hk.view]; rfl
  have hid : (y.entry (m.getD {})).operationID = y.operationID := rfl
  unfold State.append Store.append
  rw [hops, hid]
  cases (if y.operationID = [] then none else w.ops y.operationID) with
  | some seq => exact hk
  | none =>
    rw [hk.view] at hread
    simp only [hread]
    cases c.hash (s.draft now (y.entry (m.getD {}))).body with
    | error text => exact hk.heap hext
    | ok d =>
      have hin : ((w.draft now y (w.heap.copyMeta m).2).hashed d).In (w.heap.copyMeta m).1 :=
        ⟨fun a ha => (hnew a ha).2, fun a ha => by cases ha⟩
      have hsame : { s.draft now (y.entry (m.getD {})) with recordHash := d } =
          ((w.draft now y (w.heap.copyMeta m).2).hashed d).read (w.heap.copyMeta m).1 := by
        rw [← hread]
        rfl
      obtain ⟨hsigned, hout⟩ := State.signed_spec hin
      rw [hk.view] at hsigned
      dsimp only at hsame ⊢
      rw [hsame, hsigned]
      revert hout
      cases w.signed c (w.heap.copyMeta m).1 ((w.draft now y (w.heap.copyMeta m).2).hashed d) with
      | error text => exact fun _ => hk.heap hext
      | ok out =>
        intro hout
        obtain ⟨hext', hin', hmeta⟩ := hout out rfl
        refine hk.push (hext.trans hext') hin' fun a ha hown => ?_
        rw [hmeta] at ha
        have heq := (hnew a ha).1
        have hlt := hk.own a hown
        omega

/-! ## Runs -/

/-- The caller does not write into the metadata or the signature of a record that it got back. -/
def keepsOff (p : State × Store) : Op → Bool
  | .writeMap a _ => a ∉ p.1.returned.filterMap (·.metadata)
  | .writeBytes a _ _ => a ∉ p.1.returned.filterMap (·.signature)
  | _ => true

/-- An operation that keeps off what was returned does to the store what it does without sharing. -/
theorem Kept.step (hk : Kept w s) {op : Op} (hop : keepsOff (w, s) op = true) :
    Kept (w.step c op) (unshared c w s op) := by
  cases op with
  | newMap m =>
    have hk' := hk.heap (w.heap.extends_newMap m)
    refine ⟨hk'.view, hk'.bounded, ?_, ?_⟩
    · simp only [State.step, List.mem_append, List.mem_singleton]
      rintro a (ha | rfl)
      · exact hk'.own a ha
      · exact Nat.lt_succ_self _
    · simp only [State.step, List.mem_append, List.mem_singleton, not_or]
      exact fun x hx a ha => ⟨hk.apart x hx a ha, ((hk.bounded x hx).metadata a ha).ne⟩
  | append now file x metadata =>
    simp only [State.step, unshared]
    split
    · exact (hk.append now file x _).returned _
    · exact hk
  | checkpoint now file actor =>
    have happend := hk.append (c := c) now file (State.checkpointArgs actor) (some w.checkpointMeta)
    have hentry : (State.checkpointArgs actor).entry w.checkpointMeta = s.checkpointEntry actor := by
      rw [State.checkpointMeta_eq actor, hk.view]
      rfl
    rw [Option.getD_some, hentry] at happend
    exact happend.returned _
  | records => exact hk.returned _
  | verify => exact hk
  | writeMap a m =>
    simp only [keepsOff, decide_eq_true_eq] at hop
    simp only [State.step, unshared]
    split
    · rename_i hholds
      -- a map of the caller's own is none of the store's
      have hown : a ∈ w.own := by
        simp only [State.holdsMap, decide_eq_true_eq] at hholds
        exact hholds.resolve_right hop
      refine ⟨?_, fun x hx => ⟨(hk.bounded x hx).metadata, (hk.bounded x hx).signature⟩, hk.own,
        hk.apart⟩
      rw [← hk.view]
      simp only [State.view, Store.mk.injEq, and_true]
      refine List.map_congr_left fun x hx => Cell.read_congr (fun b hb => ?_) fun _ _ => rfl
      have hne : b ≠ a := fun heq => hk.apart x hx b hb (heq ▸ hown)
      exact update_of_ne hne _ _
    · exact hk
  | writeBytes a j b =>
    have hnot : w.holdsBytes a = false := by
      simpa [keepsOff, State.holdsBytes] using hop
    simpa [State.step, unshared, hnot] using hk

/-- What is known of the store whose records are not shared. -/
structure Sound (c : Crypto) (signer : Bool) (ops : List Op) (s : Store) : Prop where
  chained : s.Chained c
  signed : s.signer = signer
  times : ∀ r ∈ s.records, ∃ op ∈ ops, op.time = some r.time

variable {signer : Bool} {ops : List Op}

theorem unshared_cases (c : Crypto) (w : State) (s : Store) (op : Op) :
    unshared c w s op = s ∨
      ∃ now file x, op.time = some now ∧ unshared c w s op = (s.append c now file x).1 := by
  cases op with
  | append now file x metadata =>
    simp only [unshared]
    split
    · exact .inr ⟨now, file, _, rfl, rfl⟩
    · exact .inl rfl
  | checkpoint now file actor => exact .inr ⟨now, file, _, rfl, rfl⟩
  | _ => exact .inl rfl

theorem Sound.step (hs : Sound c signer ops s) {op : Op} (hop : op ∈ ops) (w : State) :
    Sound c signer ops (unshared c w s op) := by
  obtain hsame | ⟨now, file, x, htime, happend⟩ := unshared_cases c w s op
  · rwa [hsame]
  rw [happend]
  obtain ⟨hsame, -⟩ | ⟨r, hr, hpush⟩ := Store.append_cases s c now file x
  · rwa [hsame]
  rw [hpush]
  refine ⟨hs.chained.push hr, hs.signed, ?_⟩
  simp only [Store.push, List.mem_append, List.mem_singleton]
  rintro r' (hr' | rfl)
  · exact hs.times r' hr'
  · exact ⟨op, hop, by rw [htime, hr.time]⟩

/-- **Callers cannot alter the store.** In every run in which the caller does not write into the
metadata or the signature of a record that it got back, the store has the records that it would have
without sharing, and they verify. -/
theorem store_unaltered (v : Verifier) (keys : Option TrustedKeys) (clock : Nat → Time) (c : Crypto)
    (signer : Bool) (path : String) (ops : List Op) (hhash : v.hash = c.hash)
    (htime : ∀ op ∈ ops, ∀ t ∈ op.time, t ≠ 0)
    (htrusts : signer = true → ∀ op ∈ ops, ∀ t ∈ op.time, Trusts v keys c.sign t)
    (hoff : Conc.Run.Meets (track c) keepsOff ({ signer, path }, { signer, path }) ops = true)
    (i : Nat) (hi : i ≤ ops.length) :
    let p := Run.stateAt (track c) ({ signer, path }, { signer, path }) ops i
    p.1.view.records = p.2.records ∧ (verifyRecords v keys clock p.1.view.records).ok = true := by
  intro p
  have hrun : Kept p.1 p.2 ∧ Sound c signer ops p.2 := by
    refine Run.along
      (J := fun i => Kept (Run.stateAt (track c) ({ signer, path }, { signer, path }) ops i).1
          (Run.stateAt (track c) ({ signer, path }, { signer, path }) ops i).2 ∧
        Sound c signer ops
          (Run.stateAt (track c) ({ signer, path }, { signer, path }) ops i).2) ?_ ?_ hi
    · exact ⟨⟨rfl, by simp, by simp, by simp⟩, ⟨.new _ _, rfl, by simp⟩⟩
    · rintro j op hop ⟨hk, hs⟩
      rw [Run.stateAt_succ hop]
      exact ⟨hk.step (Run.meets_getElem hoff hop), hs.step (List.mem_of_getElem? hop) _⟩
  obtain ⟨hk, hs⟩ := hrun
  refine ⟨congrArg Store.records hk.view, ?_⟩
  rw [hk.view, verifyRecords_ok]
  refine hs.chained.verified hhash (fun r hr => ?_) fun hsigner r hr => ?_
  · obtain ⟨op, hop, ht⟩ := hs.times r hr
    exact htime op hop _ ht
  · obtain ⟨op, hop, ht⟩ := hs.times r hr
    exact htrusts (hs.signed ▸ hsigner) op hop _ ht

/-! ### Samples -/

def sampleArgs : Args where
  actor := sampleActor
  action := utf8 "deploy"
  resource := utf8 "svc"
  result := utf8 "ok"
  operationID := utf8 "op-1"

/-- The caller passes a map of its own and writes to it later. -/
def ownWrites : List Op :=
  [.newMap {}, .append unixEpoch none sampleArgs (some 0), .writeMap 0 (.ofList [(utf8 "k", utf8 "v")]),
    .checkpoint unixEpoch none sampleActor, .records, .verify]

/-- The sample caller keeps off what it got back, and the store verifies. -/
theorem store_unaltered_sample :
    Conc.Run.Meets (track .sample) keepsOff ({ signer := true }, { signer := true }) ownWrites = true ∧
      (let p := Conc.Run.stateAt (track .sample) ({ signer := true }, { signer := true }) ownWrites 6
      p.1.view.records = p.2.records ∧
        (verifyRecords .sample (some sampleKeys) (fun _ => 0) p.1.view.records).ok = true) :=
  ⟨by decide +kernel, store_unaltered _ _ _ _ true "" ownWrites rfl (by decide +kernel)
    (fun _ op _ t _ => Trusts.sample t) (by decide +kernel) 6 (by decide)⟩

/-- A write to the first byte of a signature that `Append` returned: the store has another record, and
does not verify. -/
theorem signature_altered :
    let ops : List Op := [.append unixEpoch none sampleArgs none, .writeBytes 0 0 0]
    let p := Run.stateAt (track .sample) ({ signer := true }, { signer := true }) ops 2
    (∀ op ∈ ops, ∀ t ∈ op.time, t ≠ 0) ∧
      (∀ t, Trusts .sample (some sampleKeys) Crypto.sample.sign t) ∧
      p.1.view.records ≠ p.2.records ∧
      (verifyRecords .sample (some sampleKeys) (fun _ => 0) p.1.view.records).ok = false :=
  ⟨by decide +kernel, Trusts.sample, by decide +kernel, by decide +kernel⟩

end Alias
end ShiftLock.Audit
