import ShiftLock.Types
import ShiftLock.Conc.Run
import Mathlib.Data.List.AList
import Mathlib.Order.Basic

/-!
# The anti-replay cache (`security/antireplay/antireplay.go`)

`Cache` holds request IDs of the current security epoch until they expire. Every call is one critical
section with one reading of the clock; request IDs are byte strings.

The invariant `Keyed` says that the entries are those of the current epoch, each under the key of an
ID, and that there are at most `max` of them. An ID that was stored stays until its time is over or
the epoch ends (`Stored`, `Stored.step`), which is why it is refused (`antireplay_refuses`).
-/

namespace ShiftLock.AntiReplay

open Conc

abbrev SecurityEpoch := UInt64

/-- A request ID or a key of the map. -/
abbrev Bytes := List UInt8

structure Entry where
  expires : Time
  epoch : SecurityEpoch
  deriving DecidableEq, Repr

structure Cache where
  max : Nat
  entries : AList fun _ : Bytes => Entry := ∅
  epoch : SecurityEpoch := 0

/-- What the calls return besides nil. -/
inductive Error where
  | replay | expired | emptyID | epochRollback | capacity | epochOverflow
  deriving DecidableEq, Repr

def new (maxEntries : Int) : Cache :=
  { max := if maxEntries ≤ 0 then 4096 else maxEntries.toNat }

/-! ## Keys -/

/-- `hexdigits`: "0123456789abcdef". -/
def hexdigits : Bytes := [48, 49, 50, 51, 52, 53, 54, 55, 56, 57, 97, 98, 99, 100, 101, 102]

/-- The loop of `formatEpoch`, from the last digit on. -/
def formatLoop : Nat → UInt64 → Bytes → Bytes
  | 0, _, b => b
  | n + 1, v, b => formatLoop n (v >>> 4) (hexdigits.getD (v &&& 15).toNat 0 :: b)

def formatEpoch (e : SecurityEpoch) : Bytes := formatLoop 16 e []

def cacheKey (epoch : SecurityEpoch) (id : Bytes) : Bytes := formatEpoch epoch ++ 0 :: id

/-! ## Calls -/

namespace Cache

variable (c : Cache) (now : Time)

/-- The entry is not expired and belongs to the current epoch. -/
def live (e : Entry) : Bool := !(e.expires < now || e.epoch ≠ c.epoch)

/-- `purgeLocked`. -/
def purge : Cache :=
  { c with
    entries := ⟨c.entries.entries.filter fun x => c.live now x.2,
      c.entries.nodupKeys.sublist List.filter_sublist⟩ }

/-- The end of `CheckAndStore`. -/
def store (key : Bytes) (expires : Time) : Cache × Option Error :=
  if c.max ≤ c.entries.entries.length then (c, some .capacity)
  else ({ c with entries := c.entries.insert key { expires, epoch := c.epoch } }, none)

/-- The lifetime that `CheckAndStore` uses. -/
def lifetime (ttl : Duration) : Duration := if ttl ≤ 0 then minute else ttl

def checkAndStore (id : Bytes) (ttl : Duration) : Cache × Option Error :=
  if id = [] then (c, some .emptyID)
  else if ¬ now < now + lifetime ttl then (c, some .expired)
  else
    let c := c.purge now
    match c.entries.lookup (cacheKey c.epoch id) with
    | some e =>
      if e.expires < now then
        { c with entries := c.entries.erase (cacheKey c.epoch id) }.store (cacheKey c.epoch id)
          (now + lifetime ttl)
      else (c, some .replay)
    | none => c.store (cacheKey c.epoch id) (now + lifetime ttl)

def seen (id : Bytes) : Cache × Bool :=
  let c := c.purge now
  (c, (c.entries.lookup (cacheKey c.epoch id)).any fun e => !decide (e.expires < now))

def len : Cache × Nat := (c.purge now, (c.purge now).entries.entries.length)

def advanceEpoch : Cache × Option Error :=
  if c.epoch = UInt64.ofNat (2 ^ 64 - 1) then (c, some .epochOverflow)
  else ({ c with epoch := c.epoch + 1, entries := ∅ }, none)

def setEpoch (newEpoch : SecurityEpoch) : Cache × Option Error :=
  if newEpoch < c.epoch then (c, some .epochRollback)
  else if c.epoch < newEpoch then ({ c with epoch := newEpoch, entries := ∅ }, none)
  else (c, none)

end Cache

inductive Call where
  | checkAndStore (id : Bytes) (ttl : Duration)
  | seen (id : Bytes)
  | len
  | advanceEpoch
  | setEpoch (newEpoch : SecurityEpoch)
  deriving DecidableEq, Repr

/-- A call with its reading of the clock. -/
structure Input where
  now : Time
  call : Call
  deriving DecidableEq, Repr

def step (c : Cache) (x : Input) : Cache :=
  match x.call with
  | .checkAndStore id ttl => (c.checkAndStore x.now id ttl).1
  | .seen id => (c.seen x.now id).1
  | .len => (c.len x.now).1
  | .advanceEpoch => c.advanceEpoch.1
  | .setEpoch e => (c.setEpoch e).1

/-- The cache after the first `i` calls of a history. -/
abbrev stateAt (maxEntries : Int) (xs : List Input) (i : Nat) : Cache :=
  Conc.Run.stateAt step (new maxEntries) xs i

theorem length_formatLoop (n : Nat) (v : UInt64) (b : Bytes) :
    (formatLoop n v b).length = n + b.length := by
  induction n generalizing v b with
  | zero => simp [formatLoop]
  | succ n ih =>
    rw [formatLoop, ih, List.length_cons]
    omega

/-! ## What a call does -/

namespace Cache

variable {c : Cache} {now : Time} {id : Bytes} {ttl : Duration}

theorem purge_lookup (c : Cache) (now : Time) (k : Bytes) :
    (c.purge now).entries.lookup k = (c.entries.lookup k).filter (c.live now) := by
  have hmem : ∀ e, e ∈ (c.purge now).entries.lookup k ↔
      e ∈ c.entries.lookup k ∧ c.live now e = true := by
    intro e
    rw [AList.mem_lookup_iff, AList.mem_lookup_iff]
    exact List.mem_filter
  refine Option.ext fun e => ?_
  have hfilter : (c.entries.lookup k).filter (c.live now) = some e ↔
      c.entries.lookup k = some e ∧ c.live now e = true := Option.filter_eq_some_iff
  exact (hmem e).trans hfilter.symm

theorem purge_live {k : Bytes} {e : Entry} (h : (c.purge now).entries.lookup k = some e) :
    c.entries.lookup k = some e ∧ now ≤ e.expires ∧ e.epoch = c.epoch := by
  rw [purge_lookup, Option.filter_eq_some_iff] at h
  obtain ⟨hlook, hlive⟩ := h
  have : ¬ e.expires < now ∧ e.epoch = c.epoch := by simpa [live] using hlive
  exact ⟨hlook, Int.not_lt.mp this.1, this.2⟩

/-- What `CheckAndStore` can do. -/
inductive Checks (c : Cache) (now : Time) (id : Bytes) (ttl : Duration) : Cache × Option Error → Prop
  | emptyID : Checks c now id ttl (c, some .emptyID)
  | expired : Checks c now id ttl (c, some .expired)
  | replay (e : Entry) (h : (c.purge now).entries.lookup (cacheKey c.epoch id) = some e) :
    Checks c now id ttl (c.purge now, some .replay)
  | capacity (h : c.max ≤ (c.purge now).entries.entries.length) :
    Checks c now id ttl (c.purge now, some .capacity)
  | stored (h : (c.purge now).entries.lookup (cacheKey c.epoch id) = none)
    (hroom : (c.purge now).entries.entries.length < c.max) :
    Checks c now id ttl
      ({ c.purge now with
          entries := (c.purge now).entries.insert (cacheKey c.epoch id) ⟨now + lifetime ttl, c.epoch⟩ },
        none)

theorem checkAndStore_cases (c : Cache) (now : Time) (id : Bytes) (ttl : Duration) :
    Checks c now id ttl (c.checkAndStore now id ttl) := by
  unfold checkAndStore
  split
  · exact .emptyID
  split
  · exact .expired
  simp only
  split
  · rename_i e hlook
    have hlook : (c.purge now).entries.lookup (cacheKey c.epoch id) = some e := hlook
    -- An expired entry is purged before.
    rw [if_neg (Int.not_lt.mpr (purge_live hlook).2.1)]
    exact .replay e hlook
  · rename_i hlook
    unfold store
    split
    · rename_i hfull
      exact .capacity hfull
    · rename_i hroom
      exact .stored hlook (Nat.lt_of_not_le hroom)

end Cache

/-! ## The invariant -/

/-- The entries are those of the current epoch, and there are at most `m`. -/
structure Keyed (m : Nat) (c : Cache) : Prop where
  max : c.max = m
  keys : ∀ k e, c.entries.lookup k = some e → e.epoch = c.epoch ∧ ∃ id, k = cacheKey c.epoch id
  bound : c.entries.entries.length ≤ c.max

variable {m : Nat} {c : Cache} {id : Bytes} {x : Input}

theorem Keyed.empty (e : SecurityEpoch) : Keyed m { max := m, epoch := e } :=
  ⟨rfl, fun k e h => by simp at h, Nat.zero_le _⟩

theorem Keyed.purge (h : Keyed m c) (now : Time) : Keyed m (c.purge now) where
  max := h.max
  keys k e hk := h.keys k e (Cache.purge_live hk).1
  bound := Nat.le_trans (List.length_filter_le _ _) h.bound

theorem Keyed.insert (h : Keyed m c) (expires : Time)
    (hnone : c.entries.lookup (cacheKey c.epoch id) = none) (hroom : c.entries.entries.length < c.max) :
    Keyed m { c with entries := c.entries.insert (cacheKey c.epoch id) ⟨expires, c.epoch⟩ } where
  max := h.max
  keys k e hk := by
    by_cases hkey : k = cacheKey c.epoch id
    · subst hkey
      rw [AList.lookup_insert, Option.some.injEq] at hk
      subst hk
      exact ⟨rfl, id, rfl⟩
    · rw [AList.lookup_insert_ne hkey] at hk
      exact h.keys k e hk
  bound := by
    rw [AList.entries_insert_of_notMem (AList.lookup_eq_none.mp hnone)]
    exact hroom

theorem Keyed.step (h : Keyed m c) (x : Input) : Keyed m (step c x) := by
  unfold AntiReplay.step
  split
  · rename_i id ttl _
    have hcases := c.checkAndStore_cases x.now id ttl
    generalize c.checkAndStore x.now id ttl = r at hcases
    cases hcases with
    | emptyID | expired => exact h
    | replay | capacity => exact h.purge x.now
    | stored hnone hroom => exact (h.purge x.now).insert _ hnone hroom
  · exact h.purge x.now
  · exact h.purge x.now
  · unfold Cache.advanceEpoch
    split
    · exact h
    · rw [← h.max]
      exact empty _
  · unfold Cache.setEpoch
    split
    · exact h
    split
    · rw [← h.max]
      exact empty _
    · exact h

theorem keyed_at (maxEntries : Int) (xs : List Input) (i : Nat) :
    Keyed (new maxEntries).max (stateAt maxEntries xs i) :=
  Run.invariant (fun _ x h _ => h.step x) (Keyed.empty 0)
    (fun _ _ => trivial) i

/-! ## Epochs -/

theorem Cache.epoch_checkAndStore (c : Cache) (now : Time) (id : Bytes) (ttl : Duration) :
    (c.checkAndStore now id ttl).1.epoch = c.epoch := by
  have hcases := c.checkAndStore_cases now id ttl
  generalize c.checkAndStore now id ttl = r at hcases ⊢
  cases hcases <;> rfl

theorem lt_succ {e : SecurityEpoch} (h : e ≠ UInt64.ofNat (2 ^ 64 - 1)) : e < e + 1 := by
  have hlt := e.toNat_lt
  have hne : e.toNat ≠ 2 ^ 64 - 1 := by
    intro heq
    exact h (UInt64.toNat_inj.mp heq)
  rw [UInt64.lt_iff_toNat_lt, UInt64.toNat_add]
  have : e.toNat + 1 < 2 ^ 64 := by omega
  rw [UInt64.toNat_one, Nat.mod_eq_of_lt this]
  omega

/-- A call keeps the epoch, or it starts a later one. -/
theorem epoch_step (c : Cache) (x : Input) :
    (step c x).epoch = c.epoch ∨ c.epoch < (step c x).epoch := by
  unfold step
  split
  · exact .inl (c.epoch_checkAndStore _ _ _)
  · exact .inl rfl
  · exact .inl rfl
  · unfold Cache.advanceEpoch
    split
    · exact .inl rfl
    · rename_i hmax
      exact .inr (lt_succ hmax)
  · unfold Cache.setEpoch
    split
    · exact .inl rfl
    split
    · rename_i hlt
      exact .inr hlt
    · exact .inl rfl

theorem epoch_le_step (c : Cache) (x : Input) : c.epoch ≤ (step c x).epoch := by
  rcases epoch_step c x with h | h
  · rw [h]
    exact UInt64.le_refl _
  · exact UInt64.le_of_lt h

theorem epoch_mono (maxEntries : Int) (xs : List Input) {i j : Nat} (hij : i ≤ j) :
    (stateAt maxEntries xs i).epoch ≤ (stateAt maxEntries xs j).epoch :=
  Run.related (R := fun a b => a.epoch ≤ b.epoch) (I := fun _ => True)
    (fun _ => UInt64.le_refl _) (fun _ _ _ => UInt64.le_trans) (fun _ _ _ _ => trivial)
    (fun c x _ _ => epoch_le_step c x) trivial (fun _ _ => trivial) hij

/-! ## A stored ID -/

/-- The cache holds the ID under its current epoch until `expires`. -/
def Stored (c : Cache) (id : Bytes) (expires : Time) : Prop :=
  c.entries.lookup (cacheKey c.epoch id) = some ⟨expires, c.epoch⟩

variable {expires : Time} {ttl : Duration} {now : Time}

theorem Stored.purge (h : Stored c id expires) (hnow : now ≤ expires) :
    Stored (c.purge now) id expires := by
  unfold Stored
  rw [Cache.purge_lookup, Option.filter_eq_some_iff]
  exact ⟨h, by simp [Cache.live, Cache.purge, Int.not_lt.mpr hnow]⟩

theorem Stored.refused (h : Stored c id expires) (hnow : now ≤ expires) (ttl : Duration) :
    (c.checkAndStore now id ttl).2 ≠ none := by
  have hcases := c.checkAndStore_cases now id ttl
  generalize c.checkAndStore now id ttl = r at hcases ⊢
  cases hcases with
  | emptyID | expired | replay | capacity => exact Option.some_ne_none _
  | stored hnone hroom => exact absurd ((h.purge hnow).symm.trans hnone) (Option.some_ne_none _)

theorem stored_of_accepted (h : (c.checkAndStore now id ttl).2 = none) :
    Stored (c.checkAndStore now id ttl).1 id (now + Cache.lifetime ttl) := by
  have hcases := c.checkAndStore_cases now id ttl
  generalize c.checkAndStore now id ttl = r at hcases h ⊢
  cases hcases with
  | emptyID | expired | replay | capacity => cases h
  | stored hnone hroom => exact AList.lookup_insert _

/-- A call before the expiry that does not start a new epoch keeps the ID. -/
theorem Stored.step (h : Stored c id expires) (hnow : x.now ≤ expires)
    (hepoch : (step c x).epoch = c.epoch) : Stored (step c x) id expires := by
  obtain ⟨now, call⟩ := x
  cases call with
  | checkAndStore id' ttl =>
    have hcases := c.checkAndStore_cases now id' ttl
    simp only [AntiReplay.step]
    generalize c.checkAndStore now id' ttl = r at hcases ⊢
    cases hcases with
    | emptyID | expired => exact h
    | replay | capacity => exact h.purge hnow
    | stored hnone hroom =>
      have hne : cacheKey c.epoch id ≠ cacheKey c.epoch id' := by
        intro heq
        rw [← heq] at hnone
        exact absurd ((h.purge hnow).symm.trans hnone) (Option.some_ne_none _)
      exact (AList.lookup_insert_ne hne).trans (h.purge hnow)
  | seen | len => exact h.purge hnow
  | advanceEpoch =>
    by_cases hmax : c.epoch = UInt64.ofNat (2 ^ 64 - 1)
    · simpa only [AntiReplay.step, Cache.advanceEpoch, if_pos hmax] using h
    · simp only [AntiReplay.step, Cache.advanceEpoch, if_neg hmax] at hepoch
      exact absurd hepoch.symm (UInt64.ne_of_lt (lt_succ hmax))
  | setEpoch e =>
    by_cases hback : e < c.epoch
    · simpa only [AntiReplay.step, Cache.setEpoch, if_pos hback] using h
    by_cases hlater : c.epoch < e
    · simp only [AntiReplay.step, Cache.setEpoch, if_neg hback, if_pos hlater] at hepoch
      exact absurd hepoch.symm (UInt64.ne_of_lt hlater)
    · simpa only [AntiReplay.step, Cache.setEpoch, if_neg hback, if_neg hlater] using h

theorem now_le {xs : List Input} (htime : xs.Pairwise fun x y => x.now ≤ y.now) {i j : Nat} {x y : Input}
    (hij : i < j) (hx : xs[i]? = some x) (hy : xs[j]? = some y) : x.now ≤ y.now := by
  obtain ⟨hi, rfl⟩ := List.getElem?_eq_some_iff.mp hx
  obtain ⟨hj, rfl⟩ := List.getElem?_eq_some_iff.mp hy
  exact List.pairwise_iff_getElem.mp htime i j hi hj hij

/-- An accepted ID stays in the cache up to its expiry, as long as its epoch lasts. -/
theorem stored_at {maxEntries : Int} {xs : List Input} {i j : Nat}
    (hx : xs[i]? = some ⟨now, .checkAndStore id ttl⟩)
    (hok : ((stateAt maxEntries xs i).checkAndStore now id ttl).2 = none) (hij : i < j)
    (hnow : ∀ k y, k < j → xs[k]? = some y → y.now ≤ now + Cache.lifetime ttl)
    (hepoch : (stateAt maxEntries xs j).epoch = (stateAt maxEntries xs i).epoch) :
    Stored (stateAt maxEntries xs j) id (now + Cache.lifetime ttl) := by
  have hstart : Stored (stateAt maxEntries xs (i + 1)) id (now + Cache.lifetime ttl) := by
    rw [stateAt, Run.stateAt_succ hx]
    exact stored_of_accepted hok
  refine Run.kept (I := fun c => c.epoch = (stateAt maxEntries xs i).epoch →
    Stored c id (now + Cache.lifetime ttl)) (fun _ => hstart) hij ?_ hepoch
  intro k y hik hkj hy hkept hlater
  -- The epoch never decreases, so it was the same one call before.
  have hbefore : (stateAt maxEntries xs k).epoch = (stateAt maxEntries xs i).epoch := by
    refine UInt64.le_antisymm ?_ (epoch_mono maxEntries xs (Nat.le_of_succ_le hik))
    rw [← hlater]
    exact epoch_le_step _ y
  exact (hkept hbefore).step (hnow k y hkj hy) (hlater.trans hbefore.symm)

/-! ## A full cache -/

/-- The live entries of a cache are as many IDs that `Seen` reports. -/
theorem Keyed.seen (h : Keyed m c) (now : Time) :
    ∃ ids : List Bytes, ids.Nodup ∧ ids.length = (c.purge now).entries.entries.length ∧
      ∀ id ∈ ids, (c.seen now id).2 = true := by
  have hkey : ∀ k ∈ (c.purge now).entries.keys, ∃ id, k = cacheKey c.epoch id := by
    intro k hk
    obtain ⟨e, he⟩ := AList.lookup_isSome.mpr hk |> Option.isSome_iff_exists.mp
    exact ((h.purge now).keys k e he).2
  have hlen : (formatEpoch c.epoch).length = 16 := length_formatLoop 16 c.epoch []
  have hdrop : ∀ id, (cacheKey c.epoch id).drop 17 = id := by
    intro id
    rw [cacheKey, List.drop_append, hlen, List.drop_eq_nil_of_le (by omega)]
    rfl
  refine ⟨(c.purge now).entries.keys.map (List.drop 17), ?_, ?_, ?_⟩
  · refine List.Nodup.map_on ?_ (c.purge now).entries.keys_nodup
    intro k hk k' hk' heq
    obtain ⟨id, rfl⟩ := hkey k hk
    obtain ⟨id', rfl⟩ := hkey k' hk'
    rw [hdrop, hdrop] at heq
    rw [heq]
  · simp [AList.keys, List.keys]
  · intro id hid
    obtain ⟨k, hk, rfl⟩ := List.mem_map.mp hid
    obtain ⟨id, rfl⟩ := hkey k hk
    obtain ⟨e, he⟩ := AList.lookup_isSome.mpr hk |> Option.isSome_iff_exists.mp
    have hlive := (Cache.purge_live he).2.1
    have he' : (c.purge now).entries.lookup (cacheKey (c.purge now).epoch id) = some e := he
    rw [hdrop]
    simp [Cache.seen, he', Int.not_lt.mpr hlive]

theorem Keyed.full (h : Keyed m c) (hcap : (c.checkAndStore now id ttl).2 = some .capacity) :
    (c.purge now).entries.entries.length = m := by
  have hcases := c.checkAndStore_cases now id ttl
  generalize c.checkAndStore now id ttl = r at hcases hcap
  cases hcases with
  | emptyID | expired | replay | stored => cases hcap
  | capacity hfull =>
    have hbound := (h.purge now).bound
    have hmax := h.max
    have hmax' := (h.purge now).max
    omega

/-- An accepted ID is refused up to its expiry while its epoch lasts. The cache never holds more than
`max` entries, its epoch never decreases, and it is full only of unexpired IDs of its epoch. -/
theorem antireplay_refuses (maxEntries : Int) (xs : List Input)
    (htime : xs.Pairwise fun x y => x.now ≤ y.now) :
    (∀ i j id ttl ttl' t t', i < j → xs[i]? = some ⟨t, .checkAndStore id ttl⟩ →
      ((stateAt maxEntries xs i).checkAndStore t id ttl).2 = none →
      xs[j]? = some ⟨t', .checkAndStore id ttl'⟩ →
      (stateAt maxEntries xs j).epoch = (stateAt maxEntries xs i).epoch →
      t' ≤ t + Cache.lifetime ttl → ((stateAt maxEntries xs j).checkAndStore t' id ttl').2 ≠ none) ∧
    (∀ i, (stateAt maxEntries xs i).entries.entries.length ≤ (new maxEntries).max) ∧
    (∀ i j, i ≤ j → (stateAt maxEntries xs i).epoch ≤ (stateAt maxEntries xs j).epoch) ∧
    ∀ i id ttl t, xs[i]? = some ⟨t, .checkAndStore id ttl⟩ →
      ((stateAt maxEntries xs i).checkAndStore t id ttl).2 = some .capacity →
      ∃ ids : List Bytes, ids.Nodup ∧ ids.length = (new maxEntries).max ∧
        ∀ id ∈ ids, ((stateAt maxEntries xs i).seen t id).2 = true := by
  refine ⟨?_, ?_, fun i j => epoch_mono maxEntries xs, ?_⟩
  · intro i j id ttl ttl' t t' hij hi hok hj hepoch ht'
    have hnow : ∀ k y, k < j → xs[k]? = some y → y.now ≤ t + Cache.lifetime ttl :=
      fun k y hk hy => Int.le_trans (now_le htime hk hy hj) ht'
    exact (stored_at hi hok hij hnow hepoch).refused ht' ttl'
  · intro i
    have hkeyed := keyed_at maxEntries xs i
    rw [← hkeyed.max]
    exact hkeyed.bound
  · intro i id ttl t _ hcap
    have hkeyed := keyed_at maxEntries xs i
    rw [← hkeyed.full hcap]
    exact hkeyed.seen t

/-- Three calls on a cache for one ID. -/
def fullHistory : List Input :=
  [⟨0, .checkAndStore [1] 5⟩, ⟨5, .checkAndStore [1] 5⟩, ⟨5, .checkAndStore [2] 5⟩]

theorem antireplay_refuses_full :
    ((stateAt 1 fullHistory 1).checkAndStore 5 [1] 5).2 ≠ none ∧
    ∃ ids : List Bytes, ids.Nodup ∧ ids.length = (new 1).max ∧
      ∀ id ∈ ids, ((stateAt 1 fullHistory 2).seen 5 id).2 = true :=
  ⟨(antireplay_refuses 1 fullHistory (by decide)).1 0 1 [1] 5 5 0 5 (by decide) rfl (by decide +kernel)
      rfl (by decide +kernel) (by decide),
    (antireplay_refuses 1 fullHistory (by decide)).2.2.2 2 [2] 5 5 rfl (by decide +kernel)⟩

end ShiftLock.AntiReplay
