import ShiftLock.Audit.Chain
import ShiftLock.Conc.Run

/-!
# Checkpoints among other calls (`audit/audit.go`)

`Checkpoint` reads the tip in one critical section and appends its record in another one. A schedule is a
list of sections, of any calls. A checkpoint has the hash of the record before it if no section in
between has added a record (`checkpoint_certifies`); otherwise it has the hash of an earlier record
(`checkpoint_overtaken`).
-/

namespace ShiftLock.Audit

open Conc Function Signing
open Json (utf8)

/-- A critical section: an `Append`, or one of the two of the `Checkpoint` of thread `u`. -/
inductive Section where
  | append (now : Time) (file : Option String) (x : Entry)
  | readTip (u : Nat) (actor : Actor)
  | appendTip (u : Nat) (now : Time) (file : Option String)
  deriving DecidableEq

/-- The store, and what the calls of `Checkpoint` are about to append. -/
structure Sections where
  store : Store := {}
  pending : Nat → Option Entry := fun _ => none

namespace Sections

def step (c : Crypto) (s : Sections) : Section → Sections
  | .append now file x => { s with store := (s.store.append c now file x).1 }
  | .readTip u actor =>
    { s with pending := Function.update s.pending u (some (s.store.checkpointEntry actor)) }
  | .appendTip u now file =>
    match s.pending u with
    | none => s
    | some x => ⟨(s.store.append c now file x).1, Function.update s.pending u none⟩

/-- The state after the first `i` sections. -/
abbrev stateAt (c : Crypto) (s : Sections) (xs : List Section) (i : Nat) : Sections :=
  Conc.Run.stateAt (step c) s xs i

/-- The section is one of the `Checkpoint` of thread `u`. -/
def ofThread (u : Nat) : Section → Bool
  | .append _ _ _ => false
  | .readTip v _ | .appendTip v _ _ => u = v

variable {c : Crypto} {s : Sections} {u : Nat}

theorem pending_step {x : Section} (h : ofThread u x = false) :
    (step c s x).pending u = s.pending u := by
  cases x with
  | append now file x => rfl
  | readTip v actor => exact update_of_ne (of_decide_eq_false h) _ _
  | appendTip v now file =>
    simp only [step]
    split
    · rfl
    · exact update_of_ne (of_decide_eq_false h) _ _

/-- The entry of the metadata of a `Checkpoint`. -/
theorem lookup_tip_hash (text : Bytes) :
    (Metadata.ofList [(utf8 "checkpoint", utf8 "true"), (utf8 "tip_hash", text)]).entries.lookup
      (utf8 "tip_hash") = some text := rfl

/-- The record of a `Checkpoint` that finds the records as it has left them. -/
theorem metadata_of_pending {actor : Actor} (h : s.pending u = some (s.store.checkpointEntry actor))
    (now : Time) (file : Option String) {r : Record}
    (hr : (step c s (.appendTip u now file)).store.records = s.store.records ++ [r]) :
    r.metadata.entries.lookup (utf8 "tip_hash") =
      some (if s.store.records = [] then [] else utf8 (hex r.previousHash)) := by
  simp only [step, h] at hr
  obtain ⟨hsame, -⟩ | ⟨r', hadds, happend⟩ :=
    Store.append_cases s.store c now file (s.store.checkpointEntry actor)
  · rw [hsame] at hr
    simp at hr
  · rw [happend] at hr
    obtain rfl : r' = r := by simpa [Store.push] using hr
    rw [hadds.metadata, hadds.previousHash]
    cases hlast : s.store.records.getLast? with
    | none =>
      simp only [Store.checkpointEntry, lookup_tip_hash, List.getLast?_eq_none_iff.mp hlast]
      rfl
    | some last =>
      have hne : s.store.records ≠ [] := by
        intro hnil
        simp [hnil] at hlast
      simp [Store.checkpointEntry, Store.tip, hlast, hne, lookup_tip_hash]

/-- In every schedule: a `Checkpoint` between whose sections no section adds a record certifies the record
right before its own, and nothing if its own is the first one. -/
theorem checkpoint_certifies (c : Crypto) (s : Sections) (xs : List Section) (u i j : Nat) (actor : Actor)
    (now : Time) (file : Option String) (hj : xs[j]? = some (.readTip u actor))
    (hi : xs[i]? = some (.appendTip u now file)) (hji : j < i)
    (hbetween : ∀ k x, j < k → k < i → xs[k]? = some x → ofThread u x = false ∧
      (step c (stateAt c s xs k) x).store.records = (stateAt c s xs k).store.records)
    (r : Record)
    (hr : (stateAt c s xs (i + 1)).store.records = (stateAt c s xs i).store.records ++ [r]) :
    r.metadata.entries.lookup (utf8 "tip_hash") =
      some (if (stateAt c s xs i).store.records = [] then [] else utf8 (hex r.previousHash)) := by
  have hstart : (stateAt c s xs (j + 1)).pending u =
      some ((stateAt c s xs (j + 1)).store.checkpointEntry actor) := by
    rw [stateAt, Run.stateAt_succ hj]
    exact update_self ..
  have hpending : (stateAt c s xs i).pending u = some ((stateAt c s xs i).store.checkpointEntry actor) := by
    refine Run.kept
      (I := fun s : Sections => s.pending u = some (s.store.checkpointEntry actor)) hstart hji ?_
    intro k x hjk hki hx hk
    obtain ⟨hother, hsame⟩ := hbetween k x hjk hki hx
    rw [pending_step hother, hk]
    simp only [Store.checkpointEntry, hsame]
  rw [stateAt, Run.stateAt_succ hi] at hr
  exact metadata_of_pending hpending now file hr

/-! ### Samples -/

/-- A `Checkpoint` after one record; an append of the same operation between its sections is refused. -/
def undisturbed : List Section :=
  [.append unixEpoch none (sampleEntry "op-1"), .readTip 0 sampleActor,
    .append unixEpoch none (sampleEntry "op-1"), .appendTip 0 unixEpoch none]

theorem checkpoint_certifies_sample :
    ∃ r, (stateAt .sample {} undisturbed 4).store.records =
        (stateAt .sample {} undisturbed 3).store.records ++ [r] ∧
      r.metadata.entries.lookup (utf8 "tip_hash") = some (utf8 (hex r.previousHash)) := by
  have hne : (stateAt .sample {} undisturbed 4).store.records ≠ [] := by decide +kernel
  have hnew : (stateAt .sample {} undisturbed 4).store.records =
      (stateAt .sample {} undisturbed 3).store.records ++
        [(stateAt .sample {} undisturbed 4).store.records.getLast hne] := by
    have hrest : (stateAt .sample {} undisturbed 4).store.records.dropLast =
        (stateAt .sample {} undisturbed 3).store.records := by
      decide +kernel
    rw [← hrest, List.dropLast_append_getLast hne]
  have hbefore : (stateAt .sample {} undisturbed 3).store.records ≠ [] := by decide +kernel
  have hcertifies := checkpoint_certifies .sample {} undisturbed 0 3 1 sampleActor unixEpoch none rfl rfl
    (by decide) (fun k x hk hk' hx => ?_) _ hnew
  · rw [if_neg hbefore] at hcertifies
    exact ⟨_, hnew, hcertifies⟩
  · obtain rfl : k = 2 := by omega
    obtain rfl : _ = x := Option.some.inj hx
    exact ⟨rfl, by decide +kernel⟩

/-- Another call appends between the two sections of a `Checkpoint`: the record of the `Checkpoint` has
the hash of the first record, and comes after the second one. -/
theorem checkpoint_overtaken :
    (stateAt .sample {} [.append unixEpoch none (sampleEntry "op-1"), .readTip 0 sampleActor,
        .append unixEpoch none (sampleEntry "op-2"), .appendTip 0 unixEpoch none] 4).store.records.map
          (fun r => (r.metadata.entries.lookup (utf8 "tip_hash"), r.previousHash)) =
      [(none, zeroDigest), (none, hashOne), (some (utf8 (hex hashOne)), hashTwo)] ∧
      hex hashOne ≠ hex hashTwo := by
  decide +kernel

end Sections
end ShiftLock.Audit
