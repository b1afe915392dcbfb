import ShiftLock.Workflow.Engine
import ShiftLock.Conc.Run

/-!
# The journal of checkpoints (`JournalStore` in `workflow/store.go`)

A journal is a file with one record on each line. `NewJournalStore` replays it and skips every line
that does not decode; `Save` and `Delete` append a record. A process may stop within an append, by
itself or with an error, and leave any part of the record behind.

An append does not start on a fresh line. So a part of a record that was left behind swallows the
record that is appended after it (`torn_line_swallows_save`), and a whole record that was never
acknowledged comes back. In every run in which neither happens, each reopening finds what was
acknowledged (`journal_recovers`).

Both calls change the checkpoints in memory before they append. So an append that fails leaves the
change behind, unless there was nothing to change (`failed_append_unchanged`).

The encoding of a record is a parameter.
-/

namespace ShiftLock.Workflow

open Conc

/-! ## The store -/

/-- `journalRecord`; a decoded record may have another `Op`. -/
inductive JournalRecord where
  | save (checkpoint : Checkpoint) (written : Time)
  | delete (instanceID : String) (written : Time)
  | other

/-- `json.Marshal` and `json.Unmarshal` of a record. -/
structure Codec where
  encode : JournalRecord → List UInt8
  decode : List UInt8 → Option JournalRecord

/-- The byte `'\n'`. -/
def newline : UInt8 := 10

/-- The loop of `splitLines`; `line` is what was read since `start`. -/
def splitLoop : List UInt8 → List UInt8 → List (List UInt8)
  | [], line => if line = [] then [] else [line]
  | b :: raw, line => if b = newline then line :: splitLoop raw [] else splitLoop raw (line ++ [b])

def splitLines (raw : List UInt8) : List (List UInt8) := splitLoop raw []

abbrev Checkpoints := AList fun _ : String => Checkpoint

/-- `JournalStore`, without its path. -/
structure JournalStore where
  max : Nat
  data : Checkpoints

def JournalRecord.apply (data : Checkpoints) : JournalRecord → Checkpoints
  | .save cp _ => data.insert cp.instanceID cp
  | .delete id _ => data.erase id
  | .other => data

/-- One line of `replay`. -/
def replayLine (c : Codec) (data : Checkpoints) (line : List UInt8) : Checkpoints :=
  if line = [] then data else ((c.decode line).map (·.apply data)).getD data

def replay (c : Codec) (raw : List UInt8) : Checkpoints := (splitLines raw).foldl (replayLine c) ∅

/-- `NewJournalStore` on a file that can be read. -/
def newJournalStore (c : Codec) (file : List UInt8) (max : Int) : JournalStore where
  max := if max ≤ 0 then 256 else max.toNat
  data := replay c file

inductive Appended where
  /-- It is written and synced. -/
  | synced
  /-- An error is returned after some bytes were written. -/
  | failed (written : Nat)
  /-- The process crashes after some bytes were written. -/
  | crashed (written : Nat)
  deriving DecidableEq, Repr

/-- The file after `appendLocked`. -/
def appendLocked (c : Codec) (r : JournalRecord) (file : List UInt8) : Appended → List UInt8
  | .synced => file ++ (c.encode r ++ [newline])
  | .failed n | .crashed n => file ++ (c.encode r ++ [newline]).take n

namespace JournalStore

/-- The part of `Save` before the append: the record, unless there are too many instances. -/
def save (s : JournalStore) (cp : Checkpoint) (now : Time) : JournalStore × Option JournalRecord :=
  if s.data.lookup cp.instanceID = none ∧ s.max ≤ s.data.keys.length then (s, none)
  else
    let cp := { cp with updatedAt := now }
    ({ s with data := s.data.insert cp.instanceID cp }, some (.save cp now))

/-- The part of `Delete` before the append. -/
def delete (s : JournalStore) (id : String) (now : Time) : JournalStore × JournalRecord :=
  ({ s with data := s.data.erase id }, .delete id now)

/-- `Load`; `none` is `ErrNotFound`. -/
def load (s : JournalStore) (id : String) : Option Checkpoint := s.data.lookup id

/-- `List`, in some order. -/
def list (s : JournalStore) : List Checkpoint := s.data.entries.map (·.2)

theorem list_perm {s s' : JournalStore} (h : ∀ id, s'.load id = s.load id) :
    s'.list.Perm s.list :=
  (List.lookup_ext s'.data.nodupKeys s.data.nodupKeys fun id cp => by
    rw [show s'.data.entries.dlookup id = s.data.entries.dlookup id from h id]).map _

end JournalStore

/-! ## Runs -/

namespace Journal

/-- The file, the store of the process, if there is one, and what was acknowledged last for each
instance. -/
structure World where
  file : List UInt8 := []
  store : Option JournalStore := none
  acknowledged : String → Option Checkpoint := fun _ => none

inductive Event where
  /-- `NewJournalStore`, in a new process or not. -/
  | reopen (max : Int)
  | save (cp : Checkpoint) (now : Time) (how : Appended)
  | delete (id : String) (now : Time) (how : Appended)

/-- What the last acknowledged call says of an instance. -/
def acknowledge (acked : String → Option Checkpoint) : JournalRecord → String → Option Checkpoint
  | .save cp _ => Function.update acked cp.instanceID (some cp)
  | .delete id _ => Function.update acked id none
  | .other => acked

def Event.record (w : World) : Event → Option (JournalStore × JournalRecord × Appended)
  | .reopen _ => none
  | .save cp now how => w.store.bind fun s => (s.save cp now).2.map ((s.save cp now).1, ·, how)
  | .delete id now how => w.store.map fun s => ((s.delete id now).1, (s.delete id now).2, how)

def step (c : Codec) (w : World) (e : Event) : World :=
  match e, e.record w with
  | .reopen max, _ => { w with store := some (newJournalStore c w.file max) }
  | _, none => w
  | _, some (s, r, how) =>
    { file := appendLocked c r w.file how
      store := match how with
        | .crashed _ => none
        | _ => some s
      acknowledged := if how = .synced then acknowledge w.acknowledged r else w.acknowledged }

end Journal

/-! ## Lines -/

/-- The bytes after the last newline, if `line` was read before. -/
def lastLine : List UInt8 → List UInt8 → List UInt8
  | [], line => line
  | b :: raw, line => if b = newline then lastLine raw [] else lastLine raw (line ++ [b])

section Lines

variable (l rest line : List UInt8)

theorem lastLine_append : lastLine (l ++ rest) line = lastLine rest (lastLine l line) := by
  induction l generalizing line with
  | nil => rfl
  | cons b l ih =>
    rw [List.cons_append, lastLine, lastLine]
    split <;> exact ih _

/-- The lines of a text that goes on are its whole lines, and the lines of what follows after its
last one. -/
theorem splitLoop_append :
    ∃ whole, ∀ rest, splitLoop (l ++ rest) line = whole ++ splitLoop rest (lastLine l line) := by
  induction l generalizing line with
  | nil => exact ⟨[], fun _ => rfl⟩
  | cons b l ih =>
    simp only [List.cons_append, splitLoop, lastLine]
    split
    · obtain ⟨whole, h⟩ := ih []
      exact ⟨line :: whole, fun rest => by rw [h, List.cons_append]⟩
    · exact ih _

variable {l}

theorem lastLine_of_not_mem (h : newline ∉ l) : lastLine l line = line ++ l := by
  induction l generalizing line with
  | nil => simp [lastLine]
  | cons b l ih =>
    have hb : b ≠ newline := fun hb => h (hb ▸ List.mem_cons_self)
    rw [lastLine, if_neg hb, ih _ (fun hl => h (List.mem_cons_of_mem _ hl)), List.append_assoc,
      List.singleton_append]

theorem splitLoop_of_not_mem (h : newline ∉ l) :
    splitLoop (l ++ rest) line = splitLoop rest (line ++ l) := by
  induction l generalizing line with
  | nil => simp
  | cons b l ih =>
    have hb : b ≠ newline := fun hb => h (hb ▸ List.mem_cons_self)
    rw [List.cons_append, splitLoop, if_neg hb, ih _ (fun hl => h (List.mem_cons_of_mem _ hl)),
      List.append_assoc, List.singleton_append]

end Lines

/-! ## Replay -/

/-- What the code relies on in the encoding of a record. -/
structure Codec.Lawful (c : Codec) (r : JournalRecord) : Prop where
  nonempty : c.encode r ≠ []
  newline : newline ∉ c.encode r
  decode : c.decode (c.encode r) = some r

def Codec.Skips (c : Codec) (line : List UInt8) : Prop := line = [] ∨ c.decode line = none

variable {c : Codec} {r : JournalRecord} {file line : List UInt8}

theorem Codec.Skips.replayLine (h : c.Skips line) (data : Checkpoints) :
    replayLine c data line = data := by
  unfold Workflow.replayLine
  split
  · rfl
  · rename_i hne
    rw [h.resolve_left hne]
    rfl

theorem Codec.Skips.splitLoop (h : c.Skips line) (data : Checkpoints) :
    (splitLoop [] line).foldl (Workflow.replayLine c) data = data := by
  unfold Workflow.splitLoop
  split
  · rfl
  · exact h.replayLine data

theorem replay_append (h : c.Skips (lastLine file [])) (l : List UInt8) :
    replay c (file ++ l) = (splitLoop l (lastLine file [])).foldl (replayLine c) (replay c file) := by
  obtain ⟨whole, hwhole⟩ := splitLoop_append file []
  have hfile : replay c file = whole.foldl (replayLine c) ∅ := by
    have hsplit := hwhole []
    rw [List.append_nil] at hsplit
    rw [replay, splitLines, hsplit, List.foldl_append, h.splitLoop]
  rw [hfile, replay, splitLines, hwhole, List.foldl_append]

theorem lookup_apply (data : Checkpoints) (r : JournalRecord) (id : String) :
    (r.apply data).lookup id = Journal.acknowledge (fun id => data.lookup id) r id := by
  cases r with
  | save cp written =>
    by_cases h : id = cp.instanceID
    · subst h
      simp [JournalRecord.apply, Journal.acknowledge]
    · simp [JournalRecord.apply, Journal.acknowledge, h, AList.lookup_insert_ne]
  | delete id' written =>
    by_cases h : id = id'
    · subst h
      simp [JournalRecord.apply, Journal.acknowledge]
    · simp [JournalRecord.apply, Journal.acknowledge, h, AList.lookup_erase_ne]
  | other => rfl

/-! ## Recovery -/

namespace Journal

/-- A replay of the file finds what was acknowledged, and its last line, if it is not whole, is not a
record. -/
structure Recovers (c : Codec) (file : List UInt8) (acked : String → Option Checkpoint) : Prop where
  lookup : ∀ id, (replay c file).lookup id = acked id
  tail : c.Skips (lastLine file [])

variable {acked : String → Option Checkpoint}

/-- A whole record on a line of its own is applied. -/
theorem Recovers.synced (h : Recovers c file acked) (hr : c.Lawful r) (hl : lastLine file [] = []) :
    Recovers c (file ++ (c.encode r ++ [newline])) (acknowledge acked r) := by
  have hline : splitLoop (c.encode r ++ [newline]) [] = [c.encode r] := by
    rw [splitLoop_of_not_mem _ _ hr.newline]
    rfl
  have happly : replay c (file ++ (c.encode r ++ [newline])) = r.apply (replay c file) := by
    rw [replay_append h.tail, hl, hline, List.foldl_cons, List.foldl_nil, replayLine,
      if_neg hr.nonempty, hr.decode]
    rfl
  refine ⟨fun id => ?_, .inl ?_⟩
  · rw [happly, lookup_apply, funext h.lookup]
  · rw [lastLine_append, lastLine_append]
    rfl

/-- A part of a record that makes no record of the last line changes nothing. -/
theorem Recovers.torn (h : Recovers c file acked) (hr : c.Lawful r) {n : Nat}
    (hn : n = 0 ∨ c.decode (lastLine file [] ++ (c.encode r).take n) = none) :
    Recovers c (file ++ (c.encode r ++ [newline]).take n) acked := by
  rcases hn with rfl | hn
  · rwa [List.take_zero, List.append_nil]
  have hskips : c.Skips (lastLine file [] ++ (c.encode r).take n) := .inr hn
  by_cases hle : n ≤ (c.encode r).length
  · -- the line goes on
    have hmem : newline ∉ (c.encode r).take n := fun h => hr.newline (List.mem_of_mem_take h)
    rw [List.take_append_of_le_length hle]
    refine ⟨fun id => ?_, ?_⟩
    · have hline := splitLoop_of_not_mem [] (lastLine file []) hmem
      rw [List.append_nil] at hline
      rw [replay_append h.tail, hline, hskips.splitLoop]
      exact h.lookup id
    · rwa [lastLine_append, lastLine_of_not_mem _ hmem]
  · -- all of it is written, after something that spoils it
    have hall : (c.encode r ++ [newline]).take n = c.encode r ++ [newline] :=
      List.take_of_length_le (by simp; omega)
    rw [List.take_of_length_le (by omega)] at hskips
    rw [hall]
    refine ⟨fun id => ?_, .inl ?_⟩
    · have hline : splitLoop [newline] (lastLine file [] ++ c.encode r)
          = [lastLine file [] ++ c.encode r] := rfl
      rw [replay_append h.tail, splitLoop_of_not_mem _ _ hr.newline, hline, List.foldl_cons,
        hskips.replayLine]
      exact h.lookup id
    · rw [lastLine_append, lastLine_append]
      rfl

/-- A record that is acknowledged starts on a line of its own, and what another append leaves behind
does not make a record of the last line. -/
def sound (c : Codec) (w : World) (e : Event) : Bool :=
  match e.record w with
  | none => true
  | some (_, _, .synced) => lastLine w.file [] = []
  | some (_, r, .failed n) | some (_, r, .crashed n) =>
    n = 0 ∨ (c.decode (lastLine w.file [] ++ (c.encode r).take n)).isNone

/-- The run appends the record, in whole or in part. -/
def Appends (c : Codec) (es : List Event) (r : JournalRecord) : Prop :=
  ∃ (i : Nat) (e : Event) (s : JournalStore) (how : Appended),
    es[i]? = some e ∧ e.record (Run.stateAt (step c) {} es i) = some (s, r, how)

variable {w : World} {e : Event}

theorem step_of_record {s : JournalStore} {r : JournalRecord} {how : Appended}
    (h : e.record w = some (s, r, how)) :
    (step c w e).file = appendLocked c r w.file how ∧
      (step c w e).acknowledged =
        if how = .synced then acknowledge w.acknowledged r else w.acknowledged := by
  cases e with
  | reopen max => cases h
  | save cp now how' | delete id now how' => simp only [step, h, and_self]

theorem step_of_none (h : e.record w = none) :
    (step c w e).file = w.file ∧ (step c w e).acknowledged = w.acknowledged := by
  cases e with
  | reopen max => exact ⟨rfl, rfl⟩
  | save cp now how' | delete id now how' => simp only [step, h, and_self]

theorem Recovers.step (h : Recovers c w.file w.acknowledged)
    (hlaw : ∀ s r how, e.record w = some (s, r, how) → c.Lawful r) (hsound : sound c w e = true) :
    Recovers c (step c w e).file (step c w e).acknowledged := by
  cases hrec : e.record w with
  | none =>
    obtain ⟨hfile, hack⟩ := step_of_none hrec
    rwa [hfile, hack]
  | some p =>
    obtain ⟨s, r, how⟩ := p
    obtain ⟨hfile, hack⟩ := step_of_record hrec
    have hr := hlaw s r how hrec
    unfold sound at hsound
    rw [hrec] at hsound
    rw [hfile, hack]
    cases how with
    | synced => exact h.synced hr (of_decide_eq_true hsound)
    | failed n | crashed n =>
      exact h.torn hr ((of_decide_eq_true hsound).imp_right Option.isNone_iff_eq_none.mp)

/-- In a run whose appends are all sound, every reopening finds for each instance the checkpoint of
its last acknowledged save, or nothing after an acknowledged delete. -/
theorem journal_recovers (c : Codec) (es : List Event) (hlaw : ∀ r, Appends c es r → c.Lawful r)
    (hsound : Run.Meets (step c) (sound c) {} es = true) {i : Nat} {max : Int}
    (hopen : es[i]? = some (.reopen max)) :
    ∃ s, (Run.stateAt (step c) {} es (i + 1)).store = some s ∧
      ∀ id, s.data.lookup id = (Run.stateAt (step c) {} es (i + 1)).acknowledged id := by
  have hinv : Recovers c (Run.stateAt (step c) {} es i).file
      (Run.stateAt (step c) {} es i).acknowledged := by
    have hi : i ≤ es.length := (List.getElem?_eq_some_iff.mp hopen).1.le
    refine Run.along (J := fun i => Recovers c (Run.stateAt (step c) {} es i).file
      (Run.stateAt (step c) {} es i).acknowledged) ⟨fun id => rfl, .inl rfl⟩ ?_ hi
    intro j e he ih
    rw [Run.stateAt_succ he]
    exact ih.step (fun s r how hrec => hlaw r ⟨j, e, s, how, he, hrec⟩)
      (Run.meets_getElem hsound he)
  rw [Run.stateAt_succ hopen]
  exact ⟨_, rfl, hinv.lookup⟩

def bare (id : String) : Checkpoint where
  instanceID := id
  workflow := "w"
  state := .running
  steps := ∅
  dryRun := false
  epochAtStep := ∅

/-- What `json.Marshal` makes of the record that saves a bare checkpoint at Go's zero time. -/
def bareText (id : String) : List UInt8 :=
  ("\x7b\"op\":\"save\",\"checkpoint\":\x7b\"instance_id\":\"" ++ id ++
    "\",\"workflow\":\"w\",\"state\":\"running\",\"steps\":\x7b\x7d," ++
    "\"updated_at\":\"0001-01-01T00:00:00Z\"\x7d," ++
    "\"at\":\"0001-01-01T00:00:00Z\"\x7d").toUTF8.data.toList

/-- The encoding, on the records that save the bare checkpoints of `x` and `y`. -/
def bareCodec : Codec where
  encode
    | .save cp _ => bareText cp.instanceID
    | _ => []
  decode line :=
    if line = bareText "x" then some (.save (bare "x") 0)
    else if line = bareText "y" then some (.save (bare "y") 0)
    else none

theorem bareCodec_lawful {id : String} (h : id = "x" ∨ id = "y") :
    bareCodec.Lawful (.save (bare id) 0) := by
  have hne : bareText "y" ≠ bareText "x" := by decide +kernel
  rcases h with rfl | rfl
  · exact ⟨by decide +kernel, by decide +kernel, by dsimp only [bareCodec, bare]; exact if_pos rfl⟩
  · refine ⟨by decide +kernel, by decide +kernel, ?_⟩
    dsimp only [bareCodec, bare]
    rw [if_neg hne, if_pos rfl]

theorem record_of_save {cp : Checkpoint} {now : Time} {how how' : Appended} {s : JournalStore}
    {r : JournalRecord} (h : (Event.save cp now how).record w = some (s, r, how')) :
    r = .save { cp with updatedAt := now } now := by
  simp only [Event.record, JournalStore.save, Option.bind_eq_some_iff, Option.map_eq_some_iff] at h
  obtain ⟨store, -, r', hr', heq⟩ := h
  split at hr'
  · cases hr'
  · cases hr'
    cases heq
    rfl

/-- A run that only saves the bare checkpoints of `x` and `y`. -/
theorem bareCodec_appends {es : List Event}
    (h : ∀ e ∈ es, (∃ max, e = .reopen max) ∨
      ∃ id how, (id = "x" ∨ id = "y") ∧ e = .save (bare id) 0 how)
    (r : JournalRecord) (hr : Appends bareCodec es r) : bareCodec.Lawful r := by
  obtain ⟨i, e, s, how, he, hrec⟩ := hr
  rcases h e (List.mem_of_getElem? he) with ⟨max, rfl⟩ | ⟨id, how', hid, rfl⟩
  · cases hrec
  · rw [record_of_save hrec]
    exact bareCodec_lawful hid

/-- The save of `y` stops after five bytes; `x` is recovered and `y` is not there. -/
theorem journal_recovers_torn :
    Run.Meets (step bareCodec) (sound bareCodec) {}
        [.reopen 0, .save (bare "x") 0 .synced, .save (bare "y") 0 (.crashed 5), .reopen 0] = true ∧
      ∃ s, (Run.stateAt (step bareCodec) {}
          [.reopen 0, .save (bare "x") 0 .synced, .save (bare "y") 0 (.crashed 5), .reopen 0]
          4).store = some s ∧
        ∀ id, s.data.lookup id = (Run.stateAt (step bareCodec) {}
          [.reopen 0, .save (bare "x") 0 .synced, .save (bare "y") 0 (.crashed 5), .reopen 0]
          4).acknowledged id := by
  have hsound : Run.Meets (step bareCodec) (sound bareCodec) {}
      [.reopen 0, .save (bare "x") 0 .synced, .save (bare "y") 0 (.crashed 5), .reopen 0] = true := by
    decide +kernel
  refine ⟨hsound, @journal_recovers bareCodec _ ?_ hsound 3 0 rfl⟩
  exact bareCodec_appends (by simp)

/-- The save of `x` stops after five bytes, and the acknowledged save of `y` goes on in its line. -/
theorem torn_line_swallows_save :
    let es : List Event := [.reopen 0, .save (bare "x") 0 (.crashed 5), .reopen 0,
      .save (bare "y") 0 .synced, .reopen 0]
    let w := Run.stateAt (step bareCodec) {} es 5
    (∀ r, Appends bareCodec es r → bareCodec.Lawful r) ∧
      (w.acknowledged "y").isSome = true ∧ w.store.isSome = true ∧
      w.store.bind (·.data.lookup "y") = none := by
  intro es w
  refine ⟨bareCodec_appends (by simp [es]), ?_⟩
  have hstore : w.store.map (fun s => (s.data.lookup "y").isSome) = some false := by decide +kernel
  obtain ⟨s, hs, hy⟩ := Option.map_eq_some_iff.mp hstore
  refine ⟨by decide +kernel, by rw [hs]; rfl, ?_⟩
  rw [hs]
  exact Option.isSome_eq_false_iff.mp hy |> Option.isNone_iff_eq_none.mp

/-! ## Failed appends -/

/-- How the append of a call ends. -/
def Event.how : Event → Option Appended
  | .reopen _ => none
  | .save _ _ how | .delete _ _ how => some how

/-- The call returns an error: that of the append, or that of a `Save` that is refused. -/
def Event.Fails (s : JournalStore) (e : Event) : Prop :=
  (∃ n, e.how = some (.failed n)) ∨ ∃ cp now how, e = .save cp now how ∧ (s.save cp now).2 = none

/-- The call does not change what is in memory. -/
def Event.Idle (s : JournalStore) : Event → Prop
  | .reopen _ => False
  | .save cp now _ =>
    (s.save cp now).2 = none ∨ s.load cp.instanceID = some { cp with updatedAt := now }
  | .delete id _ _ => s.load id = none

/-- An append that fails and writes nothing: the error is returned and the file is as before, and
`Load` and `List` return what they returned exactly if there was nothing to change in memory. -/
theorem failed_append_unchanged {w : World} {s : JournalStore} (hs : w.store = some s) {e : Event}
    (he : e.how = some (.failed 0)) :
    e.Fails s ∧ (step c w e).file = w.file ∧ ∃ s', (step c w e).store = some s' ∧
      ((∀ id, s'.load id = s.load id) ∧ s'.list.Perm s.list ↔ e.Idle s) := by
  refine ⟨.inl ⟨0, he⟩, ?_⟩
  cases e with
  | reopen max => cases he
  | save cp now how =>
    cases he
    by_cases hfull : s.data.lookup cp.instanceID = none ∧ s.max ≤ s.data.keys.length
    · refine ⟨by simp [step, Event.record, hs, JournalStore.save, hfull], s, ?_, ?_⟩
      · simp [step, Event.record, hs, JournalStore.save, hfull]
      · simp [Event.Idle, JournalStore.save, hfull]
    · refine ⟨by simp [step, Event.record, hs, JournalStore.save, hfull, appendLocked], _,
        by simp [step, Event.record, hs, JournalStore.save, hfull]; rfl, fun h => ?_, fun h => ?_⟩
      · refine .inr ((h.1 cp.instanceID).symm.trans ?_)
        exact AList.lookup_insert _
      · have hload := h.resolve_left (by simp [JournalStore.save, hfull])
        refine (and_iff_left_of_imp JournalStore.list_perm).mpr fun id => ?_
        by_cases hid : id = cp.instanceID
        · subst hid
          exact (AList.lookup_insert _).trans hload.symm
        · exact AList.lookup_insert_ne hid
  | delete id now how =>
    cases he
    refine ⟨by simp [step, Event.record, hs, JournalStore.delete, appendLocked], _,
      by simp [step, Event.record, hs, JournalStore.delete]; rfl, fun h => ?_, fun h => ?_⟩
    · exact (h.1 id).symm.trans (AList.lookup_erase _ _)
    · refine (and_iff_left_of_imp JournalStore.list_perm).mpr fun id' => ?_
      by_cases hid : id' = id
      · subst hid
        exact (AList.lookup_erase _ _).trans h.symm
      · exact AList.lookup_erase_ne hid

/-- The delete of an instance that is not there fails; the other one stays. -/
theorem failed_append_unchanged_delete :
    ∃ s', (step bareCodec { store := some ⟨1, AList.singleton "x" (bare "x")⟩ }
        (.delete "y" 0 (.failed 0))).store = some s' ∧
      (∀ id, s'.load id = (JournalStore.mk 1 (AList.singleton "x" (bare "x"))).load id) ∧
      s'.list.Perm (JournalStore.mk 1 (AList.singleton "x" (bare "x"))).list := by
  obtain ⟨-, -, s', hs', h⟩ := failed_append_unchanged
    (w := { store := some ⟨1, AList.singleton "x" (bare "x")⟩ }) rfl (e := .delete "y" 0 (.failed 0)) rfl
  exact ⟨s', hs', h.mpr (AList.lookup_eq_none.mpr (by decide))⟩

/-- The save of `x` fails and nothing is written; it is loaded all the same, and not by a process
that opens the file. -/
theorem failed_save_loaded :
    let w := Run.stateAt (step bareCodec) {} [.reopen 0, .save (bare "x") 0 (.failed 0)] 2
    w.file = [] ∧ (w.store.bind (·.load "x")).isSome = true ∧
      (newJournalStore bareCodec w.file 0).load "x" = none :=
  ⟨by decide +kernel, by decide +kernel, rfl⟩

end Journal

end ShiftLock.Workflow
