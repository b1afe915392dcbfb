import ShiftLock.Hash.Hex
import Mathlib.Data.List.Basic

/-!
# JSON values and their text

`Value ν` are decoded JSON values with numbers in `ν`; a string is a list of code points and an object
a list of members. `Format.print` writes a value without blanks, with the escapes of an encoder that is
safe inside HTML. The text of a number is a parameter (`Format`): numbers are only known to be written
injectively, with the characters of a number.

The text determines the value (`Format.print_injective`): what follows a value is told apart from it by
its first character, so that a text has at most one beginning that is the text of a value
(`Format.print_append`).
-/

namespace Json

open ShiftLock (hexDigit hexDigit_injective)

/-- Decoded JSON values. -/
inductive Value (ν : Type) where
  | null
  | bool (b : Bool)
  | num (x : ν)
  | str (s : List Char)
  | arr (items : List (Value ν))
  | obj (members : List (List Char × Value ν))

/-! ## Strings -/

/-- The quotation mark. -/
def dquote : Char := Char.ofNat 34

def backslash : Char := Char.ofNat 92

/-- The characters with an escape of two characters, and the second of the two. -/
def escapes : List (Char × Char) :=
  [(dquote, dquote), (backslash, backslash), (Char.ofNat 8, 'b'), (Char.ofNat 12, 'f'),
    (Char.ofNat 10, 'n'), (Char.ofNat 13, 'r'), (Char.ofNat 9, 't')]

/-- The other characters that are escaped: controls, what is special in HTML, and the two line
separators. -/
def escaped (c : Char) : Bool :=
  decide (c.toNat < 32) || decide (c ∈ ['<', '>', '&', Char.ofNat 0x2028, Char.ofNat 0x2029])

/-- Four hexadecimal digits. -/
def hex4 (n : Nat) : List Char :=
  [hexDigit (n / 4096 % 16), hexDigit (n / 256 % 16), hexDigit (n / 16 % 16), hexDigit (n % 16)]

/-- The text of one character in a string. -/
def escapeChar (c : Char) : List Char :=
  match escapes.lookup c with
  | some l => [backslash, l]
  | none => if escaped c then backslash :: 'u' :: hex4 c.toNat else [c]

/-- The text of a string. -/
def quote (s : List Char) : List Char := dquote :: (s.flatMap escapeChar ++ [dquote])

theorem hex4_injective {m n : Nat} (hm : m < 65536) (hn : n < 65536) (h : hex4 m = hex4 n) : m = n := by
  simp only [hex4, List.cons.injEq, and_true] at h
  obtain ⟨h₃, h₂, h₁, h₀⟩ := h
  have hdigit : ∀ {a b : Nat}, hexDigit (a % 16) = hexDigit (b % 16) → a % 16 = b % 16 := fun h =>
    hexDigit_injective _ (Nat.mod_lt _ (by decide)) _ (Nat.mod_lt _ (by decide)) h
  have := hdigit h₃
  have := hdigit h₂
  have := hdigit h₁
  have := hdigit h₀
  omega

theorem escapes_injective : ∀ p ∈ escapes, ∀ q ∈ escapes, p.2 = q.2 → p.1 = q.1 := by decide

theorem escapes_ne_u : ∀ p ∈ escapes, p.2 ≠ 'u' := by decide

theorem mem_escapes {c l : Char} (h : escapes.lookup c = some l) : (c, l) ∈ escapes := by
  obtain ⟨l₁, l₂, heq, _⟩ := List.lookup_eq_some_iff.mp h
  rw [heq]
  simp

/-- How a character is written. -/
inductive Escape (c : Char) : List Char → Prop
  | short (l : Char) (h : (c, l) ∈ escapes) : Escape c [backslash, l]
  | long (h : c.toNat < 65536) : Escape c (backslash :: 'u' :: hex4 c.toNat)
  | raw (hb : c ≠ backslash) (hq : c ≠ dquote) : Escape c [c]

theorem escapeChar_cases (c : Char) : Escape c (escapeChar c) := by
  unfold escapeChar
  split
  · rename_i l hl
    exact .short l (mem_escapes hl)
  · rename_i hnone
    split
    · rename_i hescaped
      refine .long ?_
      simp only [escaped, Bool.or_eq_true, decide_eq_true_eq, List.mem_cons, List.not_mem_nil,
        or_false] at hescaped
      rcases hescaped with hlt | rfl | rfl | rfl | rfl | rfl
      · omega
      all_goals decide
    · refine .raw ?_ ?_ <;> rintro rfl <;> exact absurd hnone (by decide)

theorem escapeChar_append {c c' : Char} {t t' : List Char}
    (h : escapeChar c ++ t = escapeChar c' ++ t') : c = c' ∧ t = t' := by
  have hc := escapeChar_cases c
  have hc' := escapeChar_cases c'
  generalize escapeChar c = x at h hc
  generalize escapeChar c' = x' at h hc'
  cases hc with
  | short l hl =>
    cases hc' with
    | short l' hl' =>
      simp only [List.cons_append, List.nil_append, List.cons.injEq, true_and] at h
      exact ⟨escapes_injective _ hl _ hl' h.1, h.2⟩
    | long =>
      simp only [List.cons_append, List.nil_append, List.cons.injEq, true_and] at h
      exact absurd h.1 (escapes_ne_u _ hl)
    | raw hb => exact absurd (List.cons.inj h).1.symm hb
  | long hlt =>
    cases hc' with
    | short l' hl' =>
      simp only [List.cons_append, List.nil_append, List.cons.injEq, true_and] at h
      exact absurd h.1.symm (escapes_ne_u _ hl')
    | long hlt' =>
      simp only [List.cons_append, List.cons.injEq, true_and] at h
      obtain ⟨hhex, ht⟩ := List.append_inj h rfl
      exact ⟨Char.toNat_inj.mp (hex4_injective hlt hlt' hhex), ht⟩
    | raw hb => exact absurd (List.cons.inj h).1.symm hb
  | raw hb =>
    cases hc' with
    | short | long => exact absurd (List.cons.inj h).1 hb
    | raw => exact List.cons.inj h

theorem escapeChar_ne_dquote (c : Char) (t t' : List Char) : escapeChar c ++ t ≠ dquote :: t' := by
  intro h
  have hc := escapeChar_cases c
  generalize escapeChar c = x at h hc
  cases hc with
  | short | long => exact absurd (List.cons.inj h).1 (by decide)
  | raw _ hq => exact hq (List.cons.inj h).1

/-- A string ends at its closing mark. -/
theorem quote_append {s s' t t' : List Char} (h : quote s ++ t = quote s' ++ t') : s = s' ∧ t = t' := by
  have hbody : s.flatMap escapeChar ++ (dquote :: t) = s'.flatMap escapeChar ++ (dquote :: t') := by
    simpa [quote] using h
  clear h
  induction s generalizing s' with
  | nil =>
    cases s' with
    | nil => exact ⟨rfl, (List.cons.inj hbody).2⟩
    | cons c' s' =>
      rw [List.flatMap_cons, List.append_assoc] at hbody
      exact (escapeChar_ne_dquote _ _ _ hbody.symm).elim
  | cons c s ih =>
    cases s' with
    | nil =>
      rw [List.flatMap_cons, List.append_assoc] at hbody
      exact (escapeChar_ne_dquote _ _ _ hbody).elim
    | cons c' s' =>
      rw [List.flatMap_cons, List.flatMap_cons, List.append_assoc, List.append_assoc] at hbody
      obtain ⟨rfl, hrest⟩ := escapeChar_append hbody
      obtain ⟨rfl, ht⟩ := ih hrest
      exact ⟨rfl, ht⟩

/-! ## Numbers -/

/-- The characters of a number. -/
def numeric (c : Char) : Bool := c.isDigit || decide (c ∈ ['-', '+', '.', 'e', 'E'])

/-- The text does not go on with a character of a number. -/
def Stops (t : List Char) : Prop := ∀ c ∈ t.head?, numeric c = false

theorem stops_cons {c : Char} (h : numeric c = false) (t : List Char) : Stops (c :: t) := by
  intro c' hc'
  obtain rfl : c = c' := Option.some.inj hc'
  exact h

/-- How numbers are written. -/
structure Format (ν : Type) where
  format : ν → List Char
  injective : ∀ x y, format x = format y → x = y
  numeric : ∀ x, ∀ c ∈ format x, numeric c = true
  ne_nil : ∀ x, format x ≠ []

/-- The text of a number ends where the characters of a number end. -/
theorem numeric_append {l l' t t' : List Char} (hl : ∀ c ∈ l, numeric c = true)
    (hl' : ∀ c ∈ l', numeric c = true) (ht : Stops t) (ht' : Stops t') (h : l ++ t = l' ++ t') :
    l = l' ∧ t = t' := by
  induction l generalizing l' with
  | nil =>
    cases l' with
    | nil => exact ⟨rfl, h⟩
    | cons c l' =>
      have hstop : numeric c = false := ht c (by simp [show t = c :: l' ++ t' from h])
      rw [hl' c List.mem_cons_self] at hstop
      cases hstop
  | cons c l ih =>
    cases l' with
    | nil =>
      have hstop : numeric c = false := ht' c (by simp [← show c :: l ++ t = t' from h])
      rw [hl c List.mem_cons_self] at hstop
      cases hstop
    | cons c' l' =>
      obtain ⟨rfl, hrest⟩ := List.cons.inj h
      obtain ⟨rfl, hend⟩ := ih (fun d hd => hl d (List.mem_cons_of_mem _ hd))
        (fun d hd => hl' d (List.mem_cons_of_mem _ hd)) hrest
      exact ⟨rfl, hend⟩

/-! ## Values -/

namespace Format

variable {ν : Type} (F : Format ν)

mutual

def print : Value ν → List Char
  | .null => ['n', 'u', 'l', 'l']
  | .bool true => ['t', 'r', 'u', 'e']
  | .bool false => ['f', 'a', 'l', 's', 'e']
  | .num x => F.format x
  | .str s => quote s
  | .arr items => '[' :: printItems items
  | .obj members => '{' :: printMembers members

/-- The text of the items of an array, after its bracket. -/
def printItems : List (Value ν) → List Char
  | [] => [']']
  | v :: vs => print v ++ printMoreItems vs

/-- The text of the items after the first. -/
def printMoreItems : List (Value ν) → List Char
  | [] => [']']
  | v :: vs => ',' :: (print v ++ printMoreItems vs)

/-- The text of the members of an object, after its brace. -/
def printMembers : List (List Char × Value ν) → List Char
  | [] => ['}']
  | (k, v) :: ms => quote k ++ ':' :: (print v ++ printMoreMembers ms)

/-- The text of the members after the first. -/
def printMoreMembers : List (List Char × Value ν) → List Char
  | [] => ['}']
  | (k, v) :: ms => ',' :: (quote k ++ ':' :: (print v ++ printMoreMembers ms))

end

end Format

/-- The kinds of values that the first character of a text tells. -/
inductive Kind where
  | null | yes | no | num | str | arr | obj
  /-- No value. -/
  | other
  deriving DecidableEq, Repr

def Value.kind {ν : Type} : Value ν → Kind
  | .null => .null
  | .bool true => .yes
  | .bool false => .no
  | .num _ => .num
  | .str _ => .str
  | .arr _ => .arr
  | .obj _ => .obj

/-- The kind of value that starts with a character. -/
def kindOf (c : Char) : Kind :=
  if c = 'n' then .null else if c = 't' then .yes else if c = 'f' then .no
  else if c = dquote then .str else if c = '[' then .arr else if c = '{' then .obj
  else if numeric c then .num else .other

theorem kindOf_numeric {c : Char} (h : numeric c = true) : kindOf c = .num := by
  have hne : ∀ d, numeric d = false → c ≠ d := by
    rintro d hd rfl
    rw [hd] at h
    cases h
  simp [kindOf, hne 'n' (by decide), hne 't' (by decide), hne 'f' (by decide), hne dquote (by decide),
    hne '[' (by decide), hne '{' (by decide), h]

namespace Format

variable {ν : Type} {F : Format ν}

theorem print_head (v : Value ν) : ∃ c t, F.print v = c :: t ∧ kindOf c = v.kind := by
  cases v with
  | null | arr items | obj members => exact ⟨_, _, by rw [print], rfl⟩
  | bool b => cases b <;> exact ⟨_, _, by rw [print], rfl⟩
  | num x =>
    obtain ⟨c, t, hx⟩ := List.exists_cons_of_ne_nil (F.ne_nil x)
    refine ⟨c, t, by rw [print, hx], kindOf_numeric (F.numeric x c ?_)⟩
    rw [hx]
    exact List.mem_cons_self
  | str s => exact ⟨_, _, by rw [print, quote], rfl⟩

theorem kind_eq {v w : Value ν} {t t' : List Char} (h : F.print v ++ t = F.print w ++ t') :
    v.kind = w.kind := by
  obtain ⟨c, l, hv, hc⟩ := print_head v
  obtain ⟨c', l', hw, hc'⟩ := print_head w
  rw [hv, hw] at h
  obtain ⟨rfl, -⟩ := List.cons.inj h
  exact hc.symm.trans hc'

theorem stops_moreItems (vs : List (Value ν)) (t : List Char) : Stops (F.printMoreItems vs ++ t) := by
  cases vs <;> rw [printMoreItems] <;> exact stops_cons (by decide) _

theorem stops_moreMembers (ms : List (List Char × Value ν)) (t : List Char) :
    Stops (F.printMoreMembers ms ++ t) := by
  cases ms <;> rw [printMoreMembers] <;> exact stops_cons (by decide) _

theorem print_ne_bracket (v : Value ν) (t t' : List Char) : F.print v ++ t ≠ ']' :: t' := by
  intro h
  obtain ⟨c, l, hv, hc⟩ := print_head (F := F) v
  rw [hv] at h
  obtain ⟨rfl, -⟩ := List.cons.inj h
  cases v with
  | bool b => cases b <;> cases hc
  | null | num | str | arr | obj => cases hc

/-- Before the first item there is no comma. -/
theorem printItems_append {vs ws : List (Value ν)} {t t' : List Char}
    (ih : F.printMoreItems vs ++ t = F.printMoreItems ws ++ t' → vs = ws ∧ t = t')
    (h : F.printItems vs ++ t = F.printItems ws ++ t') : vs = ws ∧ t = t' := by
  cases vs with
  | nil =>
    cases ws with
    | nil => exact ⟨rfl, List.append_cancel_left h⟩
    | cons w ws =>
      rw [printItems, printItems, List.append_assoc] at h
      exact (print_ne_bracket _ _ _ h.symm).elim
  | cons v vs =>
    cases ws with
    | nil =>
      rw [printItems, printItems, List.append_assoc] at h
      exact (print_ne_bracket _ _ _ h).elim
    | cons w ws =>
      rw [printItems, printItems] at h
      refine ih ?_
      rw [printMoreItems, printMoreItems, List.cons_append, List.cons_append, h]

theorem printMembers_append {ms ns : List (List Char × Value ν)} {t t' : List Char}
    (ih : F.printMoreMembers ms ++ t = F.printMoreMembers ns ++ t' → ms = ns ∧ t = t')
    (h : F.printMembers ms ++ t = F.printMembers ns ++ t') : ms = ns ∧ t = t' := by
  cases ms with
  | nil =>
    cases ns with
    | nil => exact ⟨rfl, List.append_cancel_left h⟩
    | cons n ns =>
      obtain ⟨k, v⟩ := n
      rw [printMembers, printMembers] at h
      exact absurd (List.cons.inj h).1 (by decide)
  | cons m ms =>
    obtain ⟨k, v⟩ := m
    cases ns with
    | nil =>
      rw [printMembers, printMembers] at h
      exact absurd (List.cons.inj h).1 (by decide)
    | cons n ns =>
      obtain ⟨k', w⟩ := n
      rw [printMembers, printMembers] at h
      refine ih ?_
      rw [printMoreMembers, printMoreMembers, List.cons_append, List.cons_append, h]

mutual

/-- A text has at most one beginning that is the text of a value, if what follows does not go on like a
number. -/
theorem print_append (v w : Value ν) {t t' : List Char} (ht : Stops t) (ht' : Stops t')
    (h : F.print v ++ t = F.print w ++ t') : v = w ∧ t = t' := by
  have hkind := kind_eq h
  cases v with
  | null =>
    cases w with
    | null => exact ⟨rfl, List.append_cancel_left h⟩
    | bool b => cases b <;> cases hkind
    | num | str | arr | obj => cases hkind
  | bool b =>
    cases w with
    | bool b' =>
      obtain rfl : b = b' := by cases b <;> cases b' <;> first | rfl | cases hkind
      exact ⟨rfl, List.append_cancel_left h⟩
    | null | num | str | arr | obj => cases b <;> cases hkind
  | num x =>
    cases w with
    | num y =>
      rw [print, print] at h
      obtain ⟨hxy, hend⟩ := numeric_append (F.numeric x) (F.numeric y) ht ht' h
      rw [F.injective x y hxy]
      exact ⟨rfl, hend⟩
    | bool b => cases b <;> cases hkind
    | null | str | arr | obj => cases hkind
  | str s =>
    cases w with
    | str s' =>
      rw [print, print] at h
      obtain ⟨rfl, hend⟩ := quote_append h
      exact ⟨rfl, hend⟩
    | bool b => cases b <;> cases hkind
    | null | num | arr | obj => cases hkind
  | arr items =>
    cases w with
    | arr items' =>
      rw [print, print] at h
      obtain ⟨rfl, hend⟩ := printItems_append (printMoreItems_append items items')
        (List.cons.inj h).2
      exact ⟨rfl, hend⟩
    | bool b => cases b <;> cases hkind
    | null | num | str | obj => cases hkind
  | obj members =>
    cases w with
    | obj members' =>
      rw [print, print] at h
      obtain ⟨rfl, hend⟩ := printMembers_append (printMoreMembers_append members members')
        (List.cons.inj h).2
      exact ⟨rfl, hend⟩
    | bool b => cases b <;> cases hkind
    | null | num | str | arr => cases hkind
termination_by structural v

theorem printMoreItems_append (vs ws : List (Value ν)) {t t' : List Char}
    (h : F.printMoreItems vs ++ t = F.printMoreItems ws ++ t') : vs = ws ∧ t = t' := by
  cases vs with
  | nil =>
    cases ws with
    | nil => exact ⟨rfl, List.append_cancel_left h⟩
    | cons w ws =>
      rw [printMoreItems, printMoreItems] at h
      exact absurd (List.cons.inj h).1 (by decide)
  | cons v vs =>
    cases ws with
    | nil =>
      rw [printMoreItems, printMoreItems] at h
      exact absurd (List.cons.inj h).1 (by decide)
    | cons w ws =>
      rw [printMoreItems, printMoreItems, List.cons_append, List.cons_append, List.append_assoc,
        List.append_assoc] at h
      obtain ⟨rfl, hmore⟩ := print_append v w (stops_moreItems vs t) (stops_moreItems ws t')
        (List.cons.inj h).2
      obtain ⟨rfl, hend⟩ := printMoreItems_append vs ws hmore
      exact ⟨rfl, hend⟩
termination_by structural vs

theorem printMoreMembers_append (ms ns : List (List Char × Value ν)) {t t' : List Char}
    (h : F.printMoreMembers ms ++ t = F.printMoreMembers ns ++ t') : ms = ns ∧ t = t' := by
  cases ms with
  | nil =>
    cases ns with
    | nil => exact ⟨rfl, List.append_cancel_left h⟩
    | cons n ns =>
      obtain ⟨k, v⟩ := n
      rw [printMoreMembers, printMoreMembers] at h
      exact absurd (List.cons.inj h).1 (by decide)
  | cons m ms =>
    obtain ⟨k, v⟩ := m
    cases ns with
    | nil =>
      rw [printMoreMembers, printMoreMembers] at h
      exact absurd (List.cons.inj h).1 (by decide)
    | cons n ns =>
      obtain ⟨k', w⟩ := n
      rw [printMoreMembers, printMoreMembers, List.cons_append, List.cons_append, List.append_assoc,
        List.append_assoc] at h
      obtain ⟨rfl, hvalue⟩ := quote_append (List.cons.inj h).2
      rw [List.cons_append, List.cons_append, List.append_assoc, List.append_assoc] at hvalue
      obtain ⟨rfl, hmore⟩ := print_append v w (stops_moreMembers ms t) (stops_moreMembers ns t')
        (List.cons.inj hvalue).2
      obtain ⟨rfl, hend⟩ := printMoreMembers_append ms ns hmore
      exact ⟨rfl, hend⟩
termination_by structural ms

end

/-- The text determines the value. -/
theorem print_injective {v w : Value ν} (h : F.print v = F.print w) : v = w := by
  have hnil : Stops [] := fun c hc => by cases hc
  have h : F.print v ++ [] = F.print w ++ [] := by rw [h]
  exact (print_append v w hnil hnil h).1

end Format

end Json
