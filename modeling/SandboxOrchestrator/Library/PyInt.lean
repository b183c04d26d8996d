import Mathlib.Algebra.Group.Nat.Defs
import Mathlib.Data.List.DropRight
import Mathlib.Data.List.Forall2

/-!
# `int(s, base)` of Python

White space around a numeral is skipped, a sign and, in base 16, a `0x` may stand before
it, and single underscores may stand between its digits. What Unicode counts as white
space and as a decimal digit beyond ASCII is a parameter, and so is the longest decimal
numeral. A numeral of plain digits is read as their positional value.
-/

namespace PyInt

set_option autoImplicit false

structure Unicode where
  isSpace : Char → Bool
  decimal : Char → Option (Fin 10)

/-- White space becomes a blank and a decimal digit its ASCII form; nothing else beyond ASCII
can be part of a numeral. -/
def Unicode.toAscii (u : Unicode) (c : Char) : Char :=
  if c.toNat < 127 then c
  else if u.isSpace c then ' '
  else
    match u.decimal c with
    | some d => Char.ofNat (48 + d)
    | none => '?'

def isSpace (c : Char) : Bool := decide (c = ' ') || decide (9 ≤ c.toNat ∧ c.toNat ≤ 13)

/-- What a digit or a letter stands for; `base` is no digit. -/
def charValue (base : Nat) (c : Char) : Nat :=
  if 48 ≤ c.toNat ∧ c.toNat ≤ 57 then c.toNat - 48
  else if 65 ≤ c.toNat ∧ c.toNat ≤ 90 then c.toNat - 55
  else if 97 ≤ c.toNat ∧ c.toNat ≤ 122 then c.toNat - 87
  else base

def digit (base : Nat) (c : Char) : Option Nat :=
  if charValue base c < base then some (charValue base c) else none

def value (base : Nat) (ds : List Nat) : Nat := ds.foldl (fun n d => base * n + d) 0

/-- The digits, in groups with an underscore between two of them. -/
def digits (base : Nat) (cs : List Char) : Option (List Nat) :=
  if (cs.splitOn '_').any List.isEmpty then none else (cs.splitOn '_').flatten.mapM (digit base)

def dropPrefix (base : Nat) (cs : List Char) : List Char :=
  if base = 16 ∧ (cs.take 2 = ['0', 'x'] ∨ cs.take 2 = ['0', 'X']) then
    if (cs.drop 2).head? = some '_' then cs.drop 3 else cs.drop 2
  else cs

/-- `limit` is the greatest number of decimal digits, 0 for none. -/
def magnitude (limit base : Nat) (cs : List Char) : Option Nat :=
  match digits base (dropPrefix base cs) with
  | none => none
  | some ds => if base = 10 ∧ limit ≠ 0 ∧ limit < ds.length then none else some (value base ds)

/-- `none` is a `ValueError`. -/
def int (u : Unicode) (limit base : Nat) (s : String) : Option Int :=
  match ((s.toList.map u.toAscii).dropWhile isSpace).rdropWhile isSpace with
  | '-' :: cs => (magnitude limit base cs).map fun n => -(n : Int)
  | '+' :: cs => (magnitude limit base cs).map fun n => (n : Int)
  | cs => (magnitude limit base cs).map fun n => (n : Int)

theorem strip_eq_self {p : Char → Bool} {cs : List Char} (h : ∀ c ∈ cs, p c = false) :
    (cs.dropWhile p).rdropWhile p = cs := by
  have hfront : cs.dropWhile p = cs := by
    rw [List.dropWhile_eq_self_iff]
    intro hpos
    simp [h _ (List.getElem_mem hpos)]
  rw [hfront, List.rdropWhile_eq_self_iff]
  intro hne
  simp [h _ (List.getLast_mem hne)]

/-! ## Plain digits -/

/-- The characters are digits of the base, and these are their values. -/
abbrev Plain (base : Nat) (cs : List Char) (ds : List Nat) : Prop :=
  List.Forall₂ (fun c d => digit base c = some d) cs ds

theorem digit_range {base d : Nat} {c : Char} (h : digit base c = some d) :
    (48 ≤ c.toNat ∧ c.toNat ≤ 57) ∨ (65 ≤ c.toNat ∧ c.toNat ≤ 90) ∨
      (97 ≤ c.toNat ∧ c.toNat ≤ 122) := by
  by_contra hrange
  push Not at hrange
  obtain ⟨h₁, h₂, h₃⟩ := hrange
  have hvalue : charValue base c = base := by
    unfold charValue
    rw [if_neg (by omega), if_neg (by omega), if_neg (by omega)]
  rw [digit, hvalue, if_neg (Nat.lt_irrefl base)] at h
  cases h

theorem digit_ne {base d : Nat} {c x : Char} (h : digit base c = some d)
    (hx : x.toNat < 48 ∨ x = '_') : c ≠ x := by
  rintro rfl
  have hrange := digit_range h
  rcases hx with hx | rfl
  · omega
  · simp at hrange

theorem toAscii_digit {base d : Nat} {c : Char} (u : Unicode) (h : digit base c = some d) :
    u.toAscii c = c := by
  have hrange := digit_range h
  exact if_pos (by omega)

theorem isSpace_digit {base d : Nat} {c : Char} (h : digit base c = some d) : isSpace c = false := by
  have hrange := digit_range h
  have hblank : c ≠ ' ' := digit_ne h (.inl (by decide))
  have hcontrol : ¬(9 ≤ c.toNat ∧ c.toNat ≤ 13) := by omega
  simp [isSpace, hblank, hcontrol]

theorem value_append (base : Nat) (ds : List Nat) (d : Nat) :
    value base (ds ++ [d]) = base * value base ds + d := by
  simp [value]

namespace Plain

variable {base : Nat} {cs : List Char} {ds : List Nat}

theorem mem (h : Plain base cs ds) {c : Char} (hc : c ∈ cs) : ∃ d, digit base c = some d := by
  induction h with
  | nil => cases hc
  | cons hd _ ih =>
    rcases List.mem_cons.mp hc with rfl | hc
    · exact ⟨_, hd⟩
    · exact ih hc

theorem mapM (h : Plain base cs ds) : cs.mapM (digit base) = some ds := by
  induction h with
  | nil => rfl
  | cons hd _ ih => simp [List.mapM_cons, hd, ih]

theorem digits_eq (h : Plain base cs ds) (hne : cs ≠ []) : digits base cs = some ds := by
  have hsplit : cs.splitOn '_' = [cs] := by
    rw [List.splitOn_eq_splitOnP]
    apply List.splitOnP_eq_singleton
    intro c hc
    obtain ⟨d, hd⟩ := h.mem hc
    simpa using digit_ne hd (.inr rfl)
  simp [digits, hsplit, hne, h.mapM]

theorem dropPrefix_eq (h : Plain base cs ds) : dropPrefix base cs = cs := by
  apply if_neg
  rintro ⟨rfl, hx | hx⟩
  · have hmem : 'x' ∈ cs := List.mem_of_mem_take (by rw [hx]; decide)
    obtain ⟨d, hd⟩ := h.mem hmem
    cases hd
  · have hmem : 'X' ∈ cs := List.mem_of_mem_take (by rw [hx]; decide)
    obtain ⟨d, hd⟩ := h.mem hmem
    cases hd

theorem body_eq (h : Plain base cs ds) (u : Unicode) :
    ((cs.map u.toAscii).dropWhile isSpace).rdropWhile isSpace = cs := by
  have hascii : cs.map u.toAscii = cs := by
    refine (List.map_congr_left fun c hc => ?_).trans (List.map_id cs)
    obtain ⟨d, hd⟩ := h.mem hc
    exact toAscii_digit u hd
  rw [hascii]
  apply strip_eq_self
  intro c hc
  obtain ⟨d, hd⟩ := h.mem hc
  exact isSpace_digit hd

theorem int_eq (h : Plain base cs ds) (hne : cs ≠ []) (u : Unicode) (limit : Nat) :
    int u limit base (String.ofList cs) =
      if base = 10 ∧ limit ≠ 0 ∧ limit < ds.length then none else some (value base ds : Int) := by
  have hmagnitude : magnitude limit base cs =
      if base = 10 ∧ limit ≠ 0 ∧ limit < ds.length then none else some (value base ds) := by
    simp only [magnitude, h.dropPrefix_eq, h.digits_eq hne]
  unfold int
  rw [String.toList_ofList, h.body_eq u]
  split
  · obtain ⟨d, hd⟩ := h.mem List.mem_cons_self
    exact absurd rfl (digit_ne hd (.inl (by decide)))
  · obtain ⟨d, hd⟩ := h.mem List.mem_cons_self
    exact absurd rfl (digit_ne hd (.inl (by decide)))
  · rw [hmagnitude]
    split <;> rfl

end Plain

/-! ## Numerals that are written -/

theorem digit_digitChar {d : Nat} (h : d < 10) : digit 10 d.digitChar = some d := by
  have hall : ∀ d : Fin 10, digit 10 (Nat.digitChar d) = some d.val := by decide
  exact hall ⟨d, h⟩

theorem plain_toDigits (n : Nat) : ∃ ds, Plain 10 (Nat.toDigits 10 n) ds ∧ value 10 ds = n := by
  induction n using Nat.base_induction 10 (by decide) with
  | single m hm =>
    rw [Nat.toDigits_of_lt_base hm]
    exact ⟨[m], .cons (digit_digitChar hm) .nil, by simp [value]⟩
  | digit m d hd hm ih =>
    obtain ⟨ds, hds, hvalue⟩ := ih
    rw [← Nat.toDigits_append_toDigits (by decide) hm hd, Nat.toDigits_of_lt_base hd]
    refine ⟨ds ++ [d], ?_, ?_⟩
    · exact List.rel_append hds (.cons (digit_digitChar hd) .nil)
    · rw [value_append, hvalue]

theorem value_fixed (base k n : Nat) :
    value base ((List.range k).map fun i => n / base ^ (k - 1 - i) % base) = n % base ^ k := by
  induction k generalizing n with
  | zero => simp [value, Nat.mod_one]
  | succ k ih =>
    have hinit : ((List.range k).map fun i => n / base ^ (k + 1 - 1 - i) % base) =
        (List.range k).map fun i => n / base / base ^ (k - 1 - i) % base := by
      apply List.map_congr_left
      intro i hi
      rw [Nat.div_div_eq_div_mul, ← Nat.pow_succ']
      congr 3
      have := List.mem_range.mp hi
      omega
    rw [List.range_succ, List.map_append, hinit, List.map_singleton, value_append, ih]
    simp only [Nat.add_sub_cancel, Nat.sub_self, Nat.pow_zero, Nat.div_one]
    rw [Nat.pow_succ', Nat.mod_mul, Nat.add_comm]

end PyInt
