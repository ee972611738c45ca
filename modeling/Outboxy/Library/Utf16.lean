import Mathlib.Data.List.Basic

/-!
# UTF-16 texts

A string of code units in which surrogates need not come in pairs, and what an
encoder makes of it: a pair is one character, and a surrogate without its
partner is U+FFFD.

* `toNat_single` and `toNat_pair` say which characters a unit and a pair can
  be: those that count for one unit, and those that count for two.
* `nul_mem_decode_iff` carries U+0000 over from the units to the characters.
-/

namespace Utf16

/-- A code unit. -/
abbrev CodeUnit := Fin 0x10000

def isHigh (u : CodeUnit) : Bool := decide (0xD800 ≤ u.val ∧ u.val < 0xDC00)

def isLow (u : CodeUnit) : Bool := decide (0xDC00 ≤ u.val ∧ u.val < 0xE000)

/-- What stands for a surrogate without its partner. -/
def replacement : Char := Char.ofNat 0xFFFD

/-- The character of a unit of its own. -/
def single (u : CodeUnit) : Char :=
  if isHigh u ∨ isLow u then replacement else Char.ofNat u.val

/-- The character of a pair of surrogates. -/
def pair (high low : CodeUnit) : Char :=
  Char.ofNat (0x10000 + (high.val - 0xD800) * 0x400 + (low.val - 0xDC00))

def decode : List CodeUnit → List Char
  | [] => []
  | [u] => [single u]
  | u :: v :: rest =>
    if isHigh u ∧ isLow v then pair u v :: decode rest else single u :: decode (v :: rest)

theorem toNat_ofNat {n : Nat} (h : n.isValidChar) : (Char.ofNat n).toNat = n := by
  rw [Char.ofNat, dif_pos h]
  rfl

/-- A unit of its own is a character that counts for one. -/
theorem toNat_single (u : CodeUnit) :
    (single u).toNat = if isHigh u ∨ isLow u then 0xFFFD else u.val := by
  rw [single]
  split
  · rfl
  · rename_i hplain
    refine toNat_ofNat ?_
    rw [isHigh, isLow, decide_eq_true_eq, decide_eq_true_eq] at hplain
    have hlt := u.isLt
    show u.val < 0xD800 ∨ 0xDFFF < u.val ∧ u.val < 0x110000
    omega

theorem toNat_single_lt (u : CodeUnit) : (single u).toNat < 0x10000 := by
  rw [toNat_single]
  split
  · decide
  · exact u.isLt

theorem single_of_isHigh {u : CodeUnit} (h : isHigh u = true) : single u = replacement :=
  if_pos (Or.inl h)

/-- A pair is a character that counts for two. -/
theorem toNat_pair {u v : CodeUnit} (h : isHigh u = true ∧ isLow v = true) :
    0x10000 ≤ (pair u v).toNat := by
  rw [isHigh, isLow, decide_eq_true_eq, decide_eq_true_eq] at h
  have hvalid : (0x10000 + (u.val - 0xD800) * 0x400 + (v.val - 0xDC00)).isValidChar := by
    right
    omega
  rw [pair, toNat_ofNat hvalid]
  omega

theorem decode_pair {u v : CodeUnit} (rest : List CodeUnit) (h : isHigh u = true ∧ isLow v = true) :
    decode (u :: v :: rest) = pair u v :: decode rest := by
  rw [decode, if_pos h]

theorem decode_single {u v : CodeUnit} (rest : List CodeUnit)
    (h : ¬(isHigh u = true ∧ isLow v = true)) :
    decode (u :: v :: rest) = single u :: decode (v :: rest) := by
  rw [decode, if_neg h]

theorem single_eq_nul_iff {u : CodeUnit} : single u = '\x00' ↔ u = 0 := by
  constructor
  · intro h
    have hnat := congrArg Char.toNat h
    rw [toNat_single] at hnat
    split at hnat
    · cases hnat
    · exact Fin.ext hnat
  · intro h
    subst h
    rfl

theorem nul_mem_decode_iff {units : List CodeUnit} : '\x00' ∈ decode units ↔ 0 ∈ units := by
  induction units using decode.induct with
  | case1 => exact iff_of_false List.not_mem_nil List.not_mem_nil
  | case2 u =>
    rw [decode, List.mem_singleton, List.mem_singleton, eq_comm, single_eq_nul_iff, eq_comm]
  | case3 u v rest h ih =>
    have hpair : '\x00' ≠ pair u v := by
      intro hnul
      have hge := toNat_pair h
      rw [← hnul] at hge
      exact absurd hge (by decide)
    have hunits : (0 : CodeUnit) ≠ u ∧ (0 : CodeUnit) ≠ v := by
      constructor
      · intro hzero
        rw [← hzero] at h
        exact absurd h.1 (by decide)
      · intro hzero
        rw [← hzero] at h
        exact absurd h.2 (by decide)
    rw [decode_pair rest h, List.mem_cons, List.mem_cons, List.mem_cons, or_iff_right hpair,
      or_iff_right hunits.1, or_iff_right hunits.2, ih]
  | case4 u v rest h ih =>
    rw [decode_single rest h, List.mem_cons, ih, eq_comm, single_eq_nul_iff, eq_comm]
    exact List.mem_cons.symm

end Utf16
