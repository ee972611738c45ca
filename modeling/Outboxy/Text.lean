import Mathlib.Data.List.Infix

/-!
# Methods of strings

`toLowerCase`, `includes`, `startsWith`, `split` and `join`, and numbers in
decimal.

* `includes_iff` and `includes_append_iff` say where a part of a text is found.
* `split_join` and `join_inj`: parts without the separator can be told from
  what they are joined to.
* `dash_toString_inj`: so can a number at the end of a text, behind a dash.
-/

namespace Outboxy

/-- `toLowerCase`, as far as the result can be ASCII: besides the ASCII
letters that is the Kelvin sign. -/
def toLowerCase (text : String) : String :=
  String.ofList (text.toList.map fun c => if c = '\u212A' then 'k' else c.toLower)

/-- `text.includes(part)` -/
def includes (text part : String) : Bool :=
  text.toList.tails.any fun rest => part.toList.isPrefixOf rest

/-- `text.startsWith(start)` -/
def startsWith (text start : String) : Bool := start.toList.isPrefixOf text.toList

/-- `text.split(c)` -/
def split (text : String) (c : Char) : List String := (text.toList.splitOn c).map String.ofList

/-- `parts.join(c)` -/
def join (parts : List String) (c : Char) : String := (String.singleton c).intercalate parts

/-! ## Tests -/

theorem toLowerCase_append (text text' : String) :
    toLowerCase (text ++ text') = toLowerCase text ++ toLowerCase text' := by
  rw [toLowerCase, String.toList_append, List.map_append, String.ofList_append]
  rfl

theorem includes_iff {text part : String} :
    includes text part = true ↔ part.toList <:+: text.toList := by
  rw [includes, List.any_eq_true]
  constructor
  · rintro ⟨rest, hrest, hpart⟩
    exact (List.isPrefixOf_iff_prefix.mp hpart).isInfix.trans
      ((List.mem_tails _ _).mp hrest).isInfix
  · intro h
    obtain ⟨rest, hpart, hrest⟩ := List.infix_iff_prefix_suffix.mp h
    exact ⟨rest, (List.mem_tails _ _).mpr hrest, List.isPrefixOf_iff_prefix.mpr hpart⟩

/-- A part without the last character of `text` is not found across its end. -/
theorem includes_append_iff {text text' part : String} {c : Char}
    (hlast : text.toList.getLast? = some c) (hc : c ∉ part.toList) :
    includes (text ++ text') part = true ↔
      includes text part = true ∨ includes text' part = true := by
  rw [includes_iff, includes_iff, includes_iff, String.toList_append, List.infix_append_iff]
  constructor
  · rintro (h | h | ⟨before, after, hpart, hbefore, hafter⟩)
    · exact Or.inl h
    · exact Or.inr h
    · rcases List.eq_nil_or_concat before with rfl | ⟨init, d, rfl⟩
      · rw [List.nil_append] at hpart
        rw [hpart]
        exact Or.inr hafter.isInfix
      · -- A character before the end stands at the end.
        obtain ⟨front, hfront⟩ := hbefore
        rw [List.concat_eq_append] at hpart hfront
        rw [← hfront, ← List.append_assoc, List.getLast?_concat] at hlast
        obtain rfl := Option.some.inj hlast
        exact absurd (by rw [hpart]; simp) hc
  · exact Or.imp_right Or.inl

/-! ## Parts -/

theorem not_mem_of_mem_splitOn {α : Type} [BEq α] [LawfulBEq α] {x : α} {xs part : List α}
    (h : part ∈ xs.splitOn x) : x ∉ part := by
  induction xs generalizing part with
  | nil =>
    rw [List.splitOn_nil, List.mem_singleton] at h
    rw [h]
    exact List.not_mem_nil
  | cons y ys ih =>
    rw [List.splitOn_cons_eq_if_modifyHead] at h
    split at h
    · rcases List.mem_cons.mp h with rfl | h
      · exact List.not_mem_nil
      · exact ih h
    · rename_i hne
      cases hparts : ys.splitOn x with
      | nil => exact absurd hparts (List.splitOn_ne_nil x ys)
      | cons first rest =>
        rw [hparts, List.modifyHead_cons] at h
        rcases List.mem_cons.mp h with rfl | h
        · rw [List.mem_cons, not_or]
          exact ⟨fun heq => hne (beq_iff_eq.mpr heq.symm), ih (hparts ▸ List.mem_cons_self)⟩
        · exact ih (hparts ▸ List.mem_cons_of_mem _ h)

theorem not_mem_of_mem_split {text part : String} {c : Char} (h : part ∈ split text c) :
    c ∉ part.toList := by
  obtain ⟨chars, hchars, rfl⟩ := List.mem_map.mp h
  rw [String.toList_ofList]
  exact not_mem_of_mem_splitOn hchars

theorem split_ne_nil (text : String) (c : Char) : split text c ≠ [] := by
  rw [split, ne_eq, List.map_eq_nil_iff]
  exact List.splitOn_ne_nil _ _

/-- Splitting undoes joining. -/
theorem split_join {parts : List String} {c : Char} (hne : parts ≠ [])
    (h : ∀ part ∈ parts, c ∉ part.toList) : split (join parts c) c = parts := by
  have hlists : ∀ part ∈ parts.map String.toList, c ∉ part := by
    simpa using h
  rw [split, join, String.toList_intercalate, String.toList_singleton,
    List.splitOn_intercalate c hlists (by simpa using hne), List.map_map]
  simp

/-- Parts without the separator can be told from what they are joined to. -/
theorem join_inj {parts parts' : List String} {c : Char} (hne : parts ≠ []) (hne' : parts' ≠ [])
    (h : ∀ part ∈ parts, c ∉ part.toList) (h' : ∀ part ∈ parts', c ∉ part.toList) :
    join parts c = join parts' c ↔ parts = parts' := by
  refine ⟨fun heq => ?_, fun heq => heq ▸ rfl⟩
  rw [← split_join hne h, heq, split_join hne' h']

/-! ## Numbers -/

/-- The decimal digits of a number determine it. -/
theorem toString_nat_inj {m n : Nat} : toString m = toString n ↔ m = n := by
  refine ⟨fun heq => ?_, fun heq => heq ▸ rfl⟩
  have hdigits : Nat.toDigits 10 m = Nat.toDigits 10 n := by
    rw [← Nat.toList_repr, ← Nat.toList_repr]
    exact congrArg String.toList heq
  rw [← Nat.ofDigitChars_ten_toDigits (n := m), hdigits, Nat.ofDigitChars_ten_toDigits]

theorem isDigit_of_mem_toString {n : Nat} {c : Char} (h : c ∈ (toString n).toList) :
    c.isDigit = true := by
  rw [Nat.toString_eq_repr, Nat.toList_repr] at h
  exact Nat.isDigit_of_mem_toDigits (by decide) (by decide) h

/-- What stands behind the last separator can be told from what stands before
it. -/
theorem append_cons_inj_of_not_mem {α : Type} {x : α} {front front' back back' : List α}
    (h : x ∉ back) (h' : x ∉ back') :
    front ++ x :: back = front' ++ x :: back' ↔ front = front' ∧ back = back' := by
  constructor
  · intro heq
    rcases List.append_eq_append_iff.mp heq with ⟨between, hfront, hback⟩ | ⟨between, hfront, hback⟩
    · cases between with
      | nil => exact ⟨by simpa using hfront.symm, by simpa using hback⟩
      | cons y between =>
        obtain ⟨rfl, rfl⟩ := List.cons.inj hback
        exact absurd (List.mem_append_right between List.mem_cons_self) h
    · cases between with
      | nil => exact ⟨by simpa using hfront, by simpa using hback.symm⟩
      | cons y between =>
        obtain ⟨rfl, rfl⟩ := List.cons.inj hback
        exact absurd (List.mem_append_right between List.mem_cons_self) h'
  · rintro ⟨rfl, rfl⟩
    rfl

/-- A number at the end of a text, behind a dash. -/
theorem dash_toString_inj {text text' : String} {m n : Nat} :
    text ++ "-" ++ toString m = text' ++ "-" ++ toString n ↔ text = text' ∧ m = n := by
  have hdash : ∀ k : Nat, '-' ∉ (toString k).toList :=
    fun k h => absurd (isDigit_of_mem_toString h) (by decide)
  constructor
  · intro heq
    have hchars : text.toList ++ '-' :: (toString m).toList =
        text'.toList ++ '-' :: (toString n).toList := by
      simpa using congrArg String.toList heq
    obtain ⟨htext, hnumber⟩ := (append_cons_inj_of_not_mem (hdash m) (hdash n)).mp hchars
    exact ⟨String.toList_inj.mp htext, toString_nat_inj.mp (String.toList_inj.mp hnumber)⟩
  · rintro ⟨rfl, rfl⟩
    rfl

end Outboxy
