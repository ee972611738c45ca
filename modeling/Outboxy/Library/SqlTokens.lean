import Mathlib.Data.List.Basic

/-!
# The tokens of a statement

A statement is sent as a text with placeholders and a list of parameters.
`tokens` reads the text, `number` counts its `?`, and `Token.bind` puts the
parameters in their places.

`Scans text ts` says that a part of a text reads as `ts` whatever comes after
it, as long as that begins a token of its own.  Texts are read in such parts.

* `Scans.append` and `Scans.append_of_between` put two parts together,
  `scans_flatMap` and `scans_intercalate` any number.
* `read_of_scans_numbered` and `read_of_scans_positional`: what a text says
  when its parts are given with the positions of their parameters.
* `bound_of_read` and `matched_of_read`: its parameters are then bound where
  it says so, and none is left over when it says each position.
-/

namespace Sql

/-- A token of a text.  `π` is what stands for a parameter. -/
inductive Token (π : Type) where
  | word (text : String)
  | quoted (text : String)
  | symbol (c : Char)
  | param (p : π)
deriving DecidableEq, Repr

/-- How a text marks the place of a parameter: `$n` or `?`. -/
inductive Marker where
  | numbered (n : Nat)
  | next
deriving DecidableEq, Repr

/-- `$n`, or the `?` that has `k` others before it. -/
inductive Placeholder where
  | numbered (n : Nat)
  | positional (k : Nat)
deriving DecidableEq, Repr

/-- The position in the list of the parameter that is bound. -/
def Placeholder.parameter : Placeholder → Option Nat
  | .numbered 0 => none
  | .numbered (n + 1) => some n
  | .positional k => some k

/-! ## Scanning -/

/-- The scanner is between two tokens or inside one, of which it has read
this much. -/
inductive Mode where
  | between
  | word (chars : List Char)
  | quoted (chars : List Char)
  | number (n : Nat)
deriving DecidableEq, Repr

def Mode.isQuoted : Mode → Bool
  | .quoted _ => true
  | _ => false

/-- The token that ends here. -/
def Mode.flush : Mode → List (Token Marker)
  | .between => []
  | .word chars => [.word (String.ofList chars)]
  | .quoted chars => [.quoted (String.ofList chars)]
  | .number n => [.param (.numbered n)]

/-- Words are names, keywords and numbers. -/
def isWordChar (c : Char) : Bool := c.isAlphanum || c = '_'

def isName (text : String) : Bool := text != "" && text.toList.all isWordChar

/-- The first character of a token. -/
def start (c : Char) : List (Token Marker) × Mode :=
  if isWordChar c then ([], .word [c])
  else if c.isWhitespace then ([], .between)
  else if c = '\'' then ([], .quoted [])
  else if c = '$' then ([], .number 0)
  else if c = '?' then ([.param .next], .between)
  else ([.symbol c], .between)

def Mode.next (mode : Mode) (c : Char) : List (Token Marker) × Mode :=
  match mode with
  | .between => start c
  | .word chars =>
    if isWordChar c then ([], .word (chars ++ [c])) else (mode.flush ++ (start c).1, (start c).2)
  | .quoted chars =>
    if c = '\'' then (mode.flush, .between) else ([], .quoted (chars ++ [c]))
  | .number n =>
    if c.isDigit then ([], .number (10 * n + (c.toNat - '0'.toNat)))
    else (mode.flush ++ (start c).1, (start c).2)

/-- The tokens that are read, and where the scanner is then. -/
def run (mode : Mode) : List Char → List (Token Marker) × Mode
  | [] => ([], mode)
  | c :: chars =>
    let rest := run (mode.next c).2 chars
    ((mode.next c).1 ++ rest.1, rest.2)

def tokens (chars : List Char) : List (Token Marker) :=
  (run .between chars).1 ++ (run .between chars).2.flush

@[simp] theorem run_nil (mode : Mode) : run mode [] = ([], mode) := rfl

theorem run_cons (mode : Mode) (c : Char) (chars : List Char) :
    run mode (c :: chars) =
      ((mode.next c).1 ++ (run (mode.next c).2 chars).1, (run (mode.next c).2 chars).2) := rfl

theorem run_append (mode : Mode) (chars chars' : List Char) :
    run mode (chars ++ chars') =
      ((run mode chars).1 ++ (run (run mode chars).2 chars').1,
        (run (run mode chars).2 chars').2) := by
  induction chars generalizing mode with
  | nil => rfl
  | cons c chars ih =>
    rw [List.cons_append, run_cons, run_cons, ih, List.append_assoc]

/-- A text that is no continuation of a word. -/
def delimited (chars : List Char) : Bool := chars.head?.all fun c => !isWordChar c

theorem isDigit_eq_false_of_not_isWordChar {c : Char} (h : isWordChar c = false) :
    c.isDigit = false := by
  unfold isWordChar Char.isAlphanum at h
  simp only [Bool.or_eq_false_iff] at h
  exact h.1.2

/-- A delimiter ends the token before it. -/
theorem next_of_not_isWordChar {mode : Mode} {c : Char} (hmode : mode.isQuoted = false)
    (hc : isWordChar c = false) :
    mode.next c = (mode.flush ++ (start c).1, (start c).2) := by
  cases mode with
  | between => rfl
  | word chars => simp [Mode.next, hc]
  | quoted chars => cases hmode
  | number n => simp [Mode.next, isDigit_eq_false_of_not_isWordChar hc]

/-- This part of a text reads as these tokens. -/
structure Scans (chars : List Char) (ts : List (Token Marker)) : Prop where
  unquoted : (run .between chars).2.isQuoted = false
  tokens_eq : tokens chars = ts

namespace Scans

variable {chars chars' : List Char} {ts us : List (Token Marker)}

theorem nil : Scans [] [] := ⟨rfl, rfl⟩

/-- After a whole part. -/
theorem append (h : Scans chars ts) (h' : Scans chars' us) (hdelimited : delimited chars' = true) :
    Scans (chars ++ chars') (ts ++ us) := by
  obtain ⟨hquoted, rfl⟩ := h
  obtain ⟨hquoted', rfl⟩ := h'
  cases chars' with
  | nil =>
    rw [List.append_nil, show tokens [] = [] from rfl, List.append_nil]
    exact ⟨hquoted, rfl⟩
  | cons c rest =>
    have hc : isWordChar c = false := by simpa [delimited] using hdelimited
    have hnext := next_of_not_isWordChar hquoted hc
    have hrun : run .between (chars ++ c :: rest) =
        (tokens chars ++ (run .between (c :: rest)).1, (run .between (c :: rest)).2) := by
      rw [run_append, run_cons, run_cons, hnext, tokens]
      simp [Mode.next]
    refine ⟨?_, ?_⟩
    · rw [hrun]
      exact hquoted'
    · rw [tokens, hrun, tokens, tokens, List.append_assoc]

/-- After a part that ends with a delimiter. -/
theorem append_of_between (h : run .between chars = (ts, .between)) (h' : Scans chars' us) :
    Scans (chars ++ chars') (ts ++ us) := by
  obtain ⟨hquoted, rfl⟩ := h'
  refine ⟨?_, ?_⟩
  · rw [run_append, h]
    exact hquoted
  · rw [tokens, run_append, h, tokens, List.append_assoc]

end Scans

/-- A literal unfolds to its characters. -/
theorem run_ofList {mode : Mode} {chars : List Char} {read : List (Token Marker) × Mode}
    (h : run mode chars = read) : run mode (String.ofList chars).toList = read := by
  rwa [String.toList_ofList]

theorem scans_ofList {chars : List Char} {ts : List (Token Marker)}
    (hquoted : (run .between chars).2.isQuoted = false) (h : tokens chars = ts) :
    Scans (String.ofList chars).toList ts := by
  rw [String.toList_ofList]
  exact ⟨hquoted, h⟩

theorem delimited_ofList_append {c : Char} {chars : List Char} (hc : isWordChar c = false)
    (rest : List Char) : delimited ((String.ofList (c :: chars)).toList ++ rest) = true := by
  rw [String.toList_ofList, List.cons_append]
  simp [delimited, hc]

theorem delimited_ofList {c : Char} {chars : List Char} (hc : isWordChar c = false) :
    delimited (String.ofList (c :: chars)).toList = true := by
  rw [← List.append_nil (String.ofList (c :: chars)).toList]
  exact delimited_ofList_append hc []

theorem delimited_append {chars chars' : List Char} (h : delimited chars = true)
    (h' : delimited chars' = true) : delimited (chars ++ chars') = true := by
  cases chars with
  | nil => exact h'
  | cons c rest => exact h

/-- Parts that each begin with a delimiter. -/
theorem scans_flatMap {α : Type} {text : α → List Char} {ts : α → List (Token Marker)}
    {items : List α} (h : ∀ x ∈ items, Scans (text x) (ts x) ∧ delimited (text x) = true) :
    Scans (items.flatMap text) (items.flatMap ts) ∧ delimited (items.flatMap text) = true := by
  induction items with
  | nil => exact ⟨Scans.nil, rfl⟩
  | cons x items ih =>
    obtain ⟨hscans, hdelimited⟩ := h x List.mem_cons_self
    obtain ⟨hrest, hdelimited'⟩ := ih fun y hy => h y (List.mem_cons_of_mem x hy)
    rw [List.flatMap_cons, List.flatMap_cons]
    exact ⟨hscans.append hrest hdelimited', delimited_append hdelimited hdelimited'⟩

/-- Parts with a separator between them. -/
theorem scans_intercalate {sep : List Char} {seps : List (Token Marker)}
    (hsep : run .between sep = (seps, .between)) (hdelimited : delimited sep = true)
    (hne : sep ≠ []) {α : Type} {text : α → List Char} {ts : α → List (Token Marker)}
    {items : List α} (h : ∀ x ∈ items, Scans (text x) (ts x)) :
    Scans (sep.intercalate (items.map text)) (seps.intercalate (items.map ts)) := by
  induction items with
  | nil => exact Scans.nil
  | cons x items ih =>
    have hx := h x List.mem_cons_self
    have hrest := ih fun y hy => h y (List.mem_cons_of_mem x hy)
    cases items with
    | nil => simpa using hx
    | cons y items =>
      rw [List.map_cons, List.map_cons, List.map_cons, List.map_cons,
        List.intercalate_cons_cons, List.intercalate_cons_cons, List.append_assoc,
        List.append_assoc]
      refine hx.append (Scans.append_of_between hsep hrest) ?_
      cases sep with
      | nil => exact absurd rfl hne
      | cons c sep => exact hdelimited

/-! ### Words and numbers -/

theorem run_word {chars : List Char} (h : ∀ c ∈ chars, isWordChar c = true) (read : List Char) :
    run (.word read) chars = ([], .word (read ++ chars)) := by
  induction chars generalizing read with
  | nil => simp
  | cons c chars ih =>
    have hc := h c List.mem_cons_self
    have hrest := ih (fun d hd => h d (List.mem_cons_of_mem c hd)) (read ++ [c])
    simp [run_cons, Mode.next, hc, hrest]

/-- A name reads as a word. -/
theorem scans_word {text : String} (h : isName text = true) :
    Scans text.toList [.word text] := by
  rw [isName, Bool.and_eq_true, bne_iff_ne, List.all_eq_true] at h
  obtain ⟨hne, h⟩ := h
  cases hchars : text.toList with
  | nil => exact absurd (String.toList_eq_nil_iff.mp hchars) hne
  | cons c chars =>
    rw [hchars] at h
    have hc := h c List.mem_cons_self
    have hrun : run .between (c :: chars) = ([], .word (c :: chars)) := by
      have hrest := run_word (fun d hd => h d (List.mem_cons_of_mem c hd)) [c]
      simp [run_cons, Mode.next, start, hc, hrest]
    refine ⟨by rw [hrun]; rfl, ?_⟩
    rw [tokens, hrun]
    show [Token.word (String.ofList (c :: chars))] = _
    rw [← hchars, String.ofList_toList]

theorem run_number {chars : List Char} (h : ∀ c ∈ chars, c.isDigit = true) (n : Nat) :
    run (.number n) chars = ([], .number (Nat.ofDigitChars 10 chars n)) := by
  induction chars generalizing n with
  | nil => rfl
  | cons c chars ih =>
    have hc := h c List.mem_cons_self
    have hrest := ih (fun d hd => h d (List.mem_cons_of_mem c hd))
    rw [run_cons, Mode.next, if_pos hc, hrest]
    rfl

theorem run_toString (n : Nat) : run (.number 0) (toString n).toList = ([], .number n) := by
  have hdigits : ∀ c ∈ Nat.toDigits 10 n, c.isDigit = true := fun c hc =>
    Nat.isDigit_of_mem_toDigits (by decide) (by decide) hc
  rw [Nat.toString_eq_repr, Nat.toList_repr, run_number hdigits, Nat.ofDigitChars_ten_toDigits]

/-- A part that ends with the number of a placeholder. -/
theorem scans_numbered {chars : List Char} {ts : List (Token Marker)}
    (h : run .between chars = (ts, .number 0)) (n : Nat) :
    Scans (chars ++ (toString n).toList) (ts ++ [.param (.numbered n)]) := by
  have hrun : run .between (chars ++ (toString n).toList) = (ts, .number n) := by
    rw [run_append, h, run_toString, List.append_nil]
  refine ⟨by rw [hrun]; rfl, ?_⟩
  rw [tokens, hrun]
  rfl

/-- A part with the numbers of two placeholders in it. -/
theorem run_numbers (ts us vs : List (Token Marker)) {first second third : List Char}
    (hfirst : run .between first = (ts, .number 0))
    (hsecond : ∀ m, run (.number m) second = (.param (.numbered m) :: us, .number 0))
    (hthird : ∀ n, run (.number n) third = (.param (.numbered n) :: vs, .between)) (m n : Nat) :
    run .between (first ++ ((toString m).toList ++ (second ++ ((toString n).toList ++ third)))) =
      (ts ++ (.param (.numbered m) :: us ++ .param (.numbered n) :: vs), .between) := by
  rw [run_append, hfirst, run_append, run_toString, run_append, hsecond, run_append, run_toString,
    hthird]
  rfl

/-! ## Parameters -/

namespace Token

variable {π ρ : Type}

def map (f : π → ρ) : Token π → Token ρ
  | word text => .word text
  | quoted text => .quoted text
  | symbol c => .symbol c
  | param p => .param (f p)

def param? : Token π → Option π
  | param p => some p
  | _ => none

/-- How many `?` this is. -/
def marks : Token Marker → Nat
  | param .next => 1
  | _ => 0

/-- The token after `k` times `?`. -/
def number (k : Nat) : Token Marker → Token Placeholder
  | word text => .word text
  | quoted text => .quoted text
  | symbol c => .symbol c
  | param (.numbered n) => .param (.numbered n)
  | param .next => .param (.positional k)

/-- The token with the value of its parameter, if there is one. -/
def bind (params : List π) : Token Placeholder → Option (Token π)
  | word text => some (.word text)
  | quoted text => some (.quoted text)
  | symbol c => some (.symbol c)
  | param p => (p.parameter.bind fun i => params[i]?).map .param

end Token

/-- What stands for parameters, in order. -/
def values {π : Type} (ts : List (Token π)) : List π := ts.filterMap Token.param?

@[simp] theorem values_nil {π : Type} : values ([] : List (Token π)) = [] := rfl

@[simp] theorem values_word {π : Type} (text : String) (ts : List (Token π)) :
    values (.word text :: ts) = values ts := rfl

@[simp] theorem values_quoted {π : Type} (text : String) (ts : List (Token π)) :
    values (.quoted text :: ts) = values ts := rfl

@[simp] theorem values_symbol {π : Type} (c : Char) (ts : List (Token π)) :
    values (.symbol c :: ts) = values ts := rfl

@[simp] theorem values_param {π : Type} (p : π) (ts : List (Token π)) :
    values (.param p :: ts) = p :: values ts := rfl

theorem values_append {π : Type} (ts us : List (Token π)) :
    values (ts ++ us) = values ts ++ values us := List.filterMap_append

/-- The tokens with each `?` counted, from `k` on. -/
def number (k : Nat) : List (Token Marker) → List (Token Placeholder)
  | [] => []
  | t :: ts => t.number k :: number (k + t.marks) ts

@[simp] theorem number_nil (k : Nat) : number k [] = [] := rfl

@[simp] theorem number_cons (k : Nat) (t : Token Marker) (ts : List (Token Marker)) :
    number k (t :: ts) = t.number k :: number (k + t.marks) ts := rfl

/-- A text as a driver or a database reads it. -/
def read (sql : String) : List (Token Placeholder) := number 0 (tokens sql.toList)

def placeholders (sql : String) : List Placeholder := values (read sql)

/-- A statement with its parameters in their places. -/
def bound {ν : Type} (sql : String) (params : List ν) : Option (List (Token ν)) :=
  (read sql).mapM (Token.bind params)

/-- The placeholders of a statement and its parameters match one to one. -/
structure Matched {ν : Type} (sql : String) (params : List ν) : Prop where
  parameter : ∀ p ∈ placeholders sql, ∃ i < params.length, p.parameter = some i
  placeholder : ∀ i < params.length, ∃! p, p ∈ placeholders sql ∧ p.parameter = some i

section Bind

variable {ν : Type} {params : List ν} {sql : String} {ts : List (Token Nat)} {f : Nat → ν}

/-- The parameters of numbered placeholders, in the order of the text, are the
positions that `ts` says. -/
theorem read_of_scans_numbered
    (h : Scans sql.toList (ts.map (Token.map fun i => .numbered (i + 1)))) :
    read sql = ts.map (Token.map fun i => .numbered (i + 1)) := by
  have hnumber : ∀ (k : Nat) (ts : List (Token Nat)),
      number k (ts.map (Token.map fun i => .numbered (i + 1))) =
        ts.map (Token.map fun i => .numbered (i + 1)) := by
    intro k ts
    induction ts generalizing k with
    | nil => rfl
    | cons t ts ih =>
      rw [List.map_cons, number_cons, ih, List.map_cons]
      cases t <;> rfl
  rw [read, h.tokens_eq, hnumber]

/-- Every `?` takes the next parameter, so `ts` must say them in order. -/
theorem read_of_scans_positional (h : Scans sql.toList (ts.map (Token.map fun _ => .next)))
    {m : Nat} (horder : values ts = List.range m) :
    read sql = ts.map (Token.map .positional) := by
  have hnumber : ∀ (k m : Nat) (ts : List (Token Nat)),
      values ts = List.range' k m →
        number k (ts.map (Token.map fun _ => .next)) = ts.map (Token.map .positional) := by
    intro k m ts horder
    induction ts generalizing k m with
    | nil => rfl
    | cons t ts ih =>
      cases t with
      | word text | quoted text | symbol c =>
        rw [List.map_cons, number_cons, List.map_cons]
        exact congrArg _ (ih k m horder)
      | param i =>
        cases m with
        | zero => exact nomatch horder
        | succ m =>
          rw [show values (.param i :: ts) = i :: values ts from rfl, List.range'_succ] at horder
          obtain ⟨rfl, horder⟩ := List.cons.inj horder
          rw [List.map_cons, number_cons, List.map_cons]
          exact congrArg _ (ih _ m horder)
  rw [read, h.tokens_eq]
  exact hnumber 0 m ts (horder.trans List.range_eq_range')

variable {placeholder : Nat → Placeholder} (hread : read sql = ts.map (Token.map placeholder))
  (hparameter : ∀ i, (placeholder i).parameter = some i)

include hread

theorem placeholders_of_read :
    placeholders sql = (values ts).map placeholder := by
  rw [placeholders, hread, values, List.filterMap_map, values, List.map_filterMap]
  refine List.filterMap_congr fun t _ => ?_
  cases t <;> rfl

include hparameter

/-- Binding is a map when every placeholder has a parameter. -/
theorem bound_of_read (h : ∀ i ∈ values ts, params[i]? = some (f i)) :
    bound sql params = some (ts.map (Token.map f)) := by
  rw [bound, hread]
  clear hread
  induction ts with
  | nil => rfl
  | cons t ts ih =>
    have ht : (t.map placeholder).bind params = some (t.map f) := by
      cases t with
      | word text | quoted text | symbol c => rfl
      | param i =>
        show ((placeholder i).parameter.bind fun i => params[i]?).map _ = _
        rw [hparameter, Option.bind_some, h i List.mem_cons_self]
        rfl
    have hrest := ih fun i hi => h i (by
      obtain ⟨u, hu, hparam⟩ := List.mem_filterMap.mp hi
      exact List.mem_filterMap.mpr ⟨u, List.mem_cons_of_mem t hu, hparam⟩)
    rw [List.map_cons, List.mapM_cons, ht, hrest]
    rfl

theorem matched_of_read (h : ∀ i, i ∈ values ts ↔ i < params.length) :
    Matched sql params := by
  have hmem : ∀ p, p ∈ placeholders sql ↔ ∃ i < params.length, placeholder i = p := by
    intro p
    rw [placeholders_of_read hread, List.mem_map]
    exact exists_congr fun i => and_congr_left fun _ => h i
  constructor
  · intro p hp
    obtain ⟨i, hi, rfl⟩ := (hmem p).mp hp
    exact ⟨i, hi, hparameter i⟩
  · intro i hi
    refine ⟨placeholder i, ⟨(hmem _).mpr ⟨i, hi, rfl⟩, hparameter i⟩, ?_⟩
    rintro p ⟨hp, hpi⟩
    obtain ⟨j, -, rfl⟩ := (hmem p).mp hp
    rw [hparameter, Option.some.injEq] at hpi
    rw [hpi]

end Bind

end Sql
