import Outboxy.Library.SqlTokens

/-!
# Reading INSERT and UPDATE

The tokens of a statement whose parameters are in their places, read as the
rows that it inserts or as the assignments and conditions of its update.
`splitTop` splits tokens at those outside of all parentheses that are
separators, such as the commas of a `SET` list.

* `splitTop_append_cons` and `splitTop_intercalate`: what is put together with
  separators is split into its parts again, if these are `flat`.
* `readInsert_tokens` and `readUpdate_updateTokens`: a statement is read as it
  is written, and so are the lists of `VALUES` and `IN` and the branches of a
  `CASE` in it.
-/

namespace Sql

variable {π : Type}

namespace Token

def isWord (text : String) : Token π → Bool
  | word t => decide (t = text)
  | _ => false

def isSymbol (c : Char) : Token π → Bool
  | symbol d => decide (d = c)
  | _ => false

def isAnyWord : Token π → Bool
  | word _ => true
  | _ => false

def word? : Token π → Option String
  | word text => some text
  | _ => none

/-- How deep in parentheses the next token is. -/
def depth (d : Nat) : Token π → Nat
  | symbol c => if c = '(' then d + 1 else if c = ')' then d - 1 else d
  | _ => d

end Token

/-! ## Splitting -/

section Split

variable {sep : Token π → Bool}

/-- The parts between the separators outside of all parentheses. -/
def splitTop (sep : Token π → Bool) (d : Nat) : List (Token π) → List (List (Token π))
  | [] => [[]]
  | t :: ts =>
    if d = 0 && sep t then [] :: splitTop sep 0 ts
    else (splitTop sep (t.depth d) ts).modifyHead (t :: ·)

/-- All parentheses are closed at the end, and there is no separator outside
of them. -/
def flat (sep : Token π → Bool) (d : Nat) : List (Token π) → Bool
  | [] => d = 0
  | t :: ts => !(d = 0 && sep t) && flat sep (t.depth d) ts

theorem flat_append {d : Nat} {ts us : List (Token π)} (h : flat sep d ts = true)
    (h' : flat sep 0 us = true) : flat sep d (ts ++ us) = true := by
  induction ts generalizing d with
  | nil =>
    obtain rfl := of_decide_eq_true h
    exact h'
  | cons t ts ih =>
    rw [flat, Bool.and_eq_true] at h
    rw [List.cons_append, flat, h.1, ih h.2]
    rfl

theorem splitTop_append {d : Nat} {ts : List (Token π)} (h : flat sep d ts = true)
    (us : List (Token π)) :
    splitTop sep d (ts ++ us) = (splitTop sep 0 us).modifyHead (ts ++ ·) := by
  induction ts generalizing d with
  | nil =>
    obtain rfl := of_decide_eq_true h
    rw [List.nil_append]
    cases hparts : splitTop sep 0 us <;> rfl
  | cons t ts ih =>
    rw [flat, Bool.and_eq_true, Bool.not_eq_true'] at h
    rw [List.cons_append, splitTop, if_neg (Bool.not_eq_true _ ▸ h.1), ih h.2,
      List.modifyHead_modifyHead]
    rfl

theorem splitTop_of_flat {ts : List (Token π)} (h : flat sep 0 ts = true) :
    splitTop sep 0 ts = [ts] := by
  have happend := splitTop_append h []
  rw [List.append_nil] at happend
  rw [happend]
  show [ts ++ []] = _
  rw [List.append_nil]

theorem splitTop_append_cons {ts us : List (Token π)} {t : Token π} (h : flat sep 0 ts = true)
    (ht : sep t = true) : splitTop sep 0 (ts ++ t :: us) = ts :: splitTop sep 0 us := by
  rw [splitTop_append h, splitTop, ht]
  show (ts ++ []) :: _ = _
  rw [List.append_nil]

theorem splitTop_intercalate {t : Token π} (ht : sep t = true) {parts : List (List (Token π))}
    (hne : parts ≠ []) (h : ∀ part ∈ parts, flat sep 0 part = true) :
    splitTop sep 0 ([t].intercalate parts) = parts := by
  induction parts with
  | nil => exact absurd rfl hne
  | cons part parts ih =>
    have hpart := h part List.mem_cons_self
    cases parts with
    | nil =>
      rw [List.intercalate_singleton]
      exact splitTop_of_flat hpart
    | cons next parts =>
      have hrest := ih (List.cons_ne_nil next parts) fun p hp => h p (List.mem_cons_of_mem part hp)
      rw [List.intercalate_cons_cons, List.append_assoc, List.singleton_append,
        splitTop_append_cons hpart ht, hrest]

theorem mem_intercalate {sep : List π} {parts : List (List π)} {x : π}
    (h : x ∈ sep.intercalate parts) : x ∈ sep ∨ ∃ part ∈ parts, x ∈ part := by
  induction parts with
  | nil => exact nomatch h
  | cons part parts ih =>
    cases parts with
    | nil => exact Or.inr ⟨part, List.mem_cons_self, by simpa using h⟩
    | cons next parts =>
      rw [List.intercalate_cons_cons, List.mem_append, List.mem_append] at h
      rcases h with (h | h) | h
      · exact Or.inr ⟨part, List.mem_cons_self, h⟩
      · exact Or.inl h
      · exact (ih h).imp_right fun ⟨p, hp, hx⟩ => ⟨p, List.mem_cons_of_mem part hp, hx⟩

theorem flat_intercalate {ts : List (Token π)} (hts : flat sep 0 ts = true)
    {parts : List (List (Token π))} (h : ∀ part ∈ parts, flat sep 0 part = true) :
    flat sep 0 (ts.intercalate parts) = true := by
  induction parts with
  | nil => rfl
  | cons part parts ih =>
    have hpart := h part List.mem_cons_self
    cases parts with
    | nil => simpa using hpart
    | cons next parts =>
      rw [List.intercalate_cons_cons]
      exact flat_append (flat_append hpart hts) (ih fun p hp => h p (List.mem_cons_of_mem part hp))

end Split

/-! ## Lists -/

/-- `, item, item )`, and what comes after it. -/
def readMore {β : Type} (item? : Token π → Option β) :
    List (Token π) → Option (List β × List (Token π))
  | .symbol ')' :: rest => some ([], rest)
  | .symbol ',' :: t :: rest =>
    (item? t).bind fun item => (readMore item? rest).map fun read => (item :: read.1, read.2)
  | _ => none

/-- `( item, item )`, and what comes after it. -/
def readList {β : Type} (item? : Token π → Option β) :
    List (Token π) → Option (List β × List (Token π))
  | .symbol '(' :: t :: rest =>
    match item? t with
    | some item => (readMore item? rest).map fun read => (item :: read.1, read.2)
    | none => if t.isSymbol ')' then some ([], rest) else none
  | _ => none

/-- These tokens in parentheses, with commas between them. -/
def listTokens (ts : List (Token π)) : List (Token π) :=
  .symbol '(' :: ([.symbol ','].intercalate (ts.map ([·])) ++ [.symbol ')'])

theorem readMore_tokens {β : Type} {item? : Token π → Option β} (token : β → Token π)
    (hitem : ∀ x, item? (token x) = some x) (items : List β) (rest : List (Token π)) :
    readMore item? (items.flatMap (fun x => [.symbol ',', token x]) ++ .symbol ')' :: rest) =
      some (items, rest) := by
  induction items with
  | nil => rfl
  | cons x items ih =>
    rw [List.flatMap_cons, List.append_assoc, List.cons_append, List.singleton_append, readMore,
      hitem, Option.bind_some, ih]
    rfl

theorem intercalate_cons_singletons {β : Type} (token : β → Token π) (x : β) (items : List β) :
    [Token.symbol ','].intercalate (((x :: items).map token).map ([·])) =
      token x :: items.flatMap fun y => [.symbol ',', token y] := by
  induction items generalizing x with
  | nil => rfl
  | cons y items ih =>
    have hrest := ih y
    rw [List.map_cons, List.map_cons] at hrest ⊢
    rw [List.map_cons, List.map_cons, List.intercalate_cons_cons, hrest]
    rfl

theorem readList_listTokens {β : Type} {item? : Token π → Option β} (token : β → Token π)
    (hitem : ∀ x, item? (token x) = some x) (hclose : item? (.symbol ')') = none)
    (items : List β) (rest : List (Token π)) :
    readList item? (listTokens (items.map token) ++ rest) = some (items, rest) := by
  cases items with
  | nil =>
    show readList item? (.symbol '(' :: .symbol ')' :: rest) = _
    rw [readList, hclose]
    rfl
  | cons x items =>
    rw [listTokens, intercalate_cons_singletons, List.cons_append, List.cons_append,
      List.cons_append, List.append_assoc, List.singleton_append, readList, hitem]
    show (readMore item? _).map _ = _
    rw [readMore_tokens token hitem]
    rfl

theorem map_intercalate {ρ : Type} (f : π → ρ) (sep : List π) (parts : List (List π)) :
    (sep.intercalate parts).map f = (sep.map f).intercalate (parts.map (List.map f)) := by
  induction parts with
  | nil => rfl
  | cons part parts ih =>
    cases parts with
    | nil => simp
    | cons next parts =>
      rw [List.map_cons] at ih
      rw [List.intercalate_cons_cons, List.map_append, List.map_append, ih, List.map_cons,
        List.map_cons, List.intercalate_cons_cons]

theorem values_intercalate {ts : List (Token π)} (hts : values ts = [])
    (parts : List (List (Token π))) : values (ts.intercalate parts) = parts.flatMap values := by
  induction parts with
  | nil => rfl
  | cons part parts ih =>
    cases parts with
    | nil => simp
    | cons next parts =>
      rw [List.intercalate_cons_cons, values_append, values_append, hts, ih, List.append_nil]
      rfl

theorem values_listTokens (params : List π) : values (listTokens (params.map .param)) = params := by
  show values (_ ++ [.symbol ')']) = _
  rw [values_append, values_intercalate rfl, List.map_map, List.flatMap_map]
  show params.flatMap (fun p => [p]) ++ [] = _
  rw [List.append_nil, List.flatMap_singleton']

theorem map_listTokens {ρ : Type} (f : π → ρ) (ts : List (Token π)) :
    (listTokens ts).map (Token.map f) = listTokens (ts.map (Token.map f)) := by
  rw [listTokens, List.map_cons, List.map_append, map_intercalate, List.map_map]
  rw [listTokens, List.map_map]
  rfl

/-- No list has a separator outside of its parentheses. -/
theorem flat_listTokens {sep : Token π → Bool} (hopen : sep (.symbol '(') = false)
    {ts : List (Token π)} (h : ∀ t ∈ ts, t.depth 1 = 1) : flat sep 0 (listTokens ts) = true := by
  have hinside : ∀ ts : List (Token π), (∀ t ∈ ts, t.depth 1 = 1) →
      flat sep 1 ([.symbol ','].intercalate (ts.map ([·])) ++ [.symbol ')']) = true := by
    intro ts
    induction ts with
    | nil => exact fun _ => rfl
    | cons t ts ih =>
      intro h
      have hrest := ih fun u hu => h u (List.mem_cons_of_mem t hu)
      have ht := h t List.mem_cons_self
      cases ts with
      | nil =>
        show flat sep 1 [t, .symbol ')'] = true
        rw [flat, ht]
        rfl
      | cons u ts =>
        rw [List.map_cons, List.map_cons, List.intercalate_cons_cons]
        show flat sep 1 (t :: .symbol ',' :: _) = true
        rw [flat, ht]
        exact hrest
  rw [listTokens, flat, hopen]
  exact hinside ts h

/-! ## INSERT -/

structure Insert (π : Type) where
  table : String
  columns : List String
  rows : List (List π)
deriving DecidableEq, Repr

/-- `INSERT INTO table (column, column)` -/
def readTarget : List (Token π) → Option (String × List String)
  | .word "INSERT" :: .word "INTO" :: .word table :: rest => readColumns table rest
  | .word "INSERT" :: .word "IGNORE" :: .word "INTO" :: .word table :: rest =>
    readColumns table rest
  | _ => none
where
  readColumns (table : String) (rest : List (Token π)) : Option (String × List String) :=
    match readList Token.word? rest with
    | some (columns, []) => some (table, columns)
    | _ => none

/-- `(value, value)` -/
def readRow (ts : List (Token π)) : Option (List π) :=
  match readList Token.param? ts with
  | some (row, []) => some row
  | _ => none

/-- `(value, value), (value, value)` -/
def readRows (ts : List (Token π)) : Option (List (List π)) :=
  if ts.isEmpty then some [] else (splitTop (Token.isSymbol ',') 0 ts).mapM readRow

/-- The rows end where a word begins the next clause. -/
def readInsert (ts : List (Token π)) : Option (Insert π) :=
  match splitTop (Token.isWord "VALUES") 0 ts with
  | [target, values] => do
    let (table, columns) ← readTarget target
    let rows ← readRows (values.takeWhile fun t => !t.isAnyWord)
    some ⟨table, columns, rows⟩
  | _ => none

def rowsTokens (rows : List (List π)) : List (Token π) :=
  [.symbol ','].intercalate (rows.map fun row => listTokens (row.map .param))

theorem map_rowsTokens {ρ : Type} (f : π → ρ) (rows : List (List π)) :
    (rowsTokens rows).map (Token.map f) = rowsTokens (rows.map (List.map f)) := by
  rw [rowsTokens, map_intercalate, List.map_map, rowsTokens, List.map_map]
  refine congrArg _ (List.map_congr_left fun row _ => ?_)
  rw [Function.comp_apply, map_listTokens, Function.comp_apply, List.map_map, List.map_map]
  rfl

theorem values_rowsTokens (rows : List (List π)) : values (rowsTokens rows) = rows.flatten := by
  rw [rowsTokens, values_intercalate rfl, List.flatMap_map, List.flatMap_congr
    fun row _ => values_listTokens row, List.flatMap_id']

theorem readColumns_listTokens (table : String) (columns : List String) :
    readTarget.readColumns table (listTokens (columns.map .word) : List (Token π)) =
      some (table, columns) := by
  have hlist : readList Token.word? (listTokens (columns.map .word) ++ ([] : List (Token π))) =
      some (columns, []) := readList_listTokens .word (fun _ => rfl) rfl columns []
  rw [List.append_nil] at hlist
  rw [readTarget.readColumns, hlist]

theorem readRow_listTokens (row : List π) : readRow (listTokens (row.map .param)) = some row := by
  have hlist : readList Token.param? (listTokens (row.map .param) ++ []) = some (row, []) :=
    readList_listTokens .param (fun _ => rfl) rfl row []
  rw [List.append_nil] at hlist
  rw [readRow, hlist]

theorem flat_row {sep : Token π → Bool} (hopen : sep (.symbol '(') = false) (row : List π) :
    flat sep 0 (listTokens (row.map .param)) = true := by
  refine flat_listTokens hopen fun t ht => ?_
  obtain ⟨v, -, rfl⟩ := List.mem_map.mp ht
  rfl

theorem readRows_rowsTokens (rows : List (List π)) : readRows (rowsTokens rows) = some rows := by
  cases rows with
  | nil => rfl
  | cons row rows =>
    have hsplit : splitTop (Token.isSymbol ',') 0 (rowsTokens (row :: rows)) =
        (row :: rows).map fun row => listTokens (row.map .param) := by
      refine splitTop_intercalate rfl (List.cons_ne_nil _ _) fun part hpart => ?_
      obtain ⟨row, -, rfl⟩ := List.mem_map.mp hpart
      exact flat_row rfl row
    have hrows : ∀ rows : List (List π),
        (rows.map fun row => listTokens (row.map Token.param)).mapM readRow = some rows := by
      intro rows
      induction rows with
      | nil => rfl
      | cons row rows ih =>
        rw [List.map_cons, List.mapM_cons, readRow_listTokens, ih]
        rfl
    have hnonempty : (rowsTokens (row :: rows)).isEmpty = false := by
      cases rows <;> rfl
    rw [readRows, hnonempty, hsplit]
    exact hrows (row :: rows)

/-- Tokens without parameters. -/
def fixed (ts : List (Token Empty)) : List (Token π) := ts.map (Token.map Empty.elim)

theorem map_fixed {ρ : Type} (f : π → ρ) (ts : List (Token Empty)) :
    (fixed ts : List (Token π)).map (Token.map f) = fixed ts := by
  rw [fixed, List.map_map, fixed]
  refine List.map_congr_left fun t _ => ?_
  cases t with
  | param p => exact p.elim
  | word text | quoted text | symbol c => rfl

theorem values_fixed (ts : List (Token Empty)) : values (fixed ts : List (Token π)) = [] := by
  refine List.filterMap_eq_nil_iff.mpr fun t ht => ?_
  obtain ⟨u, -, rfl⟩ := List.mem_map.mp ht
  cases u with
  | param p => exact p.elim
  | word text | quoted text | symbol c => rfl

/-- An insert into a table, which the words before the columns end with. -/
def insertTokens (target columns : List String) (rows : List (List π)) (tail : List (Token Empty)) :
    List (Token π) :=
  target.map .word ++ listTokens (columns.map .word) ++
    .word "VALUES" :: (rowsTokens rows ++ fixed tail)

theorem map_insertTokens {ρ : Type} (f : π → ρ) (target columns : List String)
    (rows : List (List π)) (tail : List (Token Empty)) :
    (insertTokens target columns rows tail).map (Token.map f) =
      insertTokens target columns (rows.map (List.map f)) tail := by
  rw [insertTokens, List.map_append, List.map_append, List.map_cons, List.map_append,
    map_rowsTokens, map_fixed, map_listTokens, List.map_map, List.map_map]
  rfl

theorem values_insertTokens (target columns : List String) (rows : List (List π))
    (tail : List (Token Empty)) :
    values (insertTokens target columns rows tail) = rows.flatten := by
  have hwords : ∀ words : List String, values (words.map .word : List (Token π)) = [] := by
    intro words
    induction words with
    | nil => rfl
    | cons text words ih => exact ih
  have hlist : values (listTokens (columns.map .word) : List (Token π)) = [] := by
    show values (_ ++ [.symbol ')']) = _
    rw [values_append, values_intercalate rfl, List.map_map, List.flatMap_map]
    exact (List.append_nil _).trans (List.flatMap_eq_nil_iff.mpr fun _ _ => rfl)
  rw [insertTokens, values_append, values_append, hwords, hlist, values_word, values_append,
    values_rowsTokens, values_fixed, List.append_nil]
  exact List.append_nil _

theorem isAnyWord_of_mem_rowsTokens {rows : List (List π)} {t : Token π}
    (h : t ∈ rowsTokens rows) : t.isAnyWord = false := by
  rcases mem_intercalate h with h | ⟨part, hpart, h⟩
  · obtain rfl := List.mem_singleton.mp h
    rfl
  obtain ⟨row, -, rfl⟩ := List.mem_map.mp hpart
  rcases List.mem_cons.mp h with rfl | h
  · rfl
  rcases List.mem_append.mp h with h | h
  · rcases mem_intercalate h with h | ⟨part, hpart, h⟩
    · obtain rfl := List.mem_singleton.mp h
      rfl
    obtain ⟨u, hu, rfl⟩ := List.mem_map.mp hpart
    obtain ⟨v, -, rfl⟩ := List.mem_map.mp hu
    obtain rfl := List.mem_singleton.mp h
    rfl
  · obtain rfl := List.mem_singleton.mp h
    rfl

theorem flat_rowsTokens {sep : Token π → Bool} (hopen : sep (.symbol '(') = false)
    (hcomma : sep (.symbol ',') = false) (rows : List (List π)) :
    flat sep 0 (rowsTokens rows) = true := by
  refine flat_intercalate (by simp [flat, hcomma, Token.depth]) fun part hpart => ?_
  obtain ⟨row, -, rfl⟩ := List.mem_map.mp hpart
  exact flat_row hopen row

/-- What a statement inserts is what is written in it, whatever comes after
the rows. -/
theorem readInsert_insertTokens {target columns : List String} {table : String}
    {tail : List (Token Empty)}
    (hflat : flat (Token.isWord "VALUES") 0 (target.map .word : List (Token π)) = true)
    (hread : readTarget (target.map .word ++ listTokens (columns.map .word) : List (Token π)) =
      some (table, columns))
    (rows : List (List π))
    (htail : flat (Token.isWord "VALUES") 0 (fixed tail : List (Token π)) = true)
    (hword : (fixed tail : List (Token π)).head?.all Token.isAnyWord = true) :
    readInsert (insertTokens target columns rows tail) = some ⟨table, columns, rows⟩ := by
  have hrows : (rowsTokens rows ++ fixed tail).takeWhile (fun t => !t.isAnyWord) =
      rowsTokens rows := by
    rw [List.takeWhile_append_of_pos fun t ht => by
      rw [isAnyWord_of_mem_rowsTokens ht, Bool.not_false]]
    cases htokens : (fixed tail : List (Token π)) with
    | nil => exact List.append_nil _
    | cons t tokens =>
      have ht : t.isAnyWord = true := by
        rw [htokens] at hword
        simpa using hword
      rw [List.takeWhile_cons, ht]
      exact List.append_nil _
  have hvalues : flat (Token.isWord "VALUES") 0 (rowsTokens rows ++ fixed tail) = true :=
    flat_append (flat_rowsTokens rfl rfl rows) htail
  have htarget : flat (Token.isWord "VALUES") 0
      (target.map .word ++ listTokens (columns.map .word) : List (Token π)) = true := by
    refine flat_append hflat (flat_listTokens rfl fun t ht => ?_)
    obtain ⟨column, -, rfl⟩ := List.mem_map.mp ht
    rfl
  rw [insertTokens, readInsert, splitTop_append_cons htarget rfl, splitTop_of_flat hvalues]
  show ((readTarget _).bind fun read =>
    (readRows ((rowsTokens rows ++ fixed tail).takeWhile fun t => !t.isAnyWord)).bind fun rows =>
      some (⟨read.1, read.2, rows⟩ : Insert π)) = _
  rw [hread, hrows, Option.bind_some, readRows_rowsTokens]
  rfl

/-! ## UPDATE -/

/-- An update, with its expressions as they are written. -/
structure UpdateStatement (π : Type) where
  table : String
  assignments : List (String × List (Token π))
  conditions : List (List (Token π))
deriving DecidableEq, Repr

/-- `column = expression` -/
def readAssignment : List (Token π) → Option (String × List (Token π))
  | .word column :: .symbol '=' :: expression => some (column, expression)
  | _ => none

/-- `UPDATE table SET assignment, assignment WHERE condition AND condition` -/
def readUpdate : List (Token π) → Option (UpdateStatement π)
  | .word "UPDATE" :: .word table :: .word "SET" :: rest =>
    match splitTop (Token.isWord "WHERE") 0 rest with
    | [assignments, conditions] =>
      ((splitTop (Token.isSymbol ',') 0 assignments).mapM readAssignment).map fun assignments =>
        ⟨table, assignments, splitTop (Token.isWord "AND") 0 conditions⟩
    | _ => none
  | _ => none

/-- `WHEN value THEN value ... END` -/
def readBranches : List (Token π) → Option (List (π × π))
  | [.word "END"] => some []
  | .word "WHEN" :: .param value :: .word "THEN" :: .param result :: rest =>
    (readBranches rest).map ((value, result) :: ·)
  | _ => none

/-- `CASE column WHEN value THEN value ... END` -/
def readCase : List (Token π) → Option (String × List (π × π))
  | .word "CASE" :: .word column :: rest => (readBranches rest).map (column, ·)
  | _ => none

/-- `column IN (value, value)` -/
def readIn : List (Token π) → Option (String × List π)
  | .word column :: .word "IN" :: rest => (readRow rest).map (column, ·)
  | _ => none

def assignmentTokens (assignment : String × List (Token π)) : List (Token π) :=
  .word assignment.1 :: .symbol '=' :: assignment.2

def updateTokens (statement : UpdateStatement π) : List (Token π) :=
  .word "UPDATE" :: .word statement.table :: .word "SET" ::
    ([.symbol ','].intercalate (statement.assignments.map assignmentTokens) ++
      .word "WHERE" :: [.word "AND"].intercalate statement.conditions)

def branchTokens (branch : π × π) : List (Token π) :=
  [.word "WHEN", .param branch.1, .word "THEN", .param branch.2]

def caseTokens (column : String) (branches : List (π × π)) : List (Token π) :=
  .word "CASE" :: .word column :: (branches.flatMap branchTokens ++ [.word "END"])

def inTokens (column : String) (values : List π) : List (Token π) :=
  .word column :: .word "IN" :: listTokens (values.map .param)

theorem map_caseTokens {ρ : Type} (f : π → ρ) (column : String) (branches : List (π × π)) :
    (caseTokens column branches).map (Token.map f) =
      caseTokens column (branches.map (Prod.map f f)) := by
  rw [caseTokens, List.map_cons, List.map_cons, List.map_append, List.map_flatMap, caseTokens,
    List.flatMap_map]
  rfl

theorem map_inTokens {ρ : Type} (f : π → ρ) (column : String) (values : List π) :
    (inTokens column values).map (Token.map f) = inTokens column (values.map f) := by
  rw [inTokens, List.map_cons, List.map_cons, map_listTokens, List.map_map, inTokens, List.map_map]
  rfl

theorem values_caseTokens (column : String) (branches : List (π × π)) :
    values (caseTokens column branches) = branches.flatMap fun branch => [branch.1, branch.2] := by
  show values (_ ++ [.word "END"]) = _
  rw [values_append, show values [.word "END"] = ([] : List π) from rfl, List.append_nil]
  induction branches with
  | nil => rfl
  | cons branch branches ih => exact congrArg (fun rest => branch.1 :: branch.2 :: rest) ih

theorem values_inTokens (column : String) (params : List π) :
    values (inTokens column params) = params := values_listTokens params

theorem values_updateTokens (statement : UpdateStatement π) :
    values (updateTokens statement) =
      (statement.assignments.flatMap fun assignment => values assignment.2) ++
        statement.conditions.flatMap values := by
  show values (_ ++ .word "WHERE" :: _) = _
  rw [values_append, values_intercalate rfl, List.flatMap_map]
  show _ ++ values ([.word "AND"].intercalate statement.conditions) = _
  rw [values_intercalate rfl]
  rfl

/-- The statement with other parameters. -/
def UpdateStatement.map {ρ : Type} (f : π → ρ) (statement : UpdateStatement π) :
    UpdateStatement ρ where
  table := statement.table
  assignments := statement.assignments.map (Prod.map id (List.map (Token.map f)))
  conditions := statement.conditions.map (List.map (Token.map f))

theorem map_updateTokens {ρ : Type} (f : π → ρ) (statement : UpdateStatement π) :
    (updateTokens statement).map (Token.map f) = updateTokens (statement.map f) := by
  rw [updateTokens, List.map_cons, List.map_cons, List.map_cons, List.map_append, List.map_cons,
    map_intercalate, map_intercalate, List.map_map, updateTokens, UpdateStatement.map, List.map_map]
  rfl

theorem readBranches_branchTokens (branches : List (π × π)) :
    readBranches (branches.flatMap branchTokens ++ [.word "END"]) = some branches := by
  induction branches with
  | nil => rfl
  | cons branch branches ih =>
    show (readBranches (branches.flatMap branchTokens ++ [.word "END"])).map _ = _
    rw [ih]
    rfl

theorem readCase_caseTokens (column : String) (branches : List (π × π)) :
    readCase (caseTokens column branches) = some (column, branches) := by
  rw [caseTokens, readCase, readBranches_branchTokens]
  rfl

theorem readIn_inTokens (column : String) (values : List π) :
    readIn (inTokens column values) = some (column, values) := by
  rw [inTokens, readIn, readRow_listTokens]
  rfl

/-- An update up to the expression of one column. -/
def setTokens (table : String) (before : List (String × List (Token π))) (column : String) :
    List (Token π) :=
  .word "UPDATE" :: .word table :: .word "SET" ::
    ((before.flatMap fun assignment => assignmentTokens assignment ++ [.symbol ',']) ++
      [.word column, .symbol '='])

/-- The rest of the assignments, and the `WHERE` up to the values of its
`IN`. -/
def whereTokens (after : List (String × List (Token π))) (column : String) : List (Token π) :=
  (after.flatMap fun assignment => .symbol ',' :: assignmentTokens assignment) ++
    [.word "WHERE", .word column, .word "IN", .symbol '(']

def conditionTokens (conditions : List (List (Token π))) : List (Token π) :=
  .symbol ')' :: conditions.flatMap fun condition => .word "AND" :: condition

theorem intercalate_cons_flatMap {α : Type} (sep part : List α) (parts : List (List α)) :
    sep.intercalate (part :: parts) = part ++ parts.flatMap (fun next => sep ++ next) := by
  induction parts generalizing part with
  | nil => simp
  | cons next parts ih =>
    rw [List.intercalate_cons_cons, ih, List.flatMap_cons, List.append_assoc, List.append_assoc]

theorem intercalate_nil {α : Type} (parts : List (List α)) :
    ([] : List α).intercalate parts = parts.flatten := by
  cases parts with
  | nil => rfl
  | cons part parts =>
    rw [intercalate_cons_flatMap, List.flatten_cons]
    simp

theorem intercalate_append_cons {α : Type} (sep part : List α) (before after : List (List α)) :
    sep.intercalate (before ++ part :: after) =
      before.flatMap (fun prev => prev ++ sep) ++
        (part ++ after.flatMap (fun next => sep ++ next)) := by
  induction before with
  | nil => exact intercalate_cons_flatMap sep part after
  | cons prev before ih =>
    rw [List.cons_append, List.flatMap_cons, List.append_assoc, ← ih]
    cases before with
    | nil => rw [List.nil_append, List.intercalate_cons_cons]
    | cons next before => rw [List.cons_append, List.intercalate_cons_cons]

/-- An update in parts: one expression, and the values of an `IN`. -/
theorem updateTokens_eq (table column key : String) (before after : List (String × List (Token π)))
    (expression : List (Token π)) (values : List π) (conditions : List (List (Token π))) :
    updateTokens ⟨table, before ++ (column, expression) :: after,
        inTokens key values :: conditions⟩ =
      setTokens table before column ++ (expression ++ (whereTokens after key ++
        ([.symbol ','].intercalate ((values.map .param).map ([·])) ++
          conditionTokens conditions))) := by
  rw [updateTokens, List.map_append, List.map_cons, intercalate_append_cons,
    intercalate_cons_flatMap]
  simp [setTokens, whereTokens, conditionTokens, inTokens, listTokens, assignmentTokens,
    List.flatMap_map]

section Scans

variable (table column key : String) (before after : List (String × List (Token Marker)))
  (conditions : List (List (Token Marker))) {values : List Marker}
  {first second third fourth fifth : List Char}

/-- The text of an update in the parts of `updateTokens_eq`. -/
theorem scans_update {expression : List (Token Marker)}
    (hset : run .between first = (setTokens table before column, .between))
    (hexpression : Scans second expression)
    (hwhere : run .between third = (whereTokens after key, .between))
    (hvalues : Scans fourth ([.symbol ','].intercalate ((values.map .param).map ([·]))))
    (hconditions : Scans fifth (conditionTokens conditions))
    (hthird : delimited (third ++ (fourth ++ fifth)) = true) (hfifth : delimited fifth = true) :
    Scans (first ++ (second ++ (third ++ (fourth ++ fifth))))
      (updateTokens ⟨table, before ++ (column, expression) :: after,
        inTokens key values :: conditions⟩) := by
  rw [updateTokens_eq]
  exact Scans.append_of_between hset (hexpression.append
    (Scans.append_of_between hwhere (hvalues.append hconditions hfifth)) hthird)

/-- The same when the first part begins the `CASE` and the third ends it. -/
theorem scans_update_case {branches : List (Marker × Marker)}
    (hset : run .between first =
      (setTokens table before column ++ [.word "CASE", .word key], .between))
    (hbranches : Scans second (branches.flatMap branchTokens))
    (hwhere : run .between third = (.word "END" :: whereTokens after key, .between))
    (hvalues : Scans fourth ([.symbol ','].intercalate ((values.map .param).map ([·]))))
    (hconditions : Scans fifth (conditionTokens conditions))
    (hthird : delimited (third ++ (fourth ++ fifth)) = true) (hfifth : delimited fifth = true) :
    Scans (first ++ (second ++ (third ++ (fourth ++ fifth))))
      (updateTokens ⟨table, before ++ (column, caseTokens key branches) :: after,
        inTokens key values :: conditions⟩) := by
  have hparts : ∀ rest : List (Token Marker),
      setTokens table before column ++ (caseTokens key branches ++ rest) =
        (setTokens table before column ++ [.word "CASE", .word key]) ++
          (branches.flatMap branchTokens ++ (.word "END" :: rest)) := by
    intro rest
    simp [caseTokens]
  rw [updateTokens_eq, hparts]
  exact Scans.append_of_between hset (hbranches.append
    (Scans.append_of_between hwhere (hvalues.append hconditions hfifth)) hthird)

end Scans

/-- The tokens that a statement is split at. -/
def Token.isSeparator (t : Token π) : Bool :=
  t.isSymbol ',' || t.isWord "WHERE" || t.isWord "AND"

theorem flat_mono {sep sep' : Token π → Bool} (hsep : ∀ t, sep' t = true → sep t = true) {d : Nat}
    {ts : List (Token π)} (h : flat sep d ts = true) : flat sep' d ts = true := by
  induction ts generalizing d with
  | nil => exact h
  | cons t ts ih =>
    rw [flat, Bool.and_eq_true] at h ⊢
    refine ⟨?_, ih h.2⟩
    have ht := h.1
    cases hd : decide (d = 0) with
    | false => rfl
    | true =>
      rw [hd, Bool.true_and, Bool.not_eq_true'] at ht
      rw [Bool.true_and, Bool.not_eq_true', ← Bool.not_eq_true]
      exact fun h' => Bool.false_ne_true (ht.symm.trans (hsep t h'))

theorem flat_caseTokens {column : String}
    (hcolumn : (Token.word column : Token π).isSeparator = false) (branches : List (π × π)) :
    flat Token.isSeparator 0 (caseTokens column branches) = true := by
  have hbranches : flat Token.isSeparator 0 (branches.flatMap branchTokens ++ [.word "END"]) =
      true := by
    induction branches with
    | nil => rfl
    | cons branch branches ih => exact ih
  rw [caseTokens, flat, flat, hcolumn]
  exact hbranches

theorem flat_inTokens {column : String}
    (hcolumn : (Token.word column : Token π).isSeparator = false) (values : List π) :
    flat Token.isSeparator 0 (inTokens column values) = true := by
  have hrow : flat Token.isSeparator 0 (listTokens (values.map .param)) = true :=
    flat_row rfl values
  rw [inTokens, flat, hcolumn]
  exact hrow

/-- A statement is read as it is written. -/
theorem readUpdate_updateTokens {statement : UpdateStatement π}
    (hassignments : statement.assignments ≠ []) (hconditions : statement.conditions ≠ [])
    (hflat : ∀ assignment ∈ statement.assignments,
      flat Token.isSeparator 0 (assignmentTokens assignment) = true)
    (hflat' : ∀ condition ∈ statement.conditions, flat Token.isSeparator 0 condition = true) :
    readUpdate (updateTokens statement) = some statement := by
  have hcomma : ∀ t : Token π, t.isSymbol ',' = true → t.isSeparator = true := fun t ht => by
    rw [Token.isSeparator, ht]
    rfl
  have hwhere : ∀ t : Token π, t.isWord "WHERE" = true → t.isSeparator = true := fun t ht => by
    rw [Token.isSeparator, ht, Bool.or_true]
    rfl
  have hand : ∀ t : Token π, t.isWord "AND" = true → t.isSeparator = true := fun t ht => by
    rw [Token.isSeparator, ht, Bool.or_true]
  have hparts : ∀ part ∈ statement.assignments.map assignmentTokens,
      flat Token.isSeparator 0 part = true := by
    intro part hpart
    obtain ⟨assignment, hassignment, rfl⟩ := List.mem_map.mp hpart
    exact hflat assignment hassignment
  have hset : flat (Token.isWord "WHERE") 0
      ([.symbol ','].intercalate (statement.assignments.map assignmentTokens)) = true :=
    flat_intercalate rfl fun part hpart => flat_mono hwhere (hparts part hpart)
  have hcondition : flat (Token.isWord "WHERE") 0
      ([.word "AND"].intercalate statement.conditions) = true :=
    flat_intercalate rfl fun part hpart => flat_mono hwhere (hflat' part hpart)
  have hassigned : splitTop (Token.isSymbol ',') 0
      ([.symbol ','].intercalate (statement.assignments.map assignmentTokens)) =
        statement.assignments.map assignmentTokens :=
    splitTop_intercalate rfl (by simpa using hassignments)
      fun part hpart => flat_mono hcomma (hparts part hpart)
  have hconditioned : splitTop (Token.isWord "AND") 0
      ([.word "AND"].intercalate statement.conditions) = statement.conditions :=
    splitTop_intercalate rfl hconditions fun part hpart => flat_mono hand (hflat' part hpart)
  have hread : (statement.assignments.map assignmentTokens).mapM readAssignment =
      some statement.assignments := by
    induction statement.assignments with
    | nil => rfl
    | cons assignment assignments ih =>
      rw [List.map_cons, List.mapM_cons, ih]
      rfl
  rw [updateTokens, readUpdate, splitTop_append_cons hset rfl, splitTop_of_flat hcondition]
  show ((splitTop _ 0 _).mapM readAssignment).map _ = _
  rw [hassigned, hread, hconditioned]
  rfl

end Sql
