import Outboxy.Library.Positions
import Outboxy.Library.SqlStatements
import Outboxy.Placeholders
import Outboxy.Sdk.Statements

/-!
# The cells of a batch insert

What a database reads in the statements of `buildBulkInsert` and
`buildInboxBulkInsert`: row by row the values that they were built for.

* `inserts_buildBulkInsert` and `inserts_buildInboxBulkInsert` are about any
  columns that are names, and rows as long as them.
* `OutboxStatement.inserts_build` and `InboxStatement.inserts_bulkInsert` are
  about the columns and rows of the clients.
-/

namespace Outboxy

open Sql (Token Scans run_ofList scans_ofList scans_numbered listTokens rowsTokens)

/-- What the clients ask the dialects for. -/
structure BuildBulkInsertParams where
  columns : List String
  rows : List (List SqlValue)
  generatedIds : Option (List String)

namespace BuildBulkInsertParams

variable (params : BuildBulkInsertParams)

/-- There is an id for every row. -/
def hasIds : Bool := params.generatedIds.any fun ids => ids.length = params.rows.length

/-- Every row has a value for every column. -/
def Uniform : Prop := ∀ row ∈ params.rows, row.length = params.columns.length

/-- The columns are names, as those of the clients are. -/
def Named : Prop := ∀ column ∈ params.columns, Sql.isName column = true

instance : Decidable params.Uniform := by
  unfold Uniform
  infer_instance

instance : Decidable params.Named := by
  unfold Named
  infer_instance

end BuildBulkInsertParams

/-- The placeholders match the parameters, and a database reads these rows. -/
structure SqlStatement.Inserts (statement : SqlStatement) (table : String) (columns : List String)
    (rows : List (List SqlValue)) : Prop where
  matched : Sql.Matched statement.sql statement.params
  reads : (Sql.bound statement.sql statement.params).bind Sql.readInsert =
    some ⟨table, columns, rows⟩

namespace Adapter

variable (a : Adapter)

/-- `buildBulkInsert`, which on MySQL throws without ids. -/
def bulkInsertStatement (params : BuildBulkInsertParams) : Except String SqlStatement :=
  if a = .mysql && !params.hasIds then .error "MySQL requires generatedIds for bulk INSERT"
  else .ok (a.buildBulkInsert params.columns params.rows)

/-- `buildInboxBulkInsert` -/
def inboxBulkInsertStatement (params : BuildBulkInsertParams) : Except String SqlStatement :=
  if a = .mysql && !params.hasIds then .error "MySQL requires generatedIds for bulk inbox INSERT"
  else .ok (a.buildInboxBulkInsert params.columns params.rows)

/-- `placeholder(i + 1)` -/
def placeholderText (i : Nat) : String :=
  match a with
  | .postgres => "$" ++ toString (i + 1)
  | .mysql => "?"

variable {a}

theorem buildBulkInsert_of_ok {params : BuildBulkInsertParams} {statement : SqlStatement}
    (h : a.bulkInsertStatement params = .ok statement) :
    a.buildBulkInsert params.columns params.rows = statement := by
  unfold bulkInsertStatement at h
  split at h
  · exact nomatch h
  · exact Except.ok.inj h

theorem buildInboxBulkInsert_of_ok {params : BuildBulkInsertParams} {statement : SqlStatement}
    (h : a.inboxBulkInsertStatement params = .ok statement) :
    a.buildInboxBulkInsert params.columns params.rows = statement := by
  unfold inboxBulkInsertStatement at h
  split at h
  · exact nomatch h
  · exact Except.ok.inj h

theorem scans_placeholderText (i : Nat) :
    Scans (a.placeholderText i).toList [.param (a.marker i)] := by
  cases a with
  | postgres =>
    have hdollar : Sql.run .between "$".toList = ([], .number 0) := run_ofList rfl
    rw [placeholderText, String.toList_append]
    exact scans_numbered hdollar (i + 1)
  | mysql => exact scans_ofList rfl rfl

/-- The placeholders of uniform rows are those of their cells. -/
theorem placeholders_eq {columns : Nat} {rows : List (List SqlValue)}
    (h : ∀ row ∈ rows, row.length = columns) :
    a.placeholders columns rows =
      (Positions.cells columns rows.length).map (List.map a.placeholderText) := by
  rw [Positions.cells, List.map_map]
  cases a with
  | postgres =>
    rw [placeholders, PostgreSqlDialect.placeholders, ← Positions.map_zipIdx_snd]
    refine List.map_congr_left fun row hrow => ?_
    rw [Positions.map_zipIdx_snd (fun column => "$" ++ toString (row.2 * columns + column + 1)),
      h row.1 (List.fst_mem_of_mem_zipIdx hrow), Function.comp_apply, List.map_map]
    rfl
  | mysql =>
    have hrow : ∀ row ∈ rows, (row.map fun _ => "?") = List.replicate columns "?" := by
      intro row hrow
      rw [List.map_const', h row hrow]
    rw [placeholders, MySqlDialect.placeholders, List.map_congr_left hrow, List.map_const']
    refine Eq.symm (Eq.trans (List.map_congr_left fun _ _ => ?_)
      (List.map_const'.trans (congrArg (List.replicate · _) List.length_range)))
    rw [Function.comp_apply, List.map_map]
    exact List.map_const'.trans (congrArg (List.replicate · "?") List.length_range)

theorem scans_row (positions : List Nat) :
    Scans ("(" ++ joinComma (positions.map a.placeholderText) ++ ")").toList
      (listTokens ((positions.map a.marker).map .param)) := by
  have hopen : Sql.run .between "(".toList = ([.symbol '('], .between) := run_ofList rfl
  have hclose : Scans ")".toList [.symbol ')'] := scans_ofList rfl rfl
  have hitems : Scans (joinComma (positions.map a.placeholderText)).toList
      ([.symbol ','].intercalate (((positions.map a.marker).map .param).map ([·]))) := by
    rw [joinComma, String.toList_intercalate, List.map_map, List.map_map, List.map_map]
    exact Sql.scans_intercalate (run_ofList rfl) (by decide) (by decide)
      fun i _ => scans_placeholderText i
  rw [String.toList_append, String.toList_append, List.append_assoc]
  exact Scans.append_of_between hopen (hitems.append hclose (by decide))

theorem scans_valuesClauses (positions : List (List Nat)) :
    Scans (valuesClauses (positions.map (List.map a.placeholderText))).toList
      (rowsTokens (positions.map (List.map a.marker))) := by
  rw [valuesClauses, joinComma, String.toList_intercalate, List.map_map, List.map_map, rowsTokens,
    List.map_map]
  exact Sql.scans_intercalate (run_ofList rfl) (by decide) (by decide) fun row _ => scans_row row

theorem scans_columns {columns : List String}
    (h : ∀ column ∈ columns, Sql.isName column = true) :
    Scans (joinComma columns).toList
      ([.symbol ','].intercalate ((columns.map .word).map ([·]))) := by
  rw [joinComma, String.toList_intercalate, List.map_map]
  exact Sql.scans_intercalate (run_ofList rfl) (by decide) (by decide)
    fun column hcolumn => Sql.scans_word (h column hcolumn)

/-- The text of an insert, whatever comes before the columns and after the
rows. -/
theorem scans_insert {first last : List Char} {target columns : List String}
    {tail : List (Token Empty)} {rows : List (List SqlValue)}
    (hcolumns : ∀ column ∈ columns, Sql.isName column = true)
    (hrows : ∀ row ∈ rows, row.length = columns.length)
    (hfirst : Sql.run .between first = (target.map .word ++ [.symbol '('], .between))
    (hlast : Scans last (Sql.fixed tail)) (hdelimited : Sql.delimited last = true) :
    Scans (first ++ ((joinComma columns).toList ++ (")\n      VALUES ".toList ++
        ((valuesClauses (a.placeholders columns.length rows)).toList ++ last))))
      ((Sql.insertTokens target columns (Positions.cells columns.length rows.length) tail).map
        (Token.map a.marker)) := by
  have hvalues : Sql.run .between ")\n      VALUES ".toList =
      ([.symbol ')', .word "VALUES"], .between) := run_ofList rfl
  have hclauses := scans_valuesClauses (a := a) (Positions.cells columns.length rows.length)
  have hscans := Scans.append_of_between hfirst ((scans_columns hcolumns).append
    (Scans.append_of_between hvalues (hclauses.append hlast hdelimited))
    (Sql.delimited_ofList_append rfl _))
  rw [placeholders_eq hrows, Sql.map_insertTokens]
  simpa [Sql.insertTokens, listTokens] using hscans

theorem inserts_of_scans {statement : SqlStatement} {target columns : List String} {table : String}
    {tail : List (Token Empty)} {rows : List (List SqlValue)}
    (hparams : statement.params = rows.flatten)
    (hrows : ∀ row ∈ rows, row.length = columns.length)
    (hscans : Scans statement.sql.toList ((Sql.insertTokens target columns
      (Positions.cells columns.length rows.length) tail).map (Token.map a.marker)))
    (hread : Sql.readInsert (Sql.insertTokens target columns rows tail) =
      some ⟨table, columns, rows⟩) : statement.Inserts table columns rows := by
  have hvalues : Sql.values (Sql.insertTokens target columns
      (Positions.cells columns.length rows.length) tail) =
        List.range (rows.length * columns.length) := by
    rw [Sql.values_insertTokens, Positions.flatten_cells]
  have htext := read_of_scans hscans fun _ => ⟨_, hvalues⟩
  refine ⟨Sql.matched_of_read htext parameter_placeholder fun i => ?_, ?_⟩
  · rw [hvalues, List.mem_range, hparams, Positions.length_flatten hrows]
  · have hcells := Positions.map_getD_cells hrows [] (SqlValue.null)
    have hbound : Sql.bound statement.sql rows.flatten = some ((Sql.insertTokens target columns
        (Positions.cells columns.length rows.length) tail).map
          (Token.map fun i =>
            ([] ++ rows.flatten).getD (([] : List SqlValue).length + i) .null)) := by
      refine Sql.bound_of_read htext parameter_placeholder fun i hi => ?_
      rw [hvalues, List.mem_range, ← Positions.length_flatten hrows] at hi
      rw [List.nil_append, List.length_nil, Nat.zero_add, List.getD_eq_getElem?_getD,
        List.getElem?_eq_getElem hi]
      rfl
    rw [hparams, hbound, Option.bind_some, Sql.map_insertTokens, hcells, hread]

/-! ## The statements of the dialects -/

def returningTokens (a : Adapter) : List (Token Empty) :=
  match a with
  | .postgres => [.word "RETURNING", .word "id"]
  | .mysql => []

def onConflictTokens (a : Adapter) : List (Token Empty) :=
  match a with
  | .postgres =>
    [.word "ON", .word "CONFLICT", .symbol '(', .word "idempotency_key", .symbol ')', .word "DO",
      .word "NOTHING", .word "RETURNING", .word "id"]
  | .mysql => []

/-- The words before the columns of an inbox insert. -/
def inboxTarget (a : Adapter) : List String :=
  match a with
  | .postgres => ["INSERT", "INTO", "inbox_events"]
  | .mysql => ["INSERT", "IGNORE", "INTO", "inbox_events"]

variable {columns : List String} {rows : List (List SqlValue)}
  (hcolumns : ∀ column ∈ columns, Sql.isName column = true)
  (hrows : ∀ row ∈ rows, row.length = columns.length)

include hcolumns hrows

theorem inserts_buildBulkInsert :
    (a.buildBulkInsert columns rows).Inserts "outbox_events" columns rows := by
  have hscans : Scans (a.buildBulkInsert columns rows).sql.toList
      ((Sql.insertTokens ["INSERT", "INTO", "outbox_events"] columns
        (Positions.cells columns.length rows.length) a.returningTokens).map
          (Token.map a.marker)) := by
    unfold buildBulkInsert
    repeat rw [String.toList_append]
    repeat rw [List.append_assoc]
    cases a with
    | postgres =>
      exact scans_insert hcolumns hrows (run_ofList rfl) (scans_ofList rfl rfl)
        (Sql.delimited_ofList rfl)
    | mysql => exact scans_insert hcolumns hrows (run_ofList rfl) Scans.nil rfl
  have htarget : Sql.readTarget (["INSERT", "INTO", "outbox_events"].map .word ++
      listTokens (columns.map .word) : List (Token SqlValue)) = some ("outbox_events", columns) :=
    Sql.readColumns_listTokens _ _
  refine inserts_of_scans rfl hrows hscans ?_
  cases a <;> exact Sql.readInsert_insertTokens rfl htarget rows rfl rfl

theorem inserts_buildInboxBulkInsert :
    (a.buildInboxBulkInsert columns rows).Inserts "inbox_events" columns rows := by
  have htable : Sql.run (.word "INTO".toList) " inbox_events (".toList =
    ([.word "INTO", .word "inbox_events", .symbol '('], .between) := run_ofList rfl
  have hscans : Scans (a.buildInboxBulkInsert columns rows).sql.toList
      ((Sql.insertTokens a.inboxTarget columns (Positions.cells columns.length rows.length)
        a.onConflictTokens).map (Token.map a.marker)) := by
    unfold buildInboxBulkInsert
    repeat rw [String.toList_append]
    repeat rw [List.append_assoc]
    -- The text of the table is in two parts, and the word INTO ends with the first.
    rw [← List.append_assoc]
    cases a with
    | postgres =>
      have hinto : Sql.run .between "INSERT INTO".toList =
        ([.word "INSERT"], .word "INTO".toList) := run_ofList rfl
      refine scans_insert hcolumns hrows ((Sql.run_append ..).trans ?_) (scans_ofList rfl rfl)
        (Sql.delimited_ofList rfl)
      simp only [supportsReturning, if_true]
      rw [hinto, htable]
      rfl
    | mysql =>
      have hinto : Sql.run .between "INSERT IGNORE INTO".toList =
        ([.word "INSERT", .word "IGNORE"], .word "INTO".toList) := run_ofList rfl
      refine scans_insert hcolumns hrows ((Sql.run_append ..).trans ?_) Scans.nil rfl
      simp only [supportsReturning, Bool.false_eq_true, if_false]
      rw [hinto, htable]
      rfl
  have htarget : Sql.readTarget (a.inboxTarget.map .word ++
      listTokens (columns.map .word) : List (Token SqlValue)) = some ("inbox_events", columns) := by
    cases a <;> exact Sql.readColumns_listTokens _ _
  refine inserts_of_scans rfl hrows hscans ?_
  cases a <;> exact Sql.readInsert_insertTokens rfl htarget rows rfl rfl

end Adapter

/-! ## The statements of the clients -/

/-- `publishBatch` inserts the values of its rows. -/
theorem OutboxStatement.inserts_build (a : Adapter) (statement : OutboxStatement) :
    (statement.build a).Inserts "outbox_events" (a.withId "id" outboxBaseColumns)
      (statement.rows.map fun row => a.withId (.text row.id) row.baseValues) := by
  have hcolumns : ∀ column ∈ a.withId "id" outboxBaseColumns, Sql.isName column = true := by
    cases a <;> decide
  refine Adapter.inserts_buildBulkInsert hcolumns fun values hvalues => ?_
  obtain ⟨row, -, rfl⟩ := List.mem_map.mp hvalues
  cases a <;> rfl

/-- `receiveBatch` inserts the values of its rows. -/
theorem InboxStatement.inserts_bulkInsert (a : Adapter) (rows : List InboxEvent) :
    ((InboxStatement.bulkInsert rows).build a).Inserts "inbox_events"
      (a.withId "id" inboxBaseColumns)
      (rows.map fun row => a.withId (.text row.id) row.baseValues) := by
  have hcolumns : ∀ column ∈ a.withId "id" inboxBaseColumns, Sql.isName column = true := by
    cases a <;> decide
  refine Adapter.inserts_buildInboxBulkInsert hcolumns fun values hvalues => ?_
  obtain ⟨row, -, rfl⟩ := List.mem_map.mp hvalues
  cases a <;> rfl

end Outboxy
