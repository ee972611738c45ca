import Outboxy.Delivery.OutcomeReading
import Outboxy.Sdk.InsertStatements

/-!
# Every value in its own cell

The statements with many rows: the batch inserts of the dialects and the
outcome writes of the event repositories.  Their placeholders match their
parameters, and what a database reads in them is what they are for.
-/

namespace Outboxy

/-- `CASE id` finds the text of an id that is listed once. -/
theorem caseId_of_mem {branches : List (EventId × String)} {id : EventId} {text : String}
    (hnodup : (branches.map Prod.fst).Nodup) (h : (id, text) ∈ branches) :
    caseId branches id = some text :=
  OrderedMap.get?_of_mem_entries (m := ⟨branches⟩) hnodup h

/-- The column that a call writes by a `CASE`. -/
def RepositoryCall.caseColumn : RepositoryCall String → OutboxEvent → Option String
  | .markSucceeded _, row => row.processedByWorker
  | _, row => row.lastError

/-- A row has its own worker or error text after a call. -/
def RepositoryCall.GivesOwn (a : Adapter) (call : RepositoryCall String) (row : OutboxEvent) :
    Prop :=
  match call with
  | .markSucceeded results =>
    ∀ workerId, (row.id, workerId) ∈ results → row.processedByWorker = some workerId
  | .scheduleRetry _ errorMessages _ =>
    row.lastError = some (match a with
      | .postgres => PgEventRepository.errorText errorMessages row.id
      | .mysql => MySQLEventRepository.errorText "Unknown error" errorMessages row.id)
  | .moveToDLQ _ errorMessages =>
    row.lastError = some (match a with
      | .postgres => PgEventRepository.errorText errorMessages row.id
      | .mysql => MySQLEventRepository.errorText "Moved to DLQ" errorMessages row.id)

/-- What an update must do for a call: write the listed rows that the call
admits, with what belongs to each of them, and no row of another id. -/
structure RepositoryCall.OwnUpdate (a : Adapter) (call : RepositoryCall String) (u : OutboxUpdate) :
    Prop where
  guard : ∀ row, u.guard row = true ↔ row.id ∈ call.ids ∧ call.admits row
  own : ∀ row, row.id ∈ call.ids → call.GivesOwn a (u.assign row)
  frame : ∀ row, row.id ∉ call.ids → u.apply row = row

/-- The placeholders match the parameters, and a database reads such an
update. -/
structure BoundStatement.WritesOwn (a : Adapter) (call : RepositoryCall String)
    (statement : BoundStatement) : Prop where
  matched : Sql.Matched statement.sql statement.params
  reads : ∀ now, ∃ u, a.readUpdate now statement = some u ∧ call.OwnUpdate a u

section Own

variable {a : Adapter} {now : Int} {call : RepositoryCall String} {u : OutboxUpdate}

/-- A call writes the text that its `CASE` has for the id of the row. -/
theorem caseColumn_assign (h : a.outcomeUpdate now call = some u) (row : OutboxEvent) :
    call.caseColumn (u.assign row) = caseId (a.branches call) row.id := by
  cases a with
  | postgres => cases call <;> obtain rfl := Option.some.inj h <;> rfl
  | mysql =>
    cases call <;> obtain rfl := Option.some.inj (Option.ite_none_right_eq_some.mp h).2 <;> rfl

theorem givesOwn_assign (h : a.outcomeUpdate now call = some u) (hnodup : call.ids.Nodup)
    {row : OutboxEvent} (hid : row.id ∈ call.ids) : call.GivesOwn a (u.assign row) := by
  have hrow : (u.assign row).id = row.id := u.assign_pk row
  have hown : ∀ text, (row.id, text) ∈ a.branches call →
      call.caseColumn (u.assign row) = some text := by
    intro text htext
    rw [caseColumn_assign h]
    refine caseId_of_mem ?_ htext
    rwa [Adapter.map_fst_branches]
  cases call with
  | markSucceeded results =>
    intro workerId hresult
    rw [hrow] at hresult
    exact hown workerId hresult
  | scheduleRetry eventIds errorMessages config =>
    show (u.assign row).lastError = _
    rw [hrow]
    cases a <;> exact hown _ (List.mem_map_of_mem hid)
  | moveToDLQ eventIds errorMessages =>
    show (u.assign row).lastError = _
    rw [hrow]
    cases a <;> exact hown _ (List.mem_map_of_mem hid)

theorem ownUpdate_outcomeUpdate (h : a.outcomeUpdate now call = some u)
    (hnodup : call.ids.Nodup) : call.OwnUpdate a u := by
  have hguard := outcomeUpdate_guard h
  refine ⟨hguard, fun row hid => givesOwn_assign h hnodup hid, fun row hid => ?_⟩
  exact Update.apply_of_not_guard (Bool.eq_false_iff.mpr fun hrow => hid ((hguard row).mp hrow).1)

/-- The statement of a call on distinct events gives each its own text. -/
theorem writesOwn_of_statement {statement : BoundStatement} (hnodup : call.ids.Nodup)
    (h : a.statement call = some statement) : statement.WritesOwn a call := by
  obtain ⟨hcall, hupdate⟩ := callStatement_of_statement h
  refine ⟨?_, fun now => ?_⟩
  · rw [← hcall]
    exact Adapter.matched_callStatement call
  · obtain ⟨u, hu⟩ := hupdate now
    exact ⟨u, (readUpdate_statement h now).trans hu, ownUpdate_outcomeUpdate hu hnodup⟩

end Own

/-- Every parameter is bound in its own cell: the batch inserts give each row
its own values, and the outcome writes give each event its own text. -/
theorem bindsOwnCells (a : Adapter) :
    (∀ (params : BuildBulkInsertParams) (statement : SqlStatement),
      params.Uniform → params.Named →
        (a.bulkInsertStatement params = .ok statement →
          statement.Inserts "outbox_events" params.columns params.rows) ∧
        (a.inboxBulkInsertStatement params = .ok statement →
          statement.Inserts "inbox_events" params.columns params.rows)) ∧
    ∀ (call : RepositoryCall String) (statement : BoundStatement), call.ids.Nodup →
      a.statement call = some statement → statement.WritesOwn a call := by
  refine ⟨fun params statement hrows hcolumns => ⟨fun h => ?_, fun h => ?_⟩,
    fun call statement hnodup h => writesOwn_of_statement hnodup h⟩
  · rw [← Adapter.buildBulkInsert_of_ok h]
    exact Adapter.inserts_buildBulkInsert hcolumns hrows
  · rw [← Adapter.buildInboxBulkInsert_of_ok h]
    exact Adapter.inserts_buildInboxBulkInsert hcolumns hrows

/-- Two rows of two values on MySQL, and two events on PostgreSQL. -/
theorem bindsOwnCells_two :
    (Adapter.mysql.buildInboxBulkInsert ["id", "source"]
        [[.text "a", .null], [.text "b", .text "orders"]]).Inserts "inbox_events" ["id", "source"]
          [[.text "a", .null], [.text "b", .text "orders"]] ∧
    (PgEventRepository.markSucceededStatement [("a", "worker-0"), ("b", "worker-1")]).WritesOwn
      .postgres (.markSucceeded [("a", "worker-0"), ("b", "worker-1")]) := by
  refine ⟨?_, (bindsOwnCells .postgres).2 _ _ (by decide) rfl⟩
  exact ((bindsOwnCells .mysql).1 ⟨_, _, some ["a", "b"]⟩ _ (by decide) (by decide)).2 rfl

end Outboxy
