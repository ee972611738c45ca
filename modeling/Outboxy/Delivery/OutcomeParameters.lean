import Outboxy.Delivery.OutcomeTokens
import Outboxy.Library.Positions
import Outboxy.Placeholders

/-!
# The parameters of the outcome statements

Where the parameters of a call stand in the text of its statement, and that
each is bound there.

* `scans_callStatement`: the text is that of `positions`, which says for every
  event where its id and its value stand.
* `mem_values_positions`: no position is left out.
* `map_positions`: at its positions an event finds its own id and value.
* `matched_callStatement` and `bound_callStatement`: so the placeholders match
  the parameters, and binding them gives each event its own.
-/

namespace Outboxy

open Sql (Token UpdateStatement Marker Placeholder Scans caseTokens inTokens updateTokens)

/-! ## Positions -/

namespace Adapter

variable (a : Adapter)

/-- How many parameters MySQL binds before those of the `CASE`. -/
def caseOffset : RetryDecision → Nat
  | .succeeded => 0
  | .retry => 2
  | .dlq => 0

/-- The statement of a decision about `n` events, with the position of each
parameter. -/
def positions (decision : RetryDecision) (n : Nat) : UpdateStatement Nat :=
  match a with
  | .postgres =>
    a.outcome decision ((List.range n).map fun i => (i, n + i)) (List.range n) (2 * n) (2 * n + 1)
  | .mysql =>
    let start := caseOffset decision
    a.outcome decision ((List.range n).map fun i => (start + 2 * i, start + 2 * i + 1))
      ((List.range n).map fun i => start + 2 * n + i) 0 1

/-- How many parameters there are. -/
def parameters (decision : RetryDecision) (n : Nat) : Nat :=
  match a with
  | .postgres => 2 * n + caseOffset decision
  | .mysql => caseOffset decision + 3 * n

variable {a}

theorem scans_callStatement (call : RepositoryCall String) :
    Scans (a.callStatement call).sql.toList
      ((updateTokens (a.positions call.decision call.ids.length)).map (Token.map a.marker)) := by
  rw [Sql.map_updateTokens]
  cases a with
  | postgres =>
    have hbranches : ∀ n, ((List.range n).map fun i => (i, n + i)).map
        (Prod.map (marker .postgres) (marker .postgres)) = PgEventRepository.branchMarkers n :=
      fun n => List.map_map
    rw [positions, map_outcome, hbranches]
    cases call with
    | markSucceeded results =>
      have hlength : (.markSucceeded results : RepositoryCall String).ids.length = results.length :=
        List.length_map _
      rw [hlength]
      exact PgEventRepository.scans_markSucceeded results
    | scheduleRetry eventIds errorMessages config =>
      exact PgEventRepository.scans_scheduleRetry eventIds errorMessages config
    | moveToDLQ eventIds errorMessages =>
      exact PgEventRepository.scans_moveToDLQ eventIds errorMessages
  | mysql =>
    have hbranches : ∀ (start : Nat) (ids : List EventId),
        ((List.range ids.length).map fun i => (start + 2 * i, start + 2 * i + 1)).map
          (Prod.map (marker .mysql) (marker .mysql)) = MySQLEventRepository.branchMarkers ids := by
      intro start ids
      rw [MySQLEventRepository.branchMarkers, List.map_map, List.map_const']
      exact List.map_const'.trans
        (congrArg (List.replicate · (Marker.next, Marker.next)) List.length_range)
    have hids : ∀ (start : Nat) (ids : List EventId),
        ((List.range ids.length).map fun i => start + 2 * ids.length + i).map (marker .mysql) =
          ids.map fun _ => .next := by
      intro start ids
      rw [List.map_map, List.map_const']
      exact List.map_const'.trans (congrArg (List.replicate · Marker.next) List.length_range)
    rw [positions, map_outcome, hbranches, hids]
    cases call with
    | markSucceeded results => exact MySQLEventRepository.scans_markSucceeded results
    | scheduleRetry eventIds errorMessages config =>
      exact MySQLEventRepository.scans_scheduleRetry eventIds errorMessages config
    | moveToDLQ eventIds errorMessages =>
      exact MySQLEventRepository.scans_moveToDLQ eventIds errorMessages

/-- On MySQL the parameters stand in the text in their order. -/
theorem values_positions_mysql (decision : RetryDecision) (n : Nat) :
    Sql.values (updateTokens (Adapter.mysql.positions decision n)) =
      List.range (Adapter.mysql.parameters decision n) := by
  have hvalues : ∀ start, (((List.range n).map fun i => (start + 2 * i, start + 2 * i + 1)).flatMap
      fun branch => [branch.1, branch.2]) ++ ((List.range n).map fun i => start + 2 * n + i) =
        List.range' start (3 * n) := by
    intro start
    rw [List.flatMap_map, Positions.flatMap_pair_range, ← List.range'_eq_map_range,
      List.range'_append_1]
    congr 1
    omega
  rw [positions, List.range_eq_range' (n := parameters _ _ _), parameters]
  cases decision with
  | succeeded | dlq =>
    rw [values_outcome (by decide), caseOffset, Nat.zero_add (3 * n)]
    exact hvalues 0
  | retry =>
    rw [values_retry_mysql, caseOffset, ← List.range'_append_1, hvalues]
    rfl

/-- Every position stands in the text, and no other. -/
theorem mem_values_positions (decision : RetryDecision) (n i : Nat) :
    i ∈ Sql.values (updateTokens (a.positions decision n)) ↔ i < a.parameters decision n := by
  cases a with
  | mysql => rw [values_positions_mysql, List.mem_range]
  | postgres =>
    have hbranches : i ∈ (((List.range n).map fun i => (i, n + i)).flatMap
        fun branch => [branch.1, branch.2]) ↔ i < 2 * n := by
      simp only [List.mem_flatMap, List.mem_map, List.mem_range]
      constructor
      · rintro ⟨branch, ⟨k, hk, rfl⟩, hi⟩
        simp at hi
        omega
      · intro hi
        by_cases hid : i < n
        · exact ⟨(i, n + i), ⟨i, hid, rfl⟩, List.mem_cons_self⟩
        · refine ⟨(i - n, i), ⟨i - n, by omega, ?_⟩, by simp⟩
          rw [Nat.add_sub_cancel' (Nat.le_of_not_lt hid)]
    rw [positions, parameters]
    cases decision with
    | succeeded | dlq =>
      rw [values_outcome (by decide), caseOffset, List.mem_append, hbranches, List.mem_range]
      omega
    | retry =>
      have hnumbers : i ∈ [2 * n, 2 * n + 1] ↔ i = 2 * n ∨ i = 2 * n + 1 := by simp
      rw [values_retry_postgres, caseOffset, List.mem_append, List.mem_append, hbranches,
        List.mem_range, hnumbers]
      omega

theorem read_callStatement (call : RepositoryCall String) :
    Sql.read (a.callStatement call).sql =
      (updateTokens (a.positions call.decision call.ids.length)).map (Token.map a.placeholder) := by
  refine read_of_scans (scans_callStatement call) fun hmysql => ?_
  subst hmysql
  exact ⟨_, values_positions_mysql _ _⟩

end Adapter

/-! ## Parameters -/

/-- What a branch of the `CASE` binds. -/
def branchValues : EventId × String → BoundValue × BoundValue := Prod.map .text .text

/-- The numbers that a call binds. -/
def RepositoryCall.numbers : RepositoryCall String → List BoundValue
  | .markSucceeded _ => []
  | .scheduleRetry _ _ config => [.number config.backoffBaseMs, .number config.backoffMultiplier]
  | .moveToDLQ _ _ => []

namespace Adapter

variable {a : Adapter} (call : RepositoryCall String)

/-- What a call writes for each event: its worker or its error text. -/
def branches (a : Adapter) : RepositoryCall String → List (EventId × String)
  | .markSucceeded results => results
  | .scheduleRetry eventIds errorMessages _ =>
    match a with
    | .postgres => PgEventRepository.errorCase eventIds errorMessages
    | .mysql => MySQLEventRepository.errorCase "Unknown error" eventIds errorMessages
  | .moveToDLQ eventIds errorMessages =>
    match a with
    | .postgres => PgEventRepository.errorCase eventIds errorMessages
    | .mysql => MySQLEventRepository.errorCase "Moved to DLQ" eventIds errorMessages

theorem map_fst_branches : (a.branches call).map Prod.fst = call.ids := by
  cases call with
  | markSucceeded results => rfl
  | scheduleRetry eventIds errorMessages config =>
    cases a <;> exact (List.map_map ..).trans (List.map_id _)
  | moveToDLQ eventIds errorMessages =>
    cases a <;> exact (List.map_map ..).trans (List.map_id _)

theorem length_branches : (a.branches call).length = call.ids.length := by
  rw [← map_fst_branches (a := a) call, List.length_map]

theorem params_postgres :
    (Adapter.postgres.callStatement call).params =
      texts call.ids ++
        (texts ((Adapter.postgres.branches call).map Prod.snd) ++ call.numbers) := by
  have hresults : ∀ (eventIds : List EventId) (errorMessages : OrderedMap EventId String),
      (PgEventRepository.errorCase eventIds errorMessages).map Prod.snd =
        eventIds.map (PgEventRepository.errorText errorMessages) := fun _ _ => List.map_map
  cases call with
  | markSucceeded results => exact congrArg (_ ++ ·) (List.append_nil _).symm
  | scheduleRetry eventIds errorMessages config =>
    rw [branches, hresults]
    exact List.append_assoc ..
  | moveToDLQ eventIds errorMessages =>
    rw [branches, hresults]
    exact congrArg (_ ++ ·) (List.append_nil _).symm

theorem params_mysql :
    (Adapter.mysql.callStatement call).params =
      call.numbers ++ ((((Adapter.mysql.branches call).map branchValues).flatMap
        fun pair => [pair.1, pair.2]) ++ texts call.ids) := by
  rw [List.flatMap_map]
  cases call with
  | markSucceeded results => rfl
  | scheduleRetry eventIds errorMessages config => exact List.append_assoc ..
  | moveToDLQ eventIds errorMessages => rfl

theorem length_texts (values : List String) : (texts values).length = values.length :=
  List.length_map _

theorem length_numbers : call.numbers.length = caseOffset call.decision := by
  cases call <;> rfl

theorem length_params :
    (a.callStatement call).params.length = a.parameters call.decision call.ids.length := by
  cases a with
  | postgres =>
    rw [params_postgres, List.length_append, List.length_append, length_texts, length_texts,
      List.length_map, length_branches, length_numbers, parameters]
    omega
  | mysql =>
    rw [params_mysql, List.length_append, List.length_append, Positions.length_flatMap_pair,
      length_texts, List.length_map, length_branches, length_numbers, parameters]
    omega

/-- The parameter at a position. -/
def value (a : Adapter) (call : RepositoryCall String) (i : Nat) : BoundValue :=
  (a.callStatement call).params.getD i (.text "")

/-- Where the numbers of a call stand among its parameters. -/
def numberPosition (a : Adapter) (n : Nat) : Nat :=
  match a with
  | .postgres => 2 * n
  | .mysql => 0

theorem value_postgres (i : Nat) :
    value .postgres call i = (texts call.ids ++
      (texts ((Adapter.postgres.branches call).map Prod.snd) ++
        call.numbers)).getD i (.text "") := by
  rw [value, params_postgres]

theorem value_mysql (i : Nat) :
    value .mysql call i = (call.numbers ++ ((((Adapter.mysql.branches call).map
      branchValues).flatMap fun pair => [pair.1, pair.2]) ++
        texts call.ids)).getD i (.text "") := by
  rw [value, params_mysql]

theorem map_value_ids_postgres :
    (List.range call.ids.length).map (value .postgres call) = texts call.ids := by
  have hids := Positions.map_getD_range [] (texts call.ids)
    (texts ((Adapter.postgres.branches call).map Prod.snd) ++ call.numbers) (.text "")
  rw [length_texts] at hids
  refine Eq.trans (List.map_congr_left fun i _ => ?_) hids
  rw [value_postgres, List.nil_append, List.length_nil, Nat.zero_add]

theorem map_value_branches_postgres :
    ((List.range call.ids.length).map fun i =>
      (value .postgres call i, value .postgres call (call.ids.length + i))) =
        (Adapter.postgres.branches call).map branchValues := by
  have hresults := Positions.map_getD_range (texts call.ids)
    (texts ((Adapter.postgres.branches call).map Prod.snd)) call.numbers (.text "")
  rw [length_texts, length_texts, List.length_map, length_branches] at hresults
  have hvalues : ((List.range call.ids.length).map fun i =>
      value .postgres call (call.ids.length + i)) =
        texts ((Adapter.postgres.branches call).map Prod.snd) :=
    Eq.trans (List.map_congr_left fun i _ => value_postgres call _) hresults
  rw [← List.zip_map', map_value_ids_postgres, hvalues, ← map_fst_branches (a := .postgres) call,
    texts, texts, List.map_map, List.map_map, List.zip_map']
  rfl

theorem map_value_branches_mysql :
    ((List.range call.ids.length).map fun i =>
      (value .mysql call (call.numbers.length + 2 * i),
        value .mysql call (call.numbers.length + 2 * i + 1))) =
        (Adapter.mysql.branches call).map branchValues := by
  have hpairs := Positions.map_getD_range_pairs call.numbers
    ((Adapter.mysql.branches call).map branchValues) (texts call.ids) (.text "")
  rw [List.length_map, length_branches] at hpairs
  refine Eq.trans (List.map_congr_left fun i _ => ?_) hpairs
  rw [value_mysql, value_mysql]

theorem map_value_ids_mysql :
    ((List.range call.ids.length).map fun i =>
      value .mysql call (call.numbers.length + 2 * call.ids.length + i)) = texts call.ids := by
  have hids := Positions.map_getD_range (call.numbers ++ (((Adapter.mysql.branches call).map
    branchValues).flatMap fun pair => [pair.1, pair.2])) (texts call.ids) [] (.text "")
  rw [length_texts, List.length_append, Positions.length_flatMap_pair, List.length_map,
    length_branches, List.append_nil, List.append_assoc] at hids
  exact Eq.trans (List.map_congr_left fun i _ => value_mysql call _) hids

/-- Each event has its own values. -/
theorem map_positions :
    (a.positions call.decision call.ids.length).map (a.value call) =
      a.outcome call.decision ((a.branches call).map branchValues) (texts call.ids)
        (a.value call (a.numberPosition call.ids.length))
          (a.value call (a.numberPosition call.ids.length + 1)) := by
  cases a with
  | postgres =>
    rw [positions, map_outcome, List.map_map, map_value_ids_postgres,
      ← map_value_branches_postgres]
    rfl
  | mysql =>
    rw [positions, map_outcome, List.map_map, List.map_map, ← length_numbers,
      ← map_value_branches_mysql, ← map_value_ids_mysql]
    rfl

theorem value_numberPosition {k : Nat} {number : BoundValue}
    (h : call.numbers[k]? = some number) :
    a.value call (a.numberPosition call.ids.length + k) = number := by
  cases a with
  | postgres =>
    have hlength : (texts call.ids ++
        texts ((Adapter.postgres.branches call).map Prod.snd)).length = 2 * call.ids.length := by
      rw [List.length_append, length_texts, length_texts, List.length_map, length_branches]
      omega
    rw [value_postgres, ← List.append_assoc, List.getD_eq_getElem?_getD, numberPosition, ← hlength,
      List.getElem?_append_right (Nat.le_add_right _ _), Nat.add_sub_cancel_left, h]
    rfl
  | mysql =>
    obtain ⟨hk, -⟩ := List.getElem?_eq_some_iff.mp h
    rw [value_mysql, List.getD_eq_getElem?_getD, numberPosition, Nat.zero_add,
      List.getElem?_append_left hk, h]
    rfl

theorem matched_callStatement :
    Sql.Matched (a.callStatement call).sql (a.callStatement call).params := by
  refine Sql.matched_of_read (read_callStatement call) parameter_placeholder fun i => ?_
  rw [mem_values_positions, length_params]

theorem bound_callStatement :
    Sql.bound (a.callStatement call).sql (a.callStatement call).params =
      some (updateTokens (a.outcome call.decision ((a.branches call).map branchValues)
        (texts call.ids) (a.value call (a.numberPosition call.ids.length))
          (a.value call (a.numberPosition call.ids.length + 1)))) := by
  rw [← map_positions, ← Sql.map_updateTokens]
  refine Sql.bound_of_read (read_callStatement call) parameter_placeholder fun i hi => ?_
  rw [mem_values_positions, ← length_params] at hi
  rw [value, List.getD_eq_getElem?_getD, List.getElem?_eq_getElem hi]
  rfl

end Adapter

end Outboxy
