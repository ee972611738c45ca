import Outboxy.Delivery.OutcomeStatements

/-!
# The outcome statements, token by token

`Adapter.outcome` is the statement of a decision, with anything in the places
of its parameters.  The texts of the three methods scan to it
(`scans_markSucceeded`, `scans_scheduleRetry` and `scans_moveToDLQ` of both
repositories), and a database reads it as it is (`readUpdate_outcome`).
-/

namespace Outboxy

open Sql (Token UpdateStatement caseTokens inTokens updateTokens)

namespace Adapter

variable (a : Adapter) {π : Type}

def nowTokens : List (Token π) := [.word "NOW", .symbol '(', .symbol ')']

def retryCountTokens : List (Token π) := [.word "retry_count", .symbol '+', .word "1"]

/-- The expression of `delayText`. -/
def delayTokens (base multiplier : π) : List (Token π) :=
  match a with
  | .postgres =>
    nowTokens ++ .symbol '+' :: .symbol '(' :: .param base :: .symbol '*' :: .word "power" ::
      .symbol '(' :: .param multiplier :: .symbol ',' :: .word "retry_count" :: .symbol ')' ::
      .symbol ')' :: .symbol '*' :: .word "interval" :: [.quoted "1 millisecond"]
  | .mysql =>
    .word "DATE_ADD" :: .symbol '(' :: (nowTokens ++ .symbol ',' :: .word "INTERVAL" ::
      .word "CEIL" :: .symbol '(' :: .symbol '(' :: .param base :: .symbol '*' :: .word "POW" ::
      .symbol '(' :: .param multiplier :: .symbol ',' :: .word "retry_count" :: .symbol ')' ::
      .symbol ')' :: .symbol '/' :: .word "1000" :: .symbol ')' :: .word "SECOND" ::
      [.symbol ')'])

def retryLeftTokens : List (Token π) := [.word "retry_count", .symbol '<', .word "max_retries"]

/-- The statement of a decision, as it is written. -/
def outcome (decision : RetryDecision) (branches : List (π × π)) (ids : List π)
    (base multiplier : π) : UpdateStatement π :=
  match a, decision with
  | .postgres, .succeeded =>
    ⟨"outbox_events", [("status", [.quoted "succeeded"]), ("processed_at", nowTokens),
      ("updated_at", nowTokens), ("processed_by_worker", caseTokens "id" branches)],
      [inTokens "id" ids]⟩
  | .postgres, .retry =>
    ⟨"outbox_events", [("status", [.quoted "failed"]), ("retry_count", retryCountTokens),
      ("last_error", caseTokens "id" branches), ("updated_at", nowTokens),
      ("next_retry_at", delayTokens .postgres base multiplier)],
      [inTokens "id" ids, retryLeftTokens]⟩
  | .postgres, .dlq =>
    ⟨"outbox_events", [("status", [.quoted "dlq"]), ("last_error", caseTokens "id" branches),
      ("processed_at", nowTokens), ("updated_at", nowTokens)], [inTokens "id" ids]⟩
  | .mysql, .succeeded =>
    ⟨"outbox_events", [("status", [.quoted "succeeded"]), ("processed_at", nowTokens),
      ("processed_by_worker", caseTokens "id" branches), ("updated_at", nowTokens)],
      [inTokens "id" ids]⟩
  | .mysql, .retry =>
    ⟨"outbox_events", [("status", [.quoted "failed"]), ("retry_count", retryCountTokens),
      ("next_retry_at", delayTokens .mysql base multiplier),
      ("last_error", caseTokens "id" branches), ("processing_started_at", [.word "NULL"]),
      ("updated_at", nowTokens)], [inTokens "id" ids, retryLeftTokens]⟩
  | .mysql, .dlq =>
    ⟨"outbox_events", [("status", [.quoted "dlq"]), ("last_error", caseTokens "id" branches),
      ("updated_at", nowTokens)], [inTokens "id" ids]⟩

variable {a} {decision : RetryDecision} {branches : List (π × π)} {ids : List π}
  {base multiplier : π}

theorem map_outcome {ρ : Type} (f : π → ρ) :
    (a.outcome decision branches ids base multiplier).map f =
      a.outcome decision (branches.map (Prod.map f f)) (ids.map f) (f base) (f multiplier) := by
  cases a <;> cases decision <;>
    simp only [outcome, UpdateStatement.map, List.map_cons, List.map_nil, Prod.map,
      Sql.map_caseTokens, Sql.map_inTokens] <;>
    rfl

/-- A database reads the statement as it is written. -/
theorem readUpdate_outcome :
    Sql.readUpdate (updateTokens (a.outcome decision branches ids base multiplier)) =
      some (a.outcome decision branches ids base multiplier) := by
  have hcase : Sql.flat Token.isSeparator 0 (caseTokens "id" branches) = true :=
    Sql.flat_caseTokens rfl branches
  have hin : Sql.flat Token.isSeparator 0 (inTokens "id" ids) = true := Sql.flat_inTokens rfl ids
  have hnil : ∀ {α : Type} {P : α → Prop}, ∀ x ∈ ([] : List α), P x := nofun
  apply Sql.readUpdate_updateTokens
  · cases a <;> cases decision <;> exact List.cons_ne_nil _ _
  · cases a <;> cases decision <;> exact List.cons_ne_nil _ _
  · cases a <;> cases decision <;> simp only [outcome, List.forall_mem_cons]
    · exact ⟨rfl, rfl, rfl, hcase, hnil⟩
    · exact ⟨rfl, rfl, hcase, rfl, rfl, hnil⟩
    · exact ⟨rfl, hcase, rfl, rfl, hnil⟩
    · exact ⟨rfl, rfl, hcase, rfl, hnil⟩
    · exact ⟨rfl, rfl, rfl, hcase, rfl, rfl, hnil⟩
    · exact ⟨rfl, hcase, rfl, hnil⟩
  · cases a <;> cases decision <;> simp only [outcome, List.forall_mem_cons]
    · exact ⟨hin, hnil⟩
    · exact ⟨hin, rfl, hnil⟩
    · exact ⟨hin, hnil⟩
    · exact ⟨hin, hnil⟩
    · exact ⟨hin, rfl, hnil⟩
    · exact ⟨hin, hnil⟩

/-! ## The parameters in the order of the text -/

theorem values_outcome (hdecision : decision ≠ .retry) :
    Sql.values (updateTokens (a.outcome decision branches ids base multiplier)) =
      (branches.flatMap fun branch => [branch.1, branch.2]) ++ ids := by
  rw [Sql.values_updateTokens]
  cases decision with
  | retry => exact absurd rfl hdecision
  | succeeded | dlq =>
    cases a <;> simp [outcome, Sql.values_caseTokens, Sql.values_inTokens, nowTokens]

theorem values_retry_postgres :
    Sql.values (updateTokens (Adapter.postgres.outcome .retry branches ids base multiplier)) =
      (branches.flatMap fun branch => [branch.1, branch.2]) ++ ([base, multiplier] ++ ids) := by
  rw [Sql.values_updateTokens]
  simp [outcome, Sql.values_caseTokens, Sql.values_inTokens, nowTokens, retryCountTokens,
    delayTokens, retryLeftTokens]

theorem values_retry_mysql :
    Sql.values (updateTokens (Adapter.mysql.outcome .retry branches ids base multiplier)) =
      [base, multiplier] ++ ((branches.flatMap fun branch => [branch.1, branch.2]) ++ ids) := by
  rw [Sql.values_updateTokens]
  simp [outcome, Sql.values_caseTokens, Sql.values_inTokens, nowTokens, retryCountTokens,
    delayTokens, retryLeftTokens]

end Adapter

/-! ## The texts -/

open Sql (Marker Placeholder Scans run_ofList run_numbers scans_ofList scans_numbered scans_update
  scans_update_case delimited_ofList delimited_ofList_append)

namespace PgEventRepository

def idMarkers (n : Nat) : List Marker := (List.range n).map fun i => .numbered (i + 1)

def branchMarkers (n : Nat) : List (Marker × Marker) :=
  (List.range n).map fun i => (.numbered (i + 1), .numbered (n + i + 1))

theorem scans_placeholders (n : Nat) :
    Scans (placeholders n).toList
      ([.symbol ','].intercalate (((idMarkers n).map .param).map ([·]))) := by
  rw [placeholders, joinComma, String.toList_intercalate, idMarkers, List.map_map, List.map_map,
    List.map_map]
  refine Sql.scans_intercalate (run_ofList rfl) (by decide) (by decide) fun i _ => ?_
  have hdollar : Sql.run .between "$".toList = ([], .number 0) := run_ofList rfl
  rw [Function.comp_apply, String.toList_append]
  exact scans_numbered hdollar (i + 1)

theorem scans_branch (n i : Nat) :
    Scans (" WHEN $" ++ toString (i + 1) ++ (" THEN $" ++ toString (n + i + 1))).toList
      (Sql.branchTokens (.numbered (i + 1), .numbered (n + i + 1))) := by
  have hwhen : Sql.run .between " WHEN $".toList = ([.word "WHEN"], .number 0) := run_ofList rfl
  have hthen : Sql.run .between " THEN $".toList = ([.word "THEN"], .number 0) := run_ofList rfl
  rw [String.toList_append, String.toList_append, String.toList_append]
  exact (scans_numbered hwhen (i + 1)).append (scans_numbered hthen (n + i + 1)) rfl

theorem scans_caseStatement (n : Nat) :
    Scans (caseStatement n).toList (caseTokens "id" (branchMarkers n)) := by
  have hcase : Scans "CASE id".toList [.word "CASE", .word "id"] := scans_ofList rfl rfl
  have hbranches := Sql.scans_flatMap fun i (_ : i ∈ List.range n) =>
    ⟨scans_branch n i, (by rw [String.toList_append, String.toList_append]; rfl)⟩
  have hend : Scans " END".toList [.word "END"] := scans_ofList rfl rfl
  rw [caseStatement, String.toList_append, String.toList_append, String.toList_join,
    List.flatMap_map, caseTokens, branchMarkers, List.flatMap_map]
  exact (hcase.append hbranches.1 hbranches.2).append hend rfl

variable {base multiplier : Marker}

set_option maxRecDepth 2000 in
theorem scans_markSucceeded (results : List (EventId × String)) :
    Scans (markSucceededStatement results).sql.toList
      (updateTokens (Adapter.postgres.outcome .succeeded (branchMarkers results.length)
        (idMarkers results.length) base multiplier)) := by
  unfold markSucceededStatement
  repeat rw [String.toList_append]
  repeat rw [List.append_assoc]
  exact scans_update "outbox_events" "processed_by_worker" "id"
    [("status", [.quoted "succeeded"]), ("processed_at", Adapter.nowTokens),
      ("updated_at", Adapter.nowTokens)] [] []
    (run_ofList rfl) (scans_caseStatement _) (run_ofList rfl) (scans_placeholders _)
    (scans_ofList rfl rfl) (delimited_ofList_append rfl _) (delimited_ofList rfl)

set_option maxRecDepth 2000 in
theorem scans_scheduleRetry (eventIds : List EventId) (errorMessages : OrderedMap EventId String)
    (config : BackoffConfig) :
    Scans (scheduleRetryStatement eventIds errorMessages config).sql.toList
      (updateTokens (Adapter.postgres.outcome .retry (branchMarkers eventIds.length)
        (idMarkers eventIds.length) (.numbered (2 * eventIds.length + 1))
          (.numbered (2 * eventIds.length + 2)))) := by
  have hdelay : ∀ first second number third rest : List Char,
      first ++ ((toString (2 * eventIds.length + 1)).toList ++
          (second ++ (number ++ (third ++ rest)))) =
        first ++ ((toString (2 * eventIds.length + 1)).toList ++ (second ++ (number ++ third))) ++
          rest := by
    intro first second number third rest
    simp only [List.append_assoc]
  unfold scheduleRetryStatement
  repeat rw [String.toList_append]
  repeat rw [List.append_assoc]
  rw [hdelay]
  exact scans_update "outbox_events" "last_error" "id"
    [("status", [.quoted "failed"]), ("retry_count", Adapter.retryCountTokens)]
    [("updated_at", Adapter.nowTokens), ("next_retry_at", Adapter.delayTokens .postgres
      (.numbered (2 * eventIds.length + 1)) (.numbered (2 * eventIds.length + 2)))]
    [Adapter.retryLeftTokens] (run_ofList rfl) (scans_caseStatement _)
    (run_numbers
      ([.symbol ',', .word "updated_at", .symbol '='] ++ Adapter.nowTokens ++
        [.symbol ',', .word "next_retry_at", .symbol '='] ++ Adapter.nowTokens ++
        [.symbol '+', .symbol '('])
      [.symbol '*', .word "power", .symbol '(']
      [.symbol ',', .word "retry_count", .symbol ')', .symbol ')', .symbol '*', .word "interval",
        .quoted "1 millisecond", .word "WHERE", .word "id", .word "IN", .symbol '(']
      (run_ofList rfl) (fun _ => run_ofList rfl) (fun _ => run_ofList rfl) _ _)
    (scans_placeholders _) (scans_ofList rfl rfl)
    (by
      rw [List.append_assoc]
      exact delimited_ofList_append rfl _)
    (delimited_ofList rfl)

set_option maxRecDepth 2000 in
theorem scans_moveToDLQ (eventIds : List EventId) (errorMessages : OrderedMap EventId String) :
    Scans (moveToDLQStatement eventIds errorMessages).sql.toList
      (updateTokens (Adapter.postgres.outcome .dlq (branchMarkers eventIds.length)
        (idMarkers eventIds.length) base multiplier)) := by
  unfold moveToDLQStatement
  repeat rw [String.toList_append]
  repeat rw [List.append_assoc]
  exact scans_update "outbox_events" "last_error" "id" [("status", [.quoted "dlq"])]
    [("processed_at", Adapter.nowTokens), ("updated_at", Adapter.nowTokens)] []
    (run_ofList rfl) (scans_caseStatement _) (run_ofList rfl) (scans_placeholders _)
    (scans_ofList rfl rfl) (delimited_ofList_append rfl _) (delimited_ofList rfl)

end PgEventRepository

namespace MySQLEventRepository

theorem scans_placeholders (ids : List EventId) :
    Scans (placeholders ids).toList
      ([.symbol ','].intercalate (((ids.map fun _ => Marker.next).map .param).map ([·]))) := by
  rw [placeholders, String.toList_intercalate, List.map_map, List.map_map, List.map_map]
  exact Sql.scans_intercalate (run_ofList rfl) (by decide) (by decide) fun _ _ =>
    scans_ofList rfl rfl

def branchMarkers (ids : List EventId) : List (Marker × Marker) := ids.map fun _ => (.next, .next)

theorem scans_cases (ids : List EventId) :
    Scans (cases ids).toList ((branchMarkers ids).flatMap Sql.branchTokens) := by
  have hcases : Scans (" ".toList.intercalate (ids.map fun _ => "WHEN ? THEN ?".toList))
      ([].intercalate (ids.map fun _ => Sql.branchTokens (Marker.next, .next))) :=
    Sql.scans_intercalate (run_ofList rfl) (by decide) (by decide) fun _ _ => scans_ofList rfl rfl
  rw [cases, String.toList_intercalate, branchMarkers, List.map_map, List.flatMap_map,
    List.flatMap_def, ← Sql.intercalate_nil]
  exact hcases

variable {base multiplier : Marker}

set_option maxRecDepth 2000 in
theorem scans_markSucceeded (results : List (EventId × String)) :
    Scans (markSucceededStatement results).sql.toList
      (updateTokens (Adapter.mysql.outcome .succeeded (branchMarkers (results.map Prod.fst))
        ((results.map Prod.fst).map fun _ => .next) base multiplier)) := by
  unfold markSucceededStatement
  repeat rw [String.toList_append]
  repeat rw [List.append_assoc]
  exact scans_update_case "outbox_events" "processed_by_worker" "id"
    [("status", [.quoted "succeeded"]), ("processed_at", Adapter.nowTokens)]
    [("updated_at", Adapter.nowTokens)] []
    (run_ofList rfl) (scans_cases _) (run_ofList rfl) (scans_placeholders _)
    (scans_ofList rfl rfl) (delimited_ofList_append rfl _) (delimited_ofList rfl)

set_option maxRecDepth 2000 in
theorem scans_scheduleRetry (eventIds : List EventId) (errorMessages : OrderedMap EventId String)
    (config : BackoffConfig) :
    Scans (scheduleRetryStatement eventIds errorMessages config).sql.toList
      (updateTokens (Adapter.mysql.outcome .retry (branchMarkers eventIds)
        (eventIds.map fun _ => .next) .next .next)) := by
  unfold scheduleRetryStatement
  repeat rw [String.toList_append]
  repeat rw [List.append_assoc]
  exact scans_update_case "outbox_events" "last_error" "id"
    [("status", [.quoted "failed"]), ("retry_count", Adapter.retryCountTokens),
      ("next_retry_at", Adapter.delayTokens .mysql .next .next)]
    [("processing_started_at", [.word "NULL"]), ("updated_at", Adapter.nowTokens)]
    [Adapter.retryLeftTokens] (run_ofList rfl) (scans_cases _) (run_ofList rfl)
    (scans_placeholders _) (scans_ofList rfl rfl) (delimited_ofList_append rfl _)
    (delimited_ofList rfl)

set_option maxRecDepth 2000 in
theorem scans_moveToDLQ (eventIds : List EventId) (errorMessages : OrderedMap EventId String) :
    Scans (moveToDLQStatement eventIds errorMessages).sql.toList
      (updateTokens (Adapter.mysql.outcome .dlq (branchMarkers eventIds)
        (eventIds.map fun _ => .next) base multiplier)) := by
  unfold moveToDLQStatement
  repeat rw [String.toList_append]
  repeat rw [List.append_assoc]
  exact scans_update_case "outbox_events" "last_error" "id" [("status", [.quoted "dlq"])]
    [("updated_at", Adapter.nowTokens)] []
    (run_ofList rfl) (scans_cases _) (run_ofList rfl) (scans_placeholders _)
    (scans_ofList rfl rfl) (delimited_ofList_append rfl _) (delimited_ofList rfl)

end MySQLEventRepository

end Outboxy
