import Outboxy.Delivery.OutcomeParameters

/-!
# What the outcome statements mean

* `readUpdate_callStatement`: what a database reads in the statement of a call.
* `readUpdate_statement`: it is the update that the repository makes for the
  call, so `Adapter.statement` refines `Adapter.outcomeUpdate`.
-/

namespace Outboxy

open Sql (Token caseTokens inTokens updateTokens)

/-! ## Expressions -/

theorem Expression.reads_ofList {expression : Expression} {chars : List Char}
    (h : expression.map (Token.map fun _ => ()) =
      (Sql.tokens chars).map (Token.map fun _ => ())) :
    expression.reads (String.ofList chars) = true := by
  rw [Expression.reads, String.toList_ofList]
  exact decide_eq_true h

theorem reads_now : Expression.reads Adapter.nowTokens "NOW()" = true :=
  Expression.reads_ofList rfl

theorem reads_retryCount : Expression.reads Adapter.retryCountTokens "retry_count + 1" = true :=
  Expression.reads_ofList rfl

theorem reads_retryLeft :
    Expression.reads Adapter.retryLeftTokens "retry_count < max_retries" = true :=
  Expression.reads_ofList rfl

theorem reads_delay (a : Adapter) (base multiplier : BoundValue) :
    Expression.reads (a.delayTokens base multiplier) a.delayText = true := by
  cases a with
  | postgres => exact Expression.reads_ofList rfl
  | mysql => exact Expression.reads_ofList rfl

theorem readDelay_delayTokens (a : Adapter) (config : BackoffConfig) :
    a.readDelay (a.delayTokens (.number config.backoffBaseMs)
      (.number config.backoffMultiplier)) = some config := by
  rw [Adapter.readDelay, if_pos (reads_delay a _ _)]
  cases a <;> rfl

/-- A `CASE` finds the branch of an id. -/
theorem readCaseId_caseTokens (branches : List (EventId × String)) :
    readCaseId (caseTokens "id" (branches.map branchValues)) = some (caseId branches) := by
  rw [readCaseId, Sql.readCase_caseTokens]
  refine congrArg some (funext fun id => ?_)
  rw [caseId]
  induction branches with
  | nil => rfl
  | cons branch branches ih =>
    obtain ⟨key, text⟩ := branch
    have hkey : (BoundValue.text id == BoundValue.text key) = (id == key) := by
      by_cases h : id = key
      · subst h
        simp
      · simp [h]
    rw [List.map_cons, branchValues, Prod.map, List.lookup_cons, List.lookup_cons, hkey]
    cases id == key with
    | true => rfl
    | false => exact ih

/-! ## Assignments and conditions -/

section Columns

variable {a : Adapter} {now : Int}

theorem columnWrite_processedAt :
    a.columnWrite now "processed_at" Adapter.nowTokens = some (.processedAt (some now)) := by
  simp only [Adapter.columnWrite, readTime, reads_now, if_true, Option.map_some]

theorem columnWrite_updatedAt :
    a.columnWrite now "updated_at" Adapter.nowTokens = some (.updatedAt now) := by
  simp only [Adapter.columnWrite, reads_now, if_true]

theorem columnWrite_retryCount :
    a.columnWrite now "retry_count" Adapter.retryCountTokens = some .incrementRetryCount := by
  simp only [Adapter.columnWrite, reads_retryCount, if_true]

theorem columnWrite_nextRetryAt (config : BackoffConfig) :
    a.columnWrite now "next_retry_at" (a.delayTokens (.number config.backoffBaseMs)
        (.number config.backoffMultiplier)) =
      some (.nextRetryAt fun retryCount => now + a.delay config retryCount) := by
  show (a.readDelay _).map _ = _
  rw [readDelay_delayTokens]
  rfl

theorem columnWrite_lastError (branches : List (EventId × String)) :
    a.columnWrite now "last_error" (caseTokens "id" (branches.map branchValues)) =
      some (.lastError (caseId branches)) := by
  show (readCaseId _).map _ = _
  rw [readCaseId_caseTokens]
  rfl

theorem columnWrite_processedByWorker (branches : List (EventId × String)) :
    a.columnWrite now "processed_by_worker" (caseTokens "id" (branches.map branchValues)) =
      some (.processedByWorker (caseId branches)) := by
  show (readCaseId _).map _ = _
  rw [readCaseId_caseTokens]
  rfl

theorem readCondition_retryLeft :
    readCondition Adapter.retryLeftTokens =
      some fun row => decide ((row.retryCount : Int) < row.maxRetries) := by
  rw [readCondition, if_pos reads_retryLeft]

theorem readCondition_inTokens (ids : List EventId) :
    readCondition (inTokens "id" (texts ids)) = some (idIn ids) := by
  have hreads : Expression.reads (inTokens "id" (texts ids)) "retry_count < max_retries" =
      false := by
    refine decide_eq_false fun h => ?_
    have hhead : some (Token.word "id" : Token Unit) = some (.word "retry_count") :=
      congrArg List.head? h
    exact absurd hhead (by decide)
  have hmem : ∀ row : OutboxEvent, decide (BoundValue.text row.id ∈ texts ids) = idIn ids row := by
    intro row
    rw [idIn, texts]
    simp
  rw [readCondition, hreads, Sql.readIn_inTokens]
  exact congrArg some (funext hmem)

end Columns

/-! ## Updates -/

theorem mapM_eq_some {α β : Type} {f : α → Option β} {xs : List α} {ys : List β}
    (h : xs.map f = ys.map some) : xs.mapM f = some ys := by
  induction xs generalizing ys with
  | nil =>
    obtain rfl := List.map_eq_nil_iff.mp h.symm
    rfl
  | cons x xs ih =>
    cases ys with
    | nil => exact nomatch h
    | cons y ys =>
      obtain ⟨hx, hxs⟩ := List.cons.inj h
      rw [List.mapM_cons, hx, ih hxs]
      rfl

/-- The update of some assignments and conditions. -/
def Adapter.updateOf (a : Adapter) (writes : List ColumnWrite)
    (conditions : List (OutboxEvent → Bool)) : OutboxUpdate where
  guard row := conditions.all fun condition => condition row
  assign := a.assignColumns writes
  assign_pk := a.assignColumns_id writes

section Update

variable {a : Adapter} {now : Int} {call : RepositoryCall String} {u : OutboxUpdate}

/-- A database understands a statement when it understands its assignments and
its conditions. -/
theorem readUpdate_of_columns {writes : List ColumnWrite} {conditions : List (OutboxEvent → Bool)}
    {decision : RetryDecision} {branches : List (BoundValue × BoundValue)}
    {ids : List BoundValue} {base multiplier : BoundValue} {statement : BoundStatement}
    (hbound : Sql.bound statement.sql statement.params =
      some (updateTokens (a.outcome decision branches ids base multiplier)))
    (hwrites : ((a.outcome decision branches ids base multiplier).assignments.map fun assignment =>
      a.columnWrite now assignment.1 assignment.2) = writes.map some)
    (hconditions : (a.outcome decision branches ids base multiplier).conditions.map
      readCondition = conditions.map some) :
    a.readUpdate now statement = some (a.updateOf writes conditions) := by
  have htable : (a.outcome decision branches ids base multiplier).table = "outbox_events" := by
    cases a <;> cases decision <;> rfl
  rw [Adapter.readUpdate, hbound, Option.bind_eq_bind, Option.bind_some,
    Adapter.readUpdate_outcome, Option.bind_eq_bind, Option.bind_some, mapM_eq_some hwrites,
    Option.bind_eq_bind, Option.bind_some, mapM_eq_some hconditions, Option.bind_eq_bind,
    Option.bind_some, if_pos htable]
  rfl

theorem updateOf_eq {writes : List ColumnWrite} {conditions : List (OutboxEvent → Bool)}
    (hguard : ∀ row, (conditions.all fun condition => condition row) = u.guard row)
    (hassign : ∀ row, a.assignColumns writes row = u.assign row) :
    a.updateOf writes conditions = u := by
  obtain ⟨guard, assign, assign_pk⟩ := u
  obtain rfl : (fun row => conditions.all fun condition => condition row) = guard := funext hguard
  obtain rfl : a.assignColumns writes = assign := funext hassign
  rfl

/-- The columns that a call writes, in the order of its statement. -/
def Adapter.columnWrites (a : Adapter) (now : Int) (call : RepositoryCall String) :
    List ColumnWrite :=
  match a, call with
  | .postgres, .markSucceeded results =>
    [.status .succeeded, .processedAt (some now), .updatedAt now,
      .processedByWorker (caseId results)]
  | .postgres, .scheduleRetry eventIds errorMessages config =>
    [.status .failed, .incrementRetryCount,
      .lastError (caseId (PgEventRepository.errorCase eventIds errorMessages)), .updatedAt now,
      .nextRetryAt fun retryCount => now + PgEventRepository.backoffDelay config retryCount]
  | .postgres, .moveToDLQ eventIds errorMessages =>
    [.status .dlq, .lastError (caseId (PgEventRepository.errorCase eventIds errorMessages)),
      .processedAt (some now), .updatedAt now]
  | .mysql, .markSucceeded results =>
    [.status .succeeded, .processedAt (some now), .processedByWorker (caseId results),
      .updatedAt now]
  | .mysql, .scheduleRetry eventIds errorMessages config =>
    [.status .failed, .incrementRetryCount,
      .nextRetryAt fun retryCount => now + MySQLEventRepository.backoffDelay config retryCount,
      .lastError (caseId
        (MySQLEventRepository.errorCase "Unknown error" eventIds errorMessages)),
      .processingStartedAt none, .updatedAt now]
  | .mysql, .moveToDLQ eventIds errorMessages =>
    [.status .dlq,
      .lastError (caseId (MySQLEventRepository.errorCase "Moved to DLQ" eventIds errorMessages)),
      .updatedAt now]

theorem map_columnWrite (call : RepositoryCall String) {base multiplier : BoundValue}
    (hbase : ∀ number, call.numbers[0]? = some number → base = number)
    (hmultiplier : ∀ number, call.numbers[1]? = some number → multiplier = number) :
    ((a.outcome call.decision ((a.branches call).map branchValues) (texts call.ids) base
        multiplier).assignments.map fun assignment =>
      a.columnWrite now assignment.1 assignment.2) = (a.columnWrites now call).map some := by
  cases call with
  | markSucceeded results =>
    cases a <;>
      simp only [Adapter.outcome, Adapter.branches, RepositoryCall.decision, List.map_cons,
        List.map_nil, columnWrite_processedAt, columnWrite_updatedAt,
        columnWrite_processedByWorker] <;>
      rfl
  | scheduleRetry eventIds errorMessages config =>
    obtain rfl := hbase _ rfl
    obtain rfl := hmultiplier _ rfl
    cases a <;>
      simp only [Adapter.outcome, Adapter.branches, RepositoryCall.decision, List.map_cons,
        List.map_nil, columnWrite_retryCount, columnWrite_updatedAt, columnWrite_lastError,
        columnWrite_nextRetryAt] <;>
      rfl
  | moveToDLQ eventIds errorMessages =>
    cases a <;>
      simp only [Adapter.outcome, Adapter.branches, RepositoryCall.decision, List.map_cons,
        List.map_nil, columnWrite_processedAt, columnWrite_updatedAt, columnWrite_lastError] <;>
      rfl

/-- The conditions of a call. -/
def RepositoryCall.conditions (call : RepositoryCall String) : List (OutboxEvent → Bool) :=
  match call with
  | .scheduleRetry eventIds _ _ =>
    [idIn eventIds, fun row => decide ((row.retryCount : Int) < row.maxRetries)]
  | _ => [idIn call.ids]

theorem map_readCondition (call : RepositoryCall String)
    {branches : List (BoundValue × BoundValue)} {base multiplier : BoundValue} :
    (a.outcome call.decision branches (texts call.ids) base multiplier).conditions.map
      readCondition = call.conditions.map some := by
  have hids := readCondition_inTokens call.ids
  cases call with
  | markSucceeded results => cases a <;> exact congrArg ([·]) hids
  | scheduleRetry eventIds errorMessages config =>
    cases a <;> exact congrArg₂ ([·, ·]) hids readCondition_retryLeft
  | moveToDLQ eventIds errorMessages => cases a <;> exact congrArg ([·]) hids

/-- What a database reads in the statement of a call. -/
theorem readUpdate_callStatement (a : Adapter) (now : Int) (call : RepositoryCall String) :
    a.readUpdate now (a.callStatement call) =
      some (a.updateOf (a.columnWrites now call) call.conditions) := by
  refine readUpdate_of_columns (Adapter.bound_callStatement call)
    (map_columnWrite call (fun number h => ?_) fun number h => ?_) (map_readCondition call)
  · have hbase := Adapter.value_numberPosition (a := a) call h
    rwa [Nat.add_zero] at hbase
  · exact Adapter.value_numberPosition call h

/-- It is the update that the call stands for. -/
theorem updateOf_columnWrites (h : a.outcomeUpdate now call = some u) :
    a.updateOf (a.columnWrites now call) call.conditions = u := by
  cases a with
  | postgres =>
    cases call <;> obtain rfl := Option.some.inj h
    · exact updateOf_eq (fun _ => Bool.and_true _) fun _ => rfl
    · exact updateOf_eq (fun row => congrArg (idIn _ row && ·) (Bool.and_true _)) fun _ => rfl
    · exact updateOf_eq (fun _ => Bool.and_true _) fun _ => rfl
  | mysql =>
    cases call <;>
      obtain rfl := Option.some.inj (Option.ite_none_right_eq_some.mp h).2
    · exact updateOf_eq (fun _ => Bool.and_true _) fun _ => rfl
    · refine updateOf_eq (fun row => congrArg (idIn _ row && ·) (Bool.and_true _)) fun row => ?_
      simp only [Adapter.assignColumns, Adapter.columnWrites, List.foldl_cons, List.foldl_nil,
        ColumnWrite.status, ColumnWrite.incrementRetryCount, ColumnWrite.nextRetryAt,
        ColumnWrite.lastError, ColumnWrite.processingStartedAt, ColumnWrite.updatedAt]
    · exact updateOf_eq (fun _ => Bool.and_true _) fun _ => rfl

/-- The statement that is sent is that of the call, which then has an update. -/
theorem callStatement_of_statement {statement : BoundStatement}
    (h : a.statement call = some statement) :
    a.callStatement call = statement ∧ ∀ now, ∃ u, a.outcomeUpdate now call = some u := by
  obtain ⟨-, hsent⟩ := Option.ite_none_left_eq_some.mp h
  cases a with
  | postgres =>
    refine ⟨Option.some.inj hsent, fun now => ?_⟩
    cases call <;> exact ⟨_, rfl⟩
  | mysql =>
    obtain ⟨hvalid, hsent⟩ := Option.ite_none_right_eq_some.mp hsent
    refine ⟨Option.some.inj hsent, fun now => ?_⟩
    cases call <;> exact ⟨_, if_pos hvalid⟩

/-- A database reads in it the update of the repository. -/
theorem readUpdate_statement {statement : BoundStatement}
    (h : a.statement call = some statement) (now : Int) :
    a.readUpdate now statement = a.outcomeUpdate now call := by
  obtain ⟨hcall, hupdate⟩ := callStatement_of_statement h
  obtain ⟨u, hu⟩ := hupdate now
  rw [← hcall, readUpdate_callStatement, updateOf_columnWrites hu, hu]

end Update

end Outboxy
