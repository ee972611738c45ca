import Outboxy.Steps

/-!
# What a step records

`Records` lists the entries that a step can add to the history, with the call
that each of them is about.  `history_step` says that a step adds one of them
or nothing.
-/

namespace Outboxy

variable {a : Adapter} {s s' : State a}

/-- The step from `s` to `s'` records the entry. -/
inductive Records (s : State a) (act : Action) (s' : State a) : HistoryEntry → Prop
  | inserted (id : EventId) (hact : act.task? = none) : Records s act s' (.inserted id)
  /-- PostgreSQL claims. -/
  | claimed (t : TaskId) (worker : OutboxWorker) (ids : List EventId)
      (hact : act = .claim t worker ids) (htask : s.tasks t = .idle)
      (hselection : a.ClaimSelection s.table s.locked s.now worker.config.batchSize ids)
      (htask' : s'.tasks t = .claimed worker (ids.filterMap s'.table.lookup)) :
      Records s act s' (.claimed t ids)
  /-- The claim of MySQL commits. -/
  | committed (t : TaskId) (worker : OutboxWorker) (ids : List EventId) (startedAt : Int)
      (hact : act = .claimCommit t) (htask : s.tasks t = .claimUpdated worker ids startedAt)
      (htask' : s'.tasks t = .claimCommitted worker ids) : Records s act s' (.claimed t ids)
  | published (t : TaskId) (worker : OutboxWorker) (events : List OutboxEvent)
      (outcome : PublishOutcome) (hact : act = .publishBatch t outcome)
      (htask : s.tasks t = .claimed worker events) :
      Records s act s' (.published t worker events outcome)
  | wrote (t : TaskId) (index : Nat) (call : RepositoryCall) (hact : act = .write t index) :
      Records s act s' (.wrote t call)
  | recovered (t : TaskId) (affected : List EventId)
      (hact : act = .recoverUpdate t ∨ ∃ thresholdMs, act = .recover t thresholdMs) :
      Records s act s' (.recovered affected)
  | replayed (t : TaskId) (affected : List EventId) (result : Option ReplayEventResult)
      (hact : act = .replayUpdate t) : Records s act s' (.replayed affected result)
  | rangeReplayed (t : TaskId) (input : ReplayRangeInput) (affected : List EventId)
      (result : ReplayRangeResult) (hact : act = .rangeUpdate t) :
      Records s act s' (.rangeReplayed input affected result)

/-- A step adds at most one entry to the history. -/
theorem history_step {act : Action} (h : step s act = some s') :
    s'.history = s.history ∨
      ∃ entry, s'.history = entry :: s.history ∧ Records s act s' entry := by
  cases act with
  | tick micros =>
    obtain rfl := Option.some.inj h
    exact .inl rfl
  | publish id values =>
    rcases publish_cases h with ⟨_, ⟨_, _, _, _, _, rfl⟩ | ⟨_, _, rfl⟩⟩
    · exact .inl rfl
    · exact .inr ⟨_, rfl, .inserted id rfl⟩
  | createEvent id input =>
    obtain ⟨_, _, _, rfl⟩ := createEvent_cases h
    exact .inr ⟨_, rfl, .inserted id rfl⟩
  | softDelete id =>
    obtain ⟨_, _, _, _, _, _, rfl⟩ := softDelete_cases h
    exact .inl rfl
  | cleanupStaleIdempotencyKeys retentionDays =>
    obtain ⟨_, _, _, rfl⟩ := execute_cases h
    exact .inl rfl
  | claim t worker ids =>
    rcases claim_cases h with
      ⟨htask, hselection, ⟨_, rfl⟩ | ⟨_, _, table, _, rfl⟩ | ⟨_, _, rfl⟩⟩
    · exact .inl rfl
    · exact .inr ⟨_, rfl, .claimed t worker ids rfl htask hselection (State.setTask_tasks_self ..)⟩
    · exact .inl rfl
  | claimUpdate t =>
    obtain ⟨_, _, _, rfl⟩ := claimUpdate_cases h
    exact .inl rfl
  | claimCommit t =>
    obtain ⟨worker, ids, startedAt, _, htask, _, rfl⟩ := claimCommit_cases h
    exact .inr ⟨_, rfl, .committed t worker ids startedAt rfl htask (State.setTask_tasks_self ..)⟩
  | claimReselect t =>
    obtain ⟨_, _, _, rfl⟩ := claimReselect_cases h
    exact .inl rfl
  | publishBatch t outcome =>
    obtain ⟨worker, events, htask, hs'⟩ := publishBatch_cases h
    refine .inr ⟨.published t worker events outcome, ?_,
      .published t worker events outcome rfl htask⟩
    rcases hs' with ⟨_, _, rfl⟩ | ⟨_, rfl⟩ <;> rfl
  | write t index =>
    obtain ⟨_, _, _, _, call, _, _, _, _, _, _, _, rfl⟩ := write_cases h
    exact .inr ⟨_, rfl, .wrote t index call rfl⟩
  | writeFails t index =>
    obtain ⟨_, _, _, _, _, rfl⟩ := writeFails_cases h
    exact .inl rfl
  | crash t =>
    obtain rfl := Option.some.inj h
    exact .inl rfl
  | recover t thresholdMs =>
    rcases recover_cases h with ⟨_, ⟨_, _, _, _, rfl⟩ | ⟨_, rfl | rfl⟩⟩
    · exact .inr ⟨_, rfl, .recovered t _ (.inr ⟨thresholdMs, rfl⟩)⟩
    · exact .inl rfl
    · exact .inl rfl
  | recoverUpdate t =>
    obtain ⟨_, _, _, _, _, _, _, _, rfl⟩ := recoverUpdate_cases h
    exact .inr ⟨_, rfl, .recovered t _ (.inl rfl)⟩
  | replaySelect t id =>
    rcases replaySelect_cases h with ⟨_, rfl | ⟨_, _, rfl⟩⟩ <;> exact .inl rfl
  | replayUpdate t =>
    obtain ⟨_, _, _, _, _, _, rfl⟩ := replayUpdate_cases h
    exact .inr ⟨_, rfl, .replayed t _ _ rfl⟩
  | rangeSelect t input ids =>
    rcases rangeSelect_cases h with ⟨_, _, rfl | rfl⟩ <;> exact .inl rfl
  | rangeUpdate t =>
    obtain ⟨_, _, _, _, _, _, rfl⟩ := rangeUpdate_cases h
    exact .inr ⟨_, rfl, .rangeReplayed t _ _ _ rfl⟩

/-- An entry that is new is what the step records. -/
theorem records_of_mem {act : Action} {entry : HistoryEntry} (h : step s act = some s')
    (hnew : entry ∈ s'.history) (hold : entry ∉ s.history) : Records s act s' entry := by
  rcases history_step h with hsame | ⟨entry', hhistory, hrecords⟩
  · exact absurd (hsame ▸ hnew) hold
  · rw [hhistory] at hnew
    exact (List.mem_cons.mp hnew).resolve_right hold ▸ hrecords

end Outboxy
