import Outboxy.Api.AdminHandlers

/-!
# What the API answers to a replay

`sent_le_failures` bounds the replays that are answered with 200, in any order
of requests, workers and recoveries: the event can be reset once if it is
replayable at the start, and once more for each time that it fails.  Of any
number of requests that race for one event, one is answered with 200.

`Truthful` is about a single request.  With 200 its own `UPDATE` has reset the
event and nothing else; with 404 or 422 none of its statements has changed a
row, and what the answer says was so when the handler read the event.  That may
be after its `UPDATE` found nothing to reset, so a 422 can name a status that
can be replayed.  The event has then failed while the request was handled.
-/

namespace Outboxy

open Transition

variable {a : Adapter} {isProduction : Bool} {s s' : AdminApi a} {request : RequestId}
  {id : EventId}

/-! ## One answer for each failure -/

/-- The request has reset the event, and has not been told otherwise. -/
def ReplayRequest.hasReset (id : EventId) : ReplayRequest → Bool
  | .returning id' result => decide (id' = id) && result.isSome
  | .replied id' (.sent _) => decide (id' = id)
  | _ => false

/-- What is left to reset, and what the requests have reset, is paid for by
failures. -/
theorem resets_of_moves {action : ApiAction a} {requests : List RequestId} (inv : s.Coherent)
    (hnodup : requests.Nodup) (h : s.Moves isProduction action s') :
    requests.countP (fun r => (s'.requests r).hasReset id) + resetsLeft s'.outbox id +
        failuresOf id s.outbox.history ≤
      requests.countP (fun r => (s.requests r).hasReset id) + resetsLeft s.outbox id +
        failuresOf id s'.outbox.history := by
  -- The count goes up only with an `UPDATE` that finds the event replayable.
  have hsame : ∀ {request : RequestId} {phase : ReplayRequest} (act : Action) (outbox : State a),
      (phase.hasReset id = true → (s.requests request).hasReset id = true) →
      Outboxy.step s.outbox act = some outbox →
      requests.countP (fun r => (Function.update s.requests request phase r).hasReset id) +
          resetsLeft outbox id + failuresOf id s.outbox.history ≤
        requests.countP (fun r => (s.requests r).hasReset id) + resetsLeft s.outbox id +
          failuresOf id outbox.history := by
    intro request phase act outbox hphase hstep
    have hcount := countP_update_le_of_imp requests
      (f := s.requests) (i := request) (p := ReplayRequest.hasReset id) hphase
    have hpays := resetsLeft_step hstep id
    omega
  cases h with
  | @other _ outbox _ hstep =>
    have hpays := resetsLeft_step hstep id
    show requests.countP (fun r => (s.requests r).hasReset id) + resetsLeft outbox id + _ ≤
      _ + failuresOf id outbox.history
    omega
  | selected _ _ hstep _ _ _ => exact hsame _ _ (by simp [ReplayRequest.hasReset]) hstep
  | rejected _ _ hstep _ _ => exact hsame _ _ (by simp [ReplayRequest.hasReset]) hstep
  | @updateExecutes request t id' outbox hrequest hstep =>
    obtain ⟨-, previousStatus, htask, -⟩ := inv.updating request t id' hrequest
    rcases replayEventResult_cases htask with ⟨hreplayable, hresult⟩ | ⟨_, hresult⟩
    · by_cases hid : id' = id
      · subst hid
        have hcount := countP_update_le hnodup (f := s.requests) (i := request)
          (b := .returning id' (s.outbox.replayEventResult t)) (ReplayRequest.hasReset id')
        have hbefore := resetsLeft_of_replayable hreplayable
        have hafter := resetsLeft_of_not_replayable (not_replayable_of_replayUpdate hstep htask)
        have hfailures := failuresOf_of_replayUpdate hstep id'
        show requests.countP (fun r => (Function.update s.requests request _ r).hasReset id') +
          resetsLeft outbox id' + _ ≤ _ + failuresOf id' outbox.history
        omega
      · exact hsame _ _ (by simp [ReplayRequest.hasReset, hid]) hstep
    · exact hsame _ _ (by simp [ReplayRequest.hasReset, hresult]) hstep
  | @returned request id' result hrequest =>
    refine hsame (.tick 0) s.outbox (fun hreset => ?_) ?_
    · cases result with
      | none => simp [ReplayRequest.hasReset, replayEventHandler] at hreset
      | some result => simpa [ReplayRequest.hasReset, replayEventHandler, hrequest] using hreset
    · simp [Outboxy.step]
  | throws _ =>
    refine hsame (.tick 0) s.outbox (by simp [ReplayRequest.hasReset]) ?_
    simp [Outboxy.step]

/-- The requests that are answered with 200 in a run. -/
theorem sent_le_failures (requests : List RequestId) {acts : List (ApiAction a)}
    (hs : (adminApi a isProduction).Reachable s)
    (hrun : (adminApi a isProduction).run s acts = some s') (hnodup : requests.Nodup)
    (hnew : ∀ r ∈ requests, (s.requests r).hasReset id = false)
    (hsent : ∀ r ∈ requests, ∃ result, s'.requests r = .replied id (.sent result)) :
    requests.length + failuresOf id s.outbox.history ≤
      resetsLeft s.outbox id + failuresOf id s'.outbox.history := by
  have hpaid := System.run_add_le
    (f := fun u => requests.countP (fun r => (u.requests r).hasReset id) + resetsLeft u.outbox id)
    (g := fun u => failuresOf id u.outbox.history) (fun u action u' htakes =>
      resets_of_moves (coherent_of_reachable (hs.takesStep htakes)) hnodup
        (AdminApi.moves_of_step htakes.step_eq)) hrun
  have hstart : requests.countP (fun r => (s.requests r).hasReset id) = 0 :=
    List.countP_eq_zero.mpr fun r hr => by simp [hnew r hr]
  have hend : requests.countP (fun r => (s'.requests r).hasReset id) = requests.length := by
    refine List.countP_eq_length.mpr fun r hr => ?_
    obtain ⟨result, hreplied⟩ := hsent r hr
    simp [hreplied, ReplayRequest.hasReset]
  simp only [hstart, hend] at hpaid
  omega

namespace Sample

/-- A worker fails to deliver an event. -/
def failedDelivery : List (ApiAction .postgres) :=
  [.other (.publish Sample.id (values 5)), .other (.claim 0 worker [Sample.id]),
    .other (.publishBatch 0 (answers [(Sample.id, false)])), .other (.write 0 0)]

/-- Two requests race for the event, and the second one wins. -/
def race : List (ApiAction .postgres) :=
  [.received "first" 1 Sample.id, .received "second" 2 Sample.id, .updateExecutes "second",
    .updateExecutes "first", .returned "second"]

end Sample

/-- One request resets the event, which has failed once. -/
theorem sent_le_failures_race :
    ∃ s s', (adminApi .postgres false).run (.initial 0) Sample.failedDelivery = some s ∧
      (adminApi .postgres false).run s Sample.race = some s' ∧
      (∃ result, s'.requests "second" = .replied Sample.id (.sent result)) ∧
      1 + failuresOf Sample.id s.outbox.history ≤
        resetsLeft s.outbox Sample.id + failuresOf Sample.id s'.outbox.history := by
  obtain ⟨s, s', result, hfailed, hrace, hnew, hsent⟩ : ∃ s s' result,
      (adminApi .postgres false).run (.initial 0) Sample.failedDelivery = some s ∧
        (adminApi .postgres false).run s Sample.race = some s' ∧
        s.requests "second" = .idle ∧
        s'.requests "second" = .replied Sample.id (.sent result) :=
    ⟨_, _, _, rfl, rfl, rfl, rfl⟩
  refine ⟨s, s', hfailed, hrace, ⟨result, hsent⟩,
    sent_le_failures ["second"] (.run (.init ⟨0, rfl⟩) hfailed) hrace (by simp)
      ?_ ?_⟩
  · simp [hnew, ReplayRequest.hasReset]
  · simpa using ⟨result, hsent⟩

/-! ## One request -/

/-- The `UPDATE` of the request has reset the event and nothing else. -/
def ResetBy (isProduction : Bool) (s : AdminApi a) (acts : List (ApiAction a))
    (request : RequestId) (id : EventId) (result : ReplayEventResult) : Prop :=
  ∃ u u' previousStatus,
    (adminApi a isProduction).TakesStep s acts u (.updateExecutes request) u' ∧
      ReplaysExactly u.outbox u'.outbox [id] (fun row =>
        (row.status = .failed ∨ row.status = .dlq) ∧ row.deletedAt = none) ∧
      replayableStatus previousStatus = true ∧
      result = ⟨id, previousStatus, .pending, u.outbox.clock⟩

/-- What an answer says about the run `acts` from `s` to `s'`. -/
structure Answered (isProduction : Bool) (s : AdminApi a) (acts : List (ApiAction a))
    (s' : AdminApi a) (request : RequestId) (id : EventId) (reply : ReplayReply) : Prop where
  sent : reply.status = 200 → ∃ result, reply = .sent result ∧
    ResetBy isProduction s acts request id result
  notFound : reply.status = 404 → ∃ u u',
    (adminApi a isProduction).TakesStep s acts u (.returned request) u' ∧
      getEventById u.outbox.table id = none ∧
      reply = .failed (errorHandler isProduction request (.notFound ("Event not found: " ++ id)))
  /-- The answer names the status of the event.  That is one that can be
  replayed only if the event has failed in the run. -/
  invalidState : reply.status = 422 → ∃ u u' event,
    (adminApi a isProduction).TakesStep s acts u (.returned request) u' ∧
      getEventById u.outbox.table id = some event ∧
      reply = .failed (errorHandler isProduction request (.invalidState
        ("Cannot replay event in '" ++ event.status.name ++
          "' status. Only 'failed' or 'dlq' events can be replayed."))) ∧
      (replayableStatus event.status = true →
        failuresOf id s.outbox.history < failuresOf id s'.outbox.history)

/-- The answer to a request says what its handler has done and found in the
run. -/
structure Truthful (isProduction : Bool) (s : AdminApi a) (acts : List (ApiAction a))
    (s' : AdminApi a) (request : RequestId) (id : EventId) (reply : ReplayReply) : Prop
    extends Answered isProduction s acts s' request id reply where
  /-- With 404 or 422 no statement of the request has changed a row. -/
  unchanged : reply.status = 404 ∨ reply.status = 422 → ∀ u action u',
    (adminApi a isProduction).TakesStep s acts u action u' → action.request? = some request →
      ∀ id', u'.outbox.table.lookup id' = u.outbox.table.lookup id'

/-- An error of the database has a status of its own. -/
theorem status_thrown {ε : Type} (isProduction : Bool) (requestId : String)
    (error : DatabaseError ε) :
    (errorHandler isProduction requestId error.thrown).status ∈ [400, 409, 500] := by
  unfold DatabaseError.thrown
  cases error.name with
  | ConstraintViolationError =>
    rw [status_constraintViolation]
    split <;> simp
  | _ => simp [errorHandler]

namespace AdminApi

/-! ### What the other steps leave -/

theorem outbox_of_moves {action : ApiAction a} (h : s.Moves isProduction action s') :
    s'.outbox = s.outbox ∨ ∃ act, Outboxy.step s.outbox act = some s'.outbox := by
  cases h with
  | other _ hstep => exact .inr ⟨_, hstep⟩
  | selected _ _ hstep _ _ _ => exact .inr ⟨_, hstep⟩
  | rejected _ _ hstep _ _ => exact .inr ⟨_, hstep⟩
  | updateExecutes _ hstep => exact .inr ⟨.replayUpdate _, hstep⟩
  | returned | throws => exact .inl rfl

theorem requests_of_moves {action : ApiAction a} (h : s.Moves isProduction action s')
    (hother : action.request? ≠ some request) : s'.requests request = s.requests request := by
  have hne : ∀ {request' : RequestId}, action.request? = some request' → request ≠ request' :=
    fun haction heq => hother (heq ▸ haction)
  cases h with
  | other => rfl
  | _ => exact Function.update_of_ne (hne rfl) ..

theorem failuresOf_of_moves {action : ApiAction a} (h : s.Moves isProduction action s')
    (id : EventId) : failuresOf id s.outbox.history ≤ failuresOf id s'.outbox.history := by
  rcases outbox_of_moves h with hsame | ⟨_, hstep⟩
  · rw [hsame]
  · exact failuresOf_mono hstep

/-- An event that is replayable again has failed. -/
theorem failed_of_moves {action : ApiAction a} {count : Nat} (h : s.Moves isProduction action s')
    (hcount : count ≤ failuresOf id s.outbox.history)
    (hs : Replayable s.outbox id → count < failuresOf id s.outbox.history)
    (hs' : Replayable s'.outbox id) : count < failuresOf id s'.outbox.history := by
  by_cases hbefore : Replayable s.outbox id
  · exact Nat.lt_of_lt_of_le (hs hbefore) (failuresOf_of_moves h id)
  · rcases outbox_of_moves h with hsame | ⟨_, hstep⟩
    · exact absurd (hsame ▸ hs') hbefore
    · exact Nat.lt_of_le_of_lt hcount (replayable_step hstep hbefore hs')

/-! ### Refusals change nothing -/

/-- The request will not be answered with 404 or 422. -/
def NotRefused : ReplayRequest → Prop
  | .returning _ (some _) => True
  | .replied _ reply => reply.status ≠ 404 ∧ reply.status ≠ 422
  | _ => False

theorem notRefused_of_moves {action : ApiAction a} (h : s.Moves isProduction action s')
    (hs : NotRefused (s.requests request)) : NotRefused (s'.requests request) := by
  by_cases hmine : action.request? = some request
  · cases h with
    | other => cases hmine
    | selected hidle | rejected hidle =>
      obtain rfl := Option.some.inj hmine
      rw [hidle] at hs
      exact hs.elim
    | updateExecutes hrequest =>
      obtain rfl := Option.some.inj hmine
      rw [hrequest] at hs
      exact hs.elim
    | @returned _ _ result hrequest =>
      obtain rfl := Option.some.inj hmine
      rw [hrequest] at hs
      cases result with
      | none => exact hs.elim
      | some result =>
        rw [setRequest_requests_self]
        simp [NotRefused, replayEventHandler, ReplayReply.status]
    | @throws request _ error _ _ =>
      obtain rfl := Option.some.inj hmine
      have hstatus := status_thrown isProduction request (a.mapError error)
      rw [setRequest_requests_self]
      constructor <;> intro heq <;> simp only [ReplayReply.status] at heq <;>
        simp [heq] at hstatus
  · rwa [requests_of_moves h hmine]

/-- A step of the request that changes a row answers 200, or with an error of
the database. -/
theorem unchanged_of_moves {action : ApiAction a} (inv : s.Coherent)
    (h : s.Moves isProduction action s') (hmine : action.request? = some request) :
    NotRefused (s'.requests request) ∨
      ∀ id', s'.outbox.table.lookup id' = s.outbox.table.lookup id' := by
  cases h with
  | other => cases hmine
  | selected _ _ _ htable | rejected _ _ _ htable =>
    refine .inr fun id' => ?_
    rw [← htable]
    rfl
  | @updateExecutes _ t id outbox hrequest hstep =>
    obtain rfl := Option.some.inj hmine
    have hexactly := replaysExactly_of_replayUpdate hstep
    obtain ⟨-, _, htask, -⟩ := inv.updating _ _ _ hrequest
    rcases replayEventResult_cases htask with ⟨_, hresult⟩ | ⟨_, hresult⟩
    · refine .inl ?_
      rw [setRequest_requests_self, hresult]
      trivial
    · refine .inr fun id' => hexactly.others id' ?_
      simp [hresult]
  | returned | throws => exact .inr fun _ => rfl

/-! ### The answers -/

/-- How a run from `s` explains where the handler of the request is. -/
def Explained (isProduction : Bool) (s : AdminApi a) (acts : List (ApiAction a))
    (request : RequestId) (u : AdminApi a) : ReplayRequest → Prop
  | .returning id (some result) => ResetBy isProduction s acts request id result
  | .returning id none => Replayable u.outbox id →
    failuresOf id s.outbox.history < failuresOf id u.outbox.history
  | .replied id reply => Answered isProduction s acts u request id reply
  | _ => True

variable {acts : List (ApiAction a)} {u u' : AdminApi a}

/-- What explains the phase of a request still does after a step. -/
theorem explained_mono {action : ApiAction a} {phase : ReplayRequest}
    (h : u.Moves isProduction action u')
    (hcount : ∀ id, failuresOf id s.outbox.history ≤ failuresOf id u.outbox.history)
    (hphase : Explained isProduction s acts request u phase) :
    Explained isProduction s acts request u' phase := by
  cases phase with
  | returning id result =>
    cases result with
    | none => exact failed_of_moves h (hcount id) hphase
    | some result => exact hphase
  | replied id reply =>
    refine ⟨hphase.sent, hphase.notFound, fun hstatus => ?_⟩
    obtain ⟨v, v', event, htakes, hread, hreply, hfailed⟩ := hphase.invalidState hstatus
    exact ⟨v, v', event, htakes, hread, hreply, fun hevent =>
      Nat.lt_of_lt_of_le (hfailed hevent) (failuresOf_of_moves h id)⟩
  | idle | updating => trivial

theorem replayable_of_getEventById {event : OutboxEvent}
    (hread : getEventById u.outbox.table id = some event)
    (hstatus : replayableStatus event.status = true) : Replayable u.outbox id := by
  obtain ⟨hrow, hdeleted⟩ := Option.filter_eq_some_iff.mp hread
  refine ⟨event, hrow, ?_⟩
  simp [replayGuard, Table.pk_of_lookup hrow, hstatus, of_decide_eq_true hdeleted]

/-- The handler has not replayed anything, and says why. -/
theorem answered_refused
    (htakes : (adminApi a isProduction).TakesStep s acts u (.returned request) u')
    (hsame : u'.outbox = u.outbox)
    (hfailed : Replayable u.outbox id →
      failuresOf id s.outbox.history < failuresOf id u.outbox.history) :
    Answered isProduction s acts u' request id (.failed (errorHandler isProduction request
      (replayRefused id (getEventById u.outbox.table id)))) := by
  cases hread : getEventById u.outbox.table id with
  | none =>
    refine ⟨fun hstatus => ?_, fun _ => ⟨u, u', htakes, hread, rfl⟩, fun hstatus => ?_⟩ <;>
      simp [ReplayReply.status, replayRefused, errorHandler] at hstatus
  | some event =>
    refine ⟨fun hstatus => ?_, fun hstatus => ?_,
      fun _ => ⟨u, u', event, htakes, hread, rfl, fun hevent => ?_⟩⟩
    · simp [ReplayReply.status, replayRefused, errorHandler] at hstatus
    · simp [ReplayReply.status, replayRefused, errorHandler] at hstatus
    · rw [hsame]
      exact hfailed (replayable_of_getEventById hread hevent)

/-- A step of the run explains where it leaves the handler. -/
theorem explained_of_step {action : ApiAction a} (inv : u.Coherent)
    (htakes : (adminApi a isProduction).TakesStep s acts u action u')
    (hcount : ∀ id, failuresOf id s.outbox.history ≤ failuresOf id u.outbox.history)
    (hu : Explained isProduction s acts request u (u.requests request)) :
    Explained isProduction s acts request u' (u'.requests request) := by
  have hmoves := moves_of_step htakes.step_eq
  by_cases hmine : action.request? = some request
  case neg =>
    rw [requests_of_moves hmoves hmine]
    exact explained_mono hmoves hcount hu
  cases hmoves with
  | other => cases hmine
  | selected =>
    obtain rfl := Option.some.inj hmine
    rw [setRequest_requests_self]
    trivial
  | rejected _ _ _ htable hnot =>
    obtain rfl := Option.some.inj hmine
    rw [setRequest_requests_self]
    intro hreplayable
    refine absurd ?_ hnot
    unfold Replayable
    rwa [← htable]
  | updateExecutes hrequest hstep =>
    obtain rfl := Option.some.inj hmine
    obtain ⟨-, previousStatus, htask, hstatus⟩ := inv.updating _ _ _ hrequest
    rw [setRequest_requests_self]
    have hexactly := replaysExactly_of_replayUpdate hstep
    rcases replayEventResult_cases htask with ⟨_, hresult⟩ | ⟨_, hresult⟩
    · rw [hresult] at hexactly ⊢
      exact ⟨u, _, previousStatus, htakes, hexactly, hstatus, rfl⟩
    · rw [hresult]
      exact fun hreplayable =>
        absurd hreplayable (not_replayable_of_replayUpdate hstep htask)
  | @returned _ id result hrequest =>
    obtain rfl := Option.some.inj hmine
    rw [hrequest] at hu
    rw [setRequest_requests_self]
    cases result with
    | none => exact answered_refused htakes rfl hu
    | some result =>
      refine ⟨fun _ => ⟨result, rfl, hu⟩, fun hstatus => ?_, fun hstatus => ?_⟩ <;>
        simp [ReplayReply.status, replayEventHandler] at hstatus
  | @throws request _ error =>
    obtain rfl := Option.some.inj hmine
    have herror := status_thrown isProduction request (a.mapError error)
    rw [setRequest_requests_self]
    refine ⟨fun hstatus => ?_, fun hstatus => ?_, fun hstatus => ?_⟩ <;>
      simp only [ReplayReply.status] at hstatus <;> simp [hstatus] at herror

end AdminApi

/-- Every answer is true. -/
theorem truthful_of_run {acts : List (ApiAction a)} {reply : ReplayReply}
    (hs : (adminApi a isProduction).Reachable s)
    (hrun : (adminApi a isProduction).run s acts = some s')
    (hidle : s.requests request = .idle) (hreplied : s'.requests request = .replied id reply) :
    Truthful isProduction s acts s' request id reply := by
  have hexplained : (∀ id, failuresOf id s.outbox.history ≤ failuresOf id s'.outbox.history) ∧
      AdminApi.Explained isProduction s acts request s' (s'.requests request) := by
    refine System.run_keeps (P := fun u =>
      (∀ id, failuresOf id s.outbox.history ≤ failuresOf id u.outbox.history) ∧
        AdminApi.Explained isProduction s acts request u (u.requests request))
      (fun u action u' htakes hu => ?_) hrun ⟨fun _ => Nat.le_refl _, by rw [hidle]; trivial⟩
    have inv := coherent_of_reachable (hs.takesStep htakes)
    refine ⟨fun id => Nat.le_trans (hu.1 id) ?_, AdminApi.explained_of_step inv htakes hu.1 hu.2⟩
    exact AdminApi.failuresOf_of_moves (AdminApi.moves_of_step htakes.step_eq) id
  rw [hreplied] at hexplained
  refine ⟨hexplained.2, fun hstatus u action u' htakes hmine => ?_⟩
  have hmoves := AdminApi.moves_of_step htakes.step_eq
  refine (AdminApi.unchanged_of_moves (coherent_of_reachable (hs.takesStep htakes)) hmoves
    hmine).resolve_left fun hnot => ?_
  obtain ⟨pre, post, rfl, hpre, hstep⟩ := htakes
  have hrest : (adminApi a isProduction).run u' post = some s' := by
    rw [System.run_append, hpre, Option.bind_some, System.run_cons, hstep] at hrun
    exact hrun
  have hend : AdminApi.NotRefused (s'.requests request) :=
    System.run_keeps (P := fun v => AdminApi.NotRefused (v.requests request))
      (fun v action v' hv => AdminApi.notRefused_of_moves (AdminApi.moves_of_step hv.step_eq))
      hrest hnot
  rw [hreplied] at hend
  exact hstatus.elim hend.1 hend.2

/-- The first request loses the race, and the event fails again before its
handler reads it. -/
def Sample.failsAgain : List (ApiAction .postgres) :=
  Sample.race ++ [.other (.claim 3 worker [Sample.id]),
    .other (.publishBatch 3 (answers [(Sample.id, false)])), .other (.write 3 0), .returned "first"]

/-- The first request is told that a `failed` event cannot be replayed. -/
theorem truthful_of_run_failsAgain :
    ∃ s s', (adminApi .postgres false).run (.initial 0) Sample.failedDelivery = some s ∧
      (adminApi .postgres false).run s Sample.failsAgain = some s' ∧
      Truthful false s Sample.failsAgain s' "first" Sample.id (.failed (errorHandler false "first"
        (.invalidState ("Cannot replay event in 'failed' status. " ++
          "Only 'failed' or 'dlq' events can be replayed.")))) := by
  obtain ⟨s, s', hfailed, hrun, hidle, hreplied⟩ : ∃ s s',
      (adminApi .postgres false).run (.initial 0) Sample.failedDelivery = some s ∧
        (adminApi .postgres false).run s Sample.failsAgain = some s' ∧
        s.requests "first" = .idle ∧
        s'.requests "first" = .replied Sample.id (.failed (errorHandler false "first"
          (.invalidState ("Cannot replay event in 'failed' status. " ++
            "Only 'failed' or 'dlq' events can be replayed.")))) :=
    ⟨_, _, rfl, rfl, rfl, rfl⟩
  exact ⟨s, s', hfailed, hrun, truthful_of_run (.run (.init ⟨0, rfl⟩) hfailed) hrun hidle hreplied⟩

end Outboxy
