import Outboxy.Chain.Effects
import Outboxy.Delivery.Outcome
import Outboxy.HistoryStep

/-!
# From one service to the next

The outbox of one service delivers to a consumer that follows the atomic
chain, with the id of the outbox event as the key of the received one.  The
workers may deliver an event any number of times: a request can be late or
lost, the worker can crash before it writes the outcome, and its events can be
recovered and replayed.  What the publisher is known to do is that it reports
success for an event only when the consumer has answered a delivery of it with
success.

`effects_of_succeeded` is the result for both services together: an event that
the outbox calls `succeeded` has taken effect at the consumer exactly once,
as long as its key is not cleaned up.
-/

namespace Outboxy.Chain

open Inbox (TransactionId)

/-! ## The system -/

/-- The publisher returned a result for the event that says `success`. -/
def reportsSuccess (outcome : PublishOutcome) (id : EventId) : Bool :=
  match outcome with
  | .returned results => (results.get? id).any PublishResult.success
  | .threw _ => false

theorem reportsSuccess_iff {outcome : PublishOutcome} {id : EventId} :
    reportsSuccess outcome id = true ↔ PublishSucceeded outcome id := by
  unfold reportsSuccess PublishSucceeded
  cases outcome with
  | threw error => simp
  | returned results => simp [Option.any_eq_true]

/-- The receiving service.  The key of an event that it receives is the id of
the outbox event. -/
structure Subscriber where
  consumer : Consumer
  receives : OutboxEvent → InboxReceiveEventInput
  key : ∀ row, (receives row).idempotencyKey = row.id

structure Services (a : Adapter) where
  upstream : Outboxy.State a
  downstream : State

inductive Services.Action where
  /-- The outbox, its workers, maintenance and API. -/
  | upstream (action : Outboxy.Action)
  /-- A request for an event that was claimed at some time arrives. -/
  | deliver (tx : TransactionId) (id : EventId)
  /-- The handlers of the consumer go on, and whatever else works on its
  tables. -/
  | downstream (action : Chain.Action)

namespace Services

variable {a : Adapter}

/-- The publisher answers for a batch.  It may report success for the events
of which a delivery was answered with success, and not for others. -/
def answeredFor (s : Services a) (t : TaskId) (outcome : PublishOutcome) : Bool :=
  match s.upstream.tasks t with
  | .claimed _ events =>
    events.all fun event =>
      !reportsSuccess outcome event.id || decide (event.id ∈ s.downstream.answered)
  | _ => true

def step (subscriber : Subscriber) (s : Services a) : Services.Action → Option (Services a)
  | .upstream (.publishBatch t outcome) =>
    if s.answeredFor t outcome then
      (s.upstream.publishBatch t outcome).map fun upstream => { s with upstream := upstream }
    else none
  | .upstream action =>
    (Outboxy.step s.upstream action).map fun upstream => { s with upstream := upstream }
  | .deliver tx id =>
    if s.upstream.history.any (HistoryEntry.claims id) then
      (s.upstream.table.lookup id).bind fun row =>
        (s.downstream.begin tx (subscriber.receives row)).map fun downstream =>
          { s with downstream := downstream }
    else none
  -- Events reach the consumer by a delivery only.
  | .downstream (.begin _ _) => none
  | .downstream action =>
    (Chain.step subscriber.consumer s.downstream action).map fun downstream =>
      { s with downstream := downstream }

end Services

/-- Both services, from empty tables. -/
def services (a : Adapter) (subscriber : Subscriber) :
    Transition.System (Services a) Services.Action where
  init s := ∃ clock clock', s = ⟨Outboxy.State.initial clock, State.initial clock'⟩
  step := Services.step subscriber

variable {a : Adapter} {subscriber : Subscriber} {s s' : Services a}

/-- A step is one of the upstream service, a delivery or one of the consumer. -/
theorem services_cases {act : Services.Action} (h : Services.step subscriber s act = some s') :
    (s'.downstream = s.downstream ∧ ∃ action, Outboxy.step s.upstream action = some s'.upstream ∧
        ∀ t outcome, action = .publishBatch t outcome → s.answeredFor t outcome = true) ∨
      (s'.upstream = s.upstream ∧ ∃ action, Chain.step subscriber.consumer s.downstream action =
          some s'.downstream ∧ ∀ tx event, action = .begin tx event →
            s.upstream.history.any (HistoryEntry.claims event.idempotencyKey) = true) := by
  unfold Services.step at h
  split at h
  · rename_i t outcome
    split at h
    · rename_i hanswered
      obtain ⟨upstream, hupstream, rfl⟩ := Option.map_eq_some_iff.mp h
      refine Or.inl ⟨rfl, .publishBatch t outcome, hupstream, fun t' outcome' heq => ?_⟩
      obtain ⟨rfl, rfl⟩ := Outboxy.Action.publishBatch.inj heq
      exact hanswered
    · exact absurd h (by simp)
  · rename_i action hnot
    obtain ⟨upstream, hupstream, rfl⟩ := Option.map_eq_some_iff.mp h
    exact Or.inl ⟨rfl, action, hupstream, fun t outcome heq => absurd heq (hnot t outcome)⟩
  · rename_i tx id
    split at h
    · rename_i hclaimed
      obtain ⟨row, hrow, h⟩ := Option.bind_eq_some_iff.mp h
      obtain ⟨downstream, hdownstream, rfl⟩ := Option.map_eq_some_iff.mp h
      refine Or.inr ⟨rfl, .begin tx (subscriber.receives row), hdownstream, fun tx' event heq => ?_⟩
      obtain ⟨_, rfl⟩ := Chain.Action.begin.inj heq
      rw [subscriber.key, show row.id = id from Table.pk_of_lookup hrow]
      exact hclaimed
    · exact absurd h (by simp)
  · exact absurd h (by simp)
  · rename_i action hnot
    obtain ⟨downstream, hdownstream, rfl⟩ := Option.map_eq_some_iff.mp h
    exact Or.inr ⟨rfl, action, hdownstream, fun tx event heq => absurd heq (hnot tx event)⟩

/-! ## The parts -/

theorem reachable_upstream (hs : (services a subscriber).Reachable s) :
    (outbox a).Reachable s.upstream := by
  refine hs.induct (P := fun s => (outbox a).Reachable s.upstream) (fun s hinit => ?_)
    fun s act s' _ ih _ (hstep : Services.step subscriber s act = some s') => ?_
  · obtain ⟨clock, _, rfl⟩ := hinit
    exact reachable_initial a clock
  · rcases services_cases hstep with ⟨_, action, hupstream, _⟩ | ⟨hsame, _⟩
    · exact .step ih trivial hupstream
    · rw [hsame]
      exact ih

theorem reachable_downstream (hs : (services a subscriber).Reachable s) :
    (chain subscriber.consumer).Reachable s.downstream := by
  refine hs.induct (P := fun s => (chain subscriber.consumer).Reachable s.downstream)
    (fun s hinit => ?_) fun s act s' _ ih _ (hstep : Services.step subscriber s act = some s') => ?_
  · obtain ⟨_, clock, rfl⟩ := hinit
    exact .init ⟨clock, rfl⟩
  · rcases services_cases hstep with ⟨hsame, _⟩ | ⟨_, action, hdownstream, _⟩
    · rw [hsame]
      exact ih
    · exact .step ih trivial hdownstream

/-- Only a publish attempt of the worker is recorded as one. -/
theorem published_of_step {s s' : Outboxy.State a} {act : Outboxy.Action}
    (h : Outboxy.step s act = some s') {t : TaskId} {worker : OutboxWorker}
    {events : List OutboxEvent} {outcome : PublishOutcome}
    (hnew : .published t worker events outcome ∈ s'.history)
    (hold : .published t worker events outcome ∉ s.history) :
    act = .publishBatch t outcome ∧ s.tasks t = .claimed worker events := by
  cases records_of_mem h hnew hold with
  | published _ _ _ _ hact htask => exact ⟨hact, htask⟩

/-! ## The invariant -/

/-- A worker has claimed the event. -/
def WasClaimed (s : Services a) (id : EventId) : Prop :=
  s.upstream.history.any (HistoryEntry.claims id) = true

structure ServicesInv (s : Services a) : Prop where
  answered : ∀ t worker events outcome,
    .published t worker events outcome ∈ s.upstream.history → ∀ event ∈ events,
      PublishSucceeded outcome event.id → event.id ∈ s.downstream.answered
  handlers : ∀ tx handler, s.downstream.handlers tx = some handler →
    WasClaimed s handler.event.idempotencyKey
  committed : ∀ event published, .committed event published ∈ s.downstream.history →
    WasClaimed s event.idempotencyKey

theorem servicesInv_upstream {action : Outboxy.Action} (hinv : ServicesInv s)
    (hsame : s'.downstream = s.downstream)
    (hupstream : Outboxy.step s.upstream action = some s'.upstream)
    (hanswered : ∀ t outcome, action = .publishBatch t outcome → s.answeredFor t outcome = true) :
    ServicesInv s' := by
  have hclaimed : ∀ id, WasClaimed s id → WasClaimed s' id := by
    intro id h
    unfold WasClaimed at h ⊢
    obtain ⟨entry, hentry, hclaims⟩ := List.any_eq_true.mp h
    exact List.any_eq_true.mpr ⟨entry, history_subset_step hupstream hentry, hclaims⟩
  refine ⟨fun t worker events outcome hpublished event hevent hsucceeded => ?_,
    fun tx handler hhandler => hclaimed _ (hinv.handlers tx handler (hsame ▸ hhandler)),
    fun event published hmem => hclaimed _ (hinv.committed event published (hsame ▸ hmem))⟩
  rw [hsame]
  by_cases hold : .published t worker events outcome ∈ s.upstream.history
  · exact hinv.answered t worker events outcome hold event hevent hsucceeded
  · obtain ⟨rfl, htask⟩ := published_of_step hupstream hpublished hold
    have hguard := hanswered t outcome rfl
    unfold Services.answeredFor at hguard
    rw [htask] at hguard
    have hevent' := List.all_eq_true.mp hguard event hevent
    rw [reportsSuccess_iff.mpr hsucceeded] at hevent'
    simpa using hevent'

/-- What was answered stays answered. -/
theorem answered_subset_of_change {consumer : Consumer} {s s' : State} {action : Action}
    (h : Change consumer s action s') : s.answered ⊆ s'.answered := by
  cases h with
  | answered => exact List.subset_cons_self _ _
  | committed => exact List.subset_cons_self _ _
  | _ => exact List.Subset.refl _

/-- A handler keeps its event, and commits it. -/
theorem events_of_change {consumer : Consumer} {s s' : State} {action : Action}
    {P : InboxReceiveEventInput → Prop} (h : Change consumer s action s')
    (hbegin : ∀ tx event, action = .begin tx event → P event)
    (hhandlers : ∀ tx handler, s.handlers tx = some handler → P handler.event)
    (hcommitted : ∀ event published, .committed event published ∈ s.history → P event) :
    (∀ tx handler, s'.handlers tx = some handler → P handler.event) ∧
      ∀ event published, .committed event published ∈ s'.history → P event := by
  have hset : ∀ tx event phase, P event → ∀ tx' handler,
      Function.update s.handlers tx (some ⟨event, phase⟩) tx' = some handler → P handler.event := by
    intro tx event phase hP tx' handler hhandler
    rcases Transition.update_eq_cases hhandler with ⟨_, heq⟩ | ⟨_, heq⟩
    · obtain rfl := Option.some.inj heq
      exact hP
    · exact hhandlers tx' handler heq
  have hclose : ∀ tx tx' handler, Function.update s.handlers tx none tx' = some handler →
      P handler.event := by
    intro tx tx' handler hhandler
    rcases Transition.update_eq_cases hhandler with ⟨_, heq⟩ | ⟨_, heq⟩
    · exact absurd heq (by simp)
    · exact hhandlers tx' handler heq
  have hentry : ∀ entry, (∀ event published, entry = .committed event published → P event) →
      ∀ event published, .committed event published ∈ entry :: s.history → P event := by
    intro entry hnew event published hmem
    rcases List.mem_cons.mp hmem with heq | hold
    · exact hnew event published heq.symm
    · exact hcommitted event published hold
  cases h with
  | ticked => exact ⟨hhandlers, hcommitted⟩
  | began tx event _ _ => exact ⟨hset tx event _ (hbegin tx event rfl), hcommitted⟩
  | received tx id event inbox hhandler =>
    exact ⟨hset tx event _ (hhandlers tx _ hhandler), hcommitted⟩
  | published tx id event input rest t values ht hhandler =>
    exact ⟨hset tx event _ (hhandlers tx _ hhandler), hcommitted⟩
  | refused tx id event rest hhandler =>
    exact ⟨hset tx event _ (hhandlers tx _ hhandler), hcommitted⟩
  | answered tx event inbox => exact ⟨hclose tx, hcommitted⟩
  | committed tx event inbox outbox hhandler =>
    refine ⟨hclose tx, hentry _ fun event' published heq => ?_⟩
    obtain ⟨rfl, _⟩ := Entry.committed.inj heq
    exact hhandlers tx _ hhandler
  | rolledBack tx => exact ⟨hclose tx, hcommitted⟩
  | cleaned => exact ⟨hhandlers, hentry _ fun _ _ heq => absurd heq (by simp)⟩
  | outbox => exact ⟨hhandlers, hentry _ fun _ _ heq => absurd heq (by simp)⟩

theorem servicesInv_downstream {action : Action} (hinv : ServicesInv s)
    (hsame : s'.upstream = s.upstream)
    (hdownstream : Chain.step subscriber.consumer s.downstream action = some s'.downstream)
    (hbegin : ∀ tx event, action = .begin tx event →
      s.upstream.history.any (HistoryEntry.claims event.idempotencyKey) = true) :
    ServicesInv s' := by
  have hchange := change_of_step hdownstream
  have hclaimed : ∀ id, WasClaimed s id → WasClaimed s' id := by
    intro id h
    unfold WasClaimed at h ⊢
    rwa [hsame]
  obtain ⟨hhandlers, hcommitted⟩ := events_of_change hchange hbegin hinv.handlers hinv.committed
  refine ⟨?_, fun tx handler hhandler => hclaimed _ (hhandlers tx handler hhandler),
    fun event published hmem => hclaimed _ (hcommitted event published hmem)⟩
  rw [hsame]
  intro t worker events outcome hpublished event hevent hsucceeded
  exact answered_subset_of_change hchange
    (hinv.answered t worker events outcome hpublished event hevent hsucceeded)

theorem reachable_servicesInv (hs : (services a subscriber).Reachable s) : ServicesInv s := by
  refine hs.induct (fun s hinit => ?_)
    fun s act s' _ hinv _ (hstep : Services.step subscriber s act = some s') => ?_
  · obtain ⟨clock, clock', rfl⟩ := hinit
    exact ⟨by simp [Outboxy.State.initial], by simp [State.initial], by simp [State.initial]⟩
  · rcases services_cases hstep with ⟨hsame, action, hupstream, hanswered⟩ |
      ⟨hsame, action, hdownstream, hbegin⟩
    · exact servicesInv_upstream hinv hsame hupstream hanswered
    · exact servicesInv_downstream hinv hsame hdownstream hbegin

/-! ## Both together -/

/-- What the two services make of one event of the outbox. -/
structure DeliversOnce (s : Services a) (row : OutboxEvent) : Prop where
  succeeded : row.status = .succeeded → TookEffect s.downstream row.id
  atMostOnce : effectsSince row.id s.downstream.history ≤ 1
  once : Uncleaned row.id s.downstream.history → row.status = .succeeded →
    s.downstream.history.countP (Entry.takesEffect row.id) = 1

/-- In every reachable state of the two services, an event that the outbox
calls `succeeded` has taken effect at the consumer, and exactly once if its key
was never cleaned up.  Only events that a worker has claimed take effect. -/
theorem effects_of_succeeded (hs : (services a subscriber).Reachable s) :
    (∀ row ∈ s.upstream.table.rows, DeliversOnce s row) ∧
      ∀ event published, .committed event published ∈ s.downstream.history →
        WasClaimed s event.idempotencyKey := by
  have hinv := reachable_servicesInv hs
  have hinbox := reachable_inboxInv (reachable_downstream hs)
  refine ⟨fun row hrow => ?_, hinv.committed⟩
  have hatMost : effectsSince row.id s.downstream.history ≤ 1 := by
    rw [hinbox.effects]
    exact Bool.toNat_le _
  have heffect : row.status = .succeeded → TookEffect s.downstream row.id := by
    intro hstatus
    obtain ⟨t, worker, events, outcome, hpublished, ⟨event, hevent, hid⟩, hsucceeded⟩ :=
      (backed_of_reachable (reachable_upstream hs) row hrow).1 hstatus
    rw [← hid] at hsucceeded
    have hanswered := hinv.answered t worker events outcome hpublished event hevent hsucceeded
    rw [← hid]
    exact hinbox.answered _ hanswered
  exact ⟨heffect, hatMost, fun huncleaned hstatus =>
    countP_takesEffect huncleaned (heffect hstatus) hatMost⟩

namespace Sample

open Outboxy.Sample (id otherId values worker answers received)

def orderSubscriber : Subscriber where
  consumer := orders
  receives row := received row.id
  key _ := rfl

/-- The event is delivered twice before the worker hears of a success. -/
def deliveredTwice : List Services.Action :=
  [.upstream (.publish id (values 5)), .upstream (.claim 0 worker [id]), .deliver 0 id,
    .downstream (.receive 0 otherId), .downstream (.publish 0 otherId), .downstream (.commit 0),
    .deliver 1 id, .downstream (.receive 1 id), .downstream (.commit 1),
    .upstream (.publishBatch 0 (answers [(id, true)])), .upstream (.write 0 0)]

end Sample

/-- An event that is delivered twice takes effect once. -/
theorem effects_of_succeeded_twice :
    ∃ (s : Services .postgres) (row : OutboxEvent), row ∈ s.upstream.table.rows ∧
      row.status = .succeeded ∧ s.downstream.answered = [row.id, row.id] ∧ DeliversOnce s row := by
  have hrun : ((services .postgres Sample.orderSubscriber).run
      ⟨Outboxy.State.initial 0, State.initial 0⟩ Sample.deliveredTwice).any
        (fun s => decide (s.upstream.status Outboxy.Sample.id = some .succeeded ∧
          s.downstream.answered = [Outboxy.Sample.id, Outboxy.Sample.id])) = true := by
    decide +kernel
  obtain ⟨s, hs, hstatus⟩ := (Option.any_eq_true _ _).mp hrun
  obtain ⟨hstatus, hanswered⟩ := of_decide_eq_true hstatus
  obtain ⟨row, hrow, hsucceeded⟩ := State.status_eq_some.mp hstatus
  have hmem := Table.mem_of_lookup hrow
  have hid : row.id = Outboxy.Sample.id := Table.pk_of_lookup hrow
  have hinit : (services .postgres Sample.orderSubscriber).Reachable
      ⟨Outboxy.State.initial 0, State.initial 0⟩ := .init ⟨0, 0, rfl⟩
  exact ⟨s, row, hmem, hsucceeded, hid ▸ hanswered,
    (effects_of_succeeded (hinit.run hs)).1 row hmem⟩

end Outboxy.Chain
