import Outboxy.Api.ErrorHandler
import Outboxy.Delivery.Replayable
import Outboxy.Sdk.Statements

/-!
# Replays through the API

`replayEventHandler` calls `replayEvent`.  If that returns `null`, the handler
reads the event once more to say why.  Between its statements anything can
happen on the outbox, such as other requests for the same event.  A statement
that is answered with an error may have had its effect, may have it later or
never has it.

`AdminApi` is an outbox with any number of requests that work on it.  `Moves`
lists what an action does, and `Coherent` says that an `UPDATE` that a handler
awaits has yet to execute.
-/

namespace Outboxy

open Transition

/-! ## The handler -/

/-- `getEventById` -/
def getEventById {a : Adapter} (table : OutboxTable a) (id : EventId) : Option OutboxEvent :=
  (table.lookup id).filter fun row => decide (row.deletedAt = none)

/-- What the client gets. -/
inductive ReplayReply where
  /-- `reply.send` -/
  | sent (result : ReplayEventResult)
  /-- What `errorHandler` makes of a thrown error. -/
  | failed (reply : Reply)

def ReplayReply.status : ReplayReply → Nat
  | .sent _ => 200
  | .failed reply => reply.status

/-- What the handler throws if nothing was replayed, by the event that it then
reads. -/
def replayRefused (id : EventId) : Option OutboxEvent → ApiError
  | none => .notFound ("Event not found: " ++ id)
  | some event =>
    .invalidState ("Cannot replay event in '" ++ event.status.name ++
      "' status. Only 'failed' or 'dlq' events can be replayed.")

/-- `replayEventHandler`, by the answers to its two calls.  The second one is
made only without a result. -/
def replayEventHandler (isProduction : Bool) (requestId : String) (id : EventId)
    (result : Option ReplayEventResult) (event : Option OutboxEvent) : ReplayReply :=
  match result with
  | some result => .sent result
  | none => .failed (errorHandler isProduction requestId (replayRefused id event))

/-! ## The requests -/

abbrev RequestId := String

/-- A request for a replay, by what its handler awaits. -/
inductive ReplayRequest where
  | idle
  /-- The `UPDATE` of `replayEvent`. -/
  | updating (task : TaskId) (id : EventId)
  /-- The answer of `replayEvent`, whose statements have executed. -/
  | returning (id : EventId) (result : Option ReplayEventResult)
  | replied (id : EventId) (reply : ReplayReply)

/-- The outbox, and the requests that the API servers have got. -/
structure AdminApi (a : Adapter) where
  outbox : State a
  requests : RequestId → ReplayRequest
  /-- The calls of `replayEvent` that only their handlers move on. -/
  owned : List TaskId

inductive ApiAction (a : Adapter) where
  /-- Anybody else does something on the outbox. -/
  | other (action : Action)
  /-- A request comes in, and the `SELECT` of `replayEvent` executes. -/
  | received (request : RequestId) (task : TaskId) (id : EventId)
  /-- The `UPDATE` of `replayEvent` executes. -/
  | updateExecutes (request : RequestId)
  /-- `replayEvent` returns, `getEventById` does if it is called, and the
  handler is done. -/
  | returned (request : RequestId)
  /-- A statement is answered with an error. -/
  | throws (request : RequestId) (error : Thrown a.DriverError)

/-- The request that an action is a step of. -/
def ApiAction.request? {a : Adapter} : ApiAction a → Option RequestId
  | .other _ => none
  | .received request _ _ => some request
  | .updateExecutes request => some request
  | .returned request => some request
  | .throws request _ => some request

namespace AdminApi

variable {a : Adapter}

def initial (clock : Int) : AdminApi a where
  outbox := .initial clock
  requests := fun _ => .idle
  owned := []

def setRequest (s : AdminApi a) (request : RequestId) (phase : ReplayRequest) : AdminApi a :=
  { s with requests := Function.update s.requests request phase }

def received (s : AdminApi a) (request : RequestId) (t : TaskId) (id : EventId) :
    Option (AdminApi a) :=
  match s.requests request with
  | .idle =>
    if t ∈ s.owned then none
    else (s.outbox.replaySelect t id).map fun outbox =>
      ({ s with outbox := outbox, owned := t :: s.owned } : AdminApi a).setRequest request
        (match outbox.tasks t with
        | .replaySelected _ _ => .updating t id
        | _ => .returning id none)
  | _ => none

def updateExecutes (s : AdminApi a) (request : RequestId) : Option (AdminApi a) :=
  match s.requests request with
  | .updating t id => (s.outbox.replayUpdate t).map fun outbox =>
      ({ s with outbox := outbox } : AdminApi a).setRequest request
        (.returning id (s.outbox.replayEventResult t))
  | _ => none

def returned (isProduction : Bool) (s : AdminApi a) (request : RequestId) : Option (AdminApi a) :=
  match s.requests request with
  | .returning id result =>
    some (s.setRequest request (.replied id (replayEventHandler isProduction request id result
      (getEventById s.outbox.table id))))
  | _ => none

/-- The adapter maps the error, and the handler throws it on.  An `UPDATE` that
the database still has is nobody's then. -/
def throws (isProduction : Bool) (s : AdminApi a) (request : RequestId)
    (error : Thrown a.DriverError) : Option (AdminApi a) :=
  let reply := .failed (errorHandler isProduction request (a.mapError error).thrown)
  match s.requests request with
  | .updating t id =>
    some (({ s with owned := s.owned.filter fun t' => decide (t' ≠ t) } : AdminApi a).setRequest
      request (.replied id reply))
  | .returning id _ => some (s.setRequest request (.replied id reply))
  | _ => none

def step (isProduction : Bool) (s : AdminApi a) : ApiAction a → Option (AdminApi a)
  | .other action =>
    if action.task?.any fun t => decide (t ∈ s.owned) then none
    else (Outboxy.step s.outbox action).map fun outbox => { s with outbox := outbox }
  | .received request t id => s.received request t id
  | .updateExecutes request => s.updateExecutes request
  | .returned request => s.returned isProduction request
  | .throws request error => s.throws isProduction request error

end AdminApi

/-- The runs of an outbox with API servers. -/
def adminApi (a : Adapter) (isProduction : Bool) : System (AdminApi a) (ApiAction a) where
  init s := ∃ clock, s = .initial clock
  step := AdminApi.step isProduction

/-! ## What an action does -/

namespace AdminApi

variable {a : Adapter} {isProduction : Bool} {s s' : AdminApi a}

@[simp] theorem setRequest_requests_self (s : AdminApi a) (request : RequestId)
    (phase : ReplayRequest) : (s.setRequest request phase).requests request = phase :=
  Function.update_self ..

/-- The enabled actions, with the state each of them leads to. -/
inductive Moves (isProduction : Bool) (s : AdminApi a) : ApiAction a → AdminApi a → Prop where
  | other {action : Action} {outbox : State a} (hothers : ∀ t ∈ s.owned, action.task? ≠ some t)
    (hstep : Outboxy.step s.outbox action = some outbox) :
    Moves isProduction s (.other action) { s with outbox := outbox }
  /-- The `SELECT` goes on to the `UPDATE`. -/
  | selected {request : RequestId} {t : TaskId} {id : EventId} {outbox : State a}
    {previousStatus : EventStatus} (hidle : s.requests request = .idle) (hnew : t ∉ s.owned)
    (hstep : Outboxy.step s.outbox (.replaySelect t id) = some outbox)
    (htable : outbox.table = s.outbox.table)
    (htask : outbox.tasks t = .replaySelected id previousStatus)
    (hreplayable : replayableStatus previousStatus = true) :
    Moves isProduction s (.received request t id)
      (({ s with outbox := outbox, owned := t :: s.owned } : AdminApi a).setRequest request
        (.updating t id))
  /-- The `SELECT` finds nothing to replay. -/
  | rejected {request : RequestId} {t : TaskId} {id : EventId} {outbox : State a}
    (hidle : s.requests request = .idle) (hnew : t ∉ s.owned)
    (hstep : Outboxy.step s.outbox (.replaySelect t id) = some outbox)
    (htable : outbox.table = s.outbox.table) (hnot : ¬ Replayable s.outbox id) :
    Moves isProduction s (.received request t id)
      (({ s with outbox := outbox, owned := t :: s.owned } : AdminApi a).setRequest request
        (.returning id none))
  | updateExecutes {request : RequestId} {t : TaskId} {id : EventId} {outbox : State a}
    (hrequest : s.requests request = .updating t id)
    (hstep : Outboxy.step s.outbox (.replayUpdate t) = some outbox) :
    Moves isProduction s (.updateExecutes request)
      (({ s with outbox := outbox } : AdminApi a).setRequest request
        (.returning id (s.outbox.replayEventResult t)))
  | returned {request : RequestId} {id : EventId} {result : Option ReplayEventResult}
    (hrequest : s.requests request = .returning id result) :
    Moves isProduction s (.returned request)
      (s.setRequest request (.replied id (replayEventHandler isProduction request id result
        (getEventById s.outbox.table id))))
  | throws {request : RequestId} {id : EventId} {error : Thrown a.DriverError}
    {owned : List TaskId}
    (hrequest : (∃ t, s.requests request = .updating t id ∧
        owned = s.owned.filter fun t' => decide (t' ≠ t)) ∨
      ((∃ result, s.requests request = .returning id result) ∧ owned = s.owned)) :
    Moves isProduction s (.throws request error)
      (({ s with owned := owned } : AdminApi a).setRequest request (.replied id
        (.failed (errorHandler isProduction request (a.mapError error).thrown))))

theorem moves_of_step {action : ApiAction a} (h : s.step isProduction action = some s') :
    s.Moves isProduction action s' := by
  cases action with
  | other action =>
    simp only [step] at h
    split at h
    · cases h
    · rename_i hothers
      obtain ⟨outbox, hstep, rfl⟩ := Option.map_eq_some_iff.mp h
      refine .other (fun t ht hact => hothers ?_) hstep
      simp [hact, ht]
  | received request t id =>
    simp only [step, received] at h
    split at h
    · rename_i hidle
      split at h
      · cases h
      · rename_i hnew
        obtain ⟨outbox, hstep, rfl⟩ := Option.map_eq_some_iff.mp h
        obtain ⟨htable, ⟨previousStatus, htask, hreplayable⟩ | ⟨htask, hnot⟩⟩ :=
          tasks_of_replaySelect hstep
        · simpa only [htask] using .selected hidle hnew hstep htable htask hreplayable
        · simpa only [htask] using .rejected hidle hnew hstep htable hnot
    · cases h
  | updateExecutes request =>
    simp only [step, updateExecutes] at h
    split at h
    · rename_i hrequest
      obtain ⟨outbox, hstep, rfl⟩ := Option.map_eq_some_iff.mp h
      exact .updateExecutes hrequest hstep
    · cases h
  | returned request =>
    simp only [step, returned] at h
    split at h
    · rename_i hrequest
      obtain rfl := Option.some.inj h
      exact .returned hrequest
    · cases h
  | throws request error =>
    simp only [step, throws] at h
    split at h
    · rename_i t id hrequest
      obtain rfl := Option.some.inj h
      exact .throws (.inl ⟨t, hrequest, rfl⟩)
    · rename_i id result hrequest
      obtain rfl := Option.some.inj h
      exact .throws (.inr ⟨⟨result, hrequest⟩, rfl⟩)
    · cases h

/-! ## The open calls -/

/-- The `UPDATE` that a handler awaits is the next statement of its call, and
no other handler awaits it. -/
structure Coherent (s : AdminApi a) : Prop where
  updating : ∀ request t id, s.requests request = .updating t id → t ∈ s.owned ∧
    ∃ previousStatus, s.outbox.tasks t = .replaySelected id previousStatus ∧
      replayableStatus previousStatus = true
  distinct : ∀ request request' t id id', s.requests request = .updating t id →
    s.requests request' = .updating t id' → request = request'

/-- A request moves on to something other than an `UPDATE`, and the open calls
of the others stay as they are. -/
theorem Coherent.move {outbox : State a} {owned : List TaskId} {request : RequestId}
    {phase : ReplayRequest} (inv : Coherent s) (hphase : ∀ t id, phase ≠ .updating t id)
    (hothers : ∀ request' t id, request' ≠ request → s.requests request' = .updating t id →
      t ∈ owned ∧ outbox.tasks t = s.outbox.tasks t) :
    Coherent (({ s with outbox := outbox, owned := owned } : AdminApi a).setRequest request
      phase) := by
  have hrequest : ∀ request' t id, Function.update s.requests request phase request' =
      .updating t id → request' ≠ request ∧ s.requests request' = .updating t id := by
    intro request' t id h
    rcases update_eq_cases h with ⟨_, heq⟩ | hother
    · exact absurd heq (hphase t id)
    · exact hother
  constructor
  · intro request' t id h
    obtain ⟨hne, h⟩ := hrequest request' t id h
    obtain ⟨howned, htask⟩ := hothers request' t id hne h
    show t ∈ owned ∧ ∃ _, outbox.tasks t = _ ∧ _
    rw [htask]
    exact ⟨howned, (inv.updating request' t id h).2⟩
  · intro request₁ request₂ t id₁ id₂ h₁ h₂
    exact inv.distinct request₁ request₂ t id₁ id₂ (hrequest _ _ _ h₁).2 (hrequest _ _ _ h₂).2

theorem coherent_of_moves {action : ApiAction a} (inv : Coherent s)
    (h : s.Moves isProduction action s') : Coherent s' := by
  cases h with
  | other hothers hstep =>
    refine ⟨fun request t id hrequest => ?_, inv.distinct⟩
    obtain ⟨howned, htask⟩ := inv.updating request t id hrequest
    show t ∈ s.owned ∧ _
    rw [(frame_step hstep).tasks t (hothers t howned)]
    exact ⟨howned, htask⟩
  | @selected request t id outbox previousStatus hidle hnew hstep _ htask hreplayable =>
    have hothers : ∀ request' t' id', s.requests request' = .updating t' id' →
        t' ∈ s.owned ∧ t' ≠ t := by
      intro request' t' id' h
      have howned := (inv.updating request' t' id' h).1
      exact ⟨howned, fun heq => hnew (heq ▸ howned)⟩
    constructor
    · intro request' t' id' h
      rcases update_eq_cases h with ⟨rfl, heq⟩ | ⟨_, h⟩
      · obtain ⟨rfl, rfl⟩ := ReplayRequest.updating.inj heq
        exact ⟨List.mem_cons_self, previousStatus, htask, hreplayable⟩
      · obtain ⟨howned, hne⟩ := hothers request' t' id' h
        refine ⟨List.mem_cons_of_mem t howned, ?_⟩
        show ∃ _, outbox.tasks t' = _ ∧ _
        rw [(frame_step hstep).tasks t' fun hact => hne (Option.some.inj hact).symm]
        exact (inv.updating request' t' id' h).2
    · intro request₁ request₂ t' id₁ id₂ h₁ h₂
      rcases update_eq_cases h₁ with ⟨heq₁, hphase₁⟩ | ⟨_, h₁⟩
      · rcases update_eq_cases h₂ with ⟨heq₂, _⟩ | ⟨_, h₂⟩
        · exact heq₁.trans heq₂.symm
        · obtain ⟨rfl, _⟩ := ReplayRequest.updating.inj hphase₁
          exact absurd rfl (hothers _ _ _ h₂).2
      · rcases update_eq_cases h₂ with ⟨_, hphase₂⟩ | ⟨_, h₂⟩
        · obtain ⟨rfl, _⟩ := ReplayRequest.updating.inj hphase₂
          exact absurd rfl (hothers _ _ _ h₁).2
        · exact inv.distinct _ _ _ _ _ h₁ h₂
  | @rejected request t _ _ _ hnew hstep _ _ =>
    refine inv.move (by simp) fun request' t' id' _ h => ?_
    have howned := (inv.updating request' t' id' h).1
    exact ⟨List.mem_cons_of_mem t howned, (frame_step hstep).tasks t' fun hact =>
      hnew (Option.some.inj hact ▸ howned)⟩
  | updateExecutes hrequest hstep =>
    refine inv.move (by simp) fun request' t' id' hne h => ?_
    exact ⟨(inv.updating request' t' id' h).1, (frame_step hstep).tasks t' fun hact =>
      hne (inv.distinct _ _ _ _ _ h (Option.some.inj hact ▸ hrequest))⟩
  | returned => exact inv.move (by simp) fun request' t' id' _ h =>
      ⟨(inv.updating request' t' id' h).1, rfl⟩
  | throws hrequest =>
    refine inv.move (by simp) fun request' t' id' hne h => ⟨?_, rfl⟩
    have howned := (inv.updating request' t' id' h).1
    rcases hrequest with ⟨t, hrequest, rfl⟩ | ⟨_, rfl⟩
    · refine List.mem_filter.mpr ⟨howned, decide_eq_true fun heq => ?_⟩
      exact hne (inv.distinct _ _ _ _ _ h (heq ▸ hrequest))
    · exact howned

end AdminApi

theorem coherent_of_reachable {a : Adapter} {isProduction : Bool} {s : AdminApi a}
    (hs : (adminApi a isProduction).Reachable s) : s.Coherent := by
  refine hs.induct (P := AdminApi.Coherent) (fun s hinit => ?_) fun s action s' _ ih _ hstep =>
    AdminApi.coherent_of_moves ih (AdminApi.moves_of_step hstep)
  obtain ⟨clock, rfl⟩ := hinit
  constructor
  · intro request t id h
    cases h
  · intro request request' t id id' h
    cases h

end Outboxy
