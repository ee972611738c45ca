import Outboxy.Sdk.Recorded

/-!
# Validation before the first statement

`publishBatch` and `receiveBatch` check all events first, but the payload, the
headers and the metadata of an event are serialized with its slice.  A value
that cannot be serialized in a later slice is therefore reported as invalid
after the earlier slices were inserted.

`validatesFirst_iff`: the calls throw `OutboxyValidationError` before any
statement exactly for the batches whose first slice has such an event, if any
has.
-/

namespace Outboxy

open Session

variable {α β ι σ : Type} {a : Adapter}

/-- The error is an `OutboxyValidationError`. -/
def SdkError.IsValidation : SdkError → Prop
  | .validation _ _ => True
  | _ => False

/-- What a query function throws comes from the database. -/
def DatabaseErrors (query : QueryFn ι σ) : Prop :=
  ∀ statement s e, (query statement).run s = .error e → ¬e.IsValidation

/-- Whatever the database answers, the call throws `OutboxyValidationError`
before it executes a statement, or not at all. -/
def ValidatesFirst
    (call : (σ : Type) → QueryFn ι σ → EStateM SdkError (Recorded σ ι) β) : Prop :=
  ∀ σ query s, DatabaseErrors query → Ensures (call σ query) ⟨s, []⟩ (fun _ _ => True)
    (fun e s' => e.IsValidation → s'.statements = [])

/-- If any event is rejected then one of the first `n` is. -/
def RejectedInFirst (n : Nat) (serializes : α → Prop) (events : List α) : Prop :=
  (∃ event ∈ events.take n, ¬serializes event) ∨ ∀ event ∈ events, serializes event

/-! ## Slices -/

/-- A slice is rejected before its first statement, or executes and is not. -/
structure SliceSpec (serializes : α → Prop)
    (slice : List α → EStateM SdkError (Recorded σ ι) (List β)) : Prop where
  rejects : ∀ piece s, (¬∀ x ∈ piece, serializes x) →
    Ensures (slice piece) s (fun _ _ => False) (fun e s' => e.IsValidation ∧ s' = s)
  executes : ∀ piece s, (∀ x ∈ piece, serializes x) →
    Ensures (slice piece) s (fun _ s' => s'.statements ≠ []) (fun e _ => ¬e.IsValidation)

section Slices

variable {serializes : α → Prop} {slice : List α → EStateM SdkError (Recorded σ ι) (List β)}
  {n : Nat} {hn : 0 < n} {events : List α} {s : Recorded σ ι}

/-- Events that are all serialized are not rejected. -/
theorem SliceSpec.ensures_serialized (h : SliceSpec serializes slice)
    (hall : ∀ event ∈ events, serializes event) :
    Ensures (List.inChunks n hn slice events) s (fun _ _ => True)
      (fun e _ => ¬e.IsValidation) := by
  rw [List.inChunks_eq]
  split
  · apply ensures_bind
    refine (ensures_mapM (fun rest _ _ => ∀ piece ∈ rest, ∀ x ∈ piece, serializes x) ?_
      (events.slices n hn) [] ?_).mono (fun _ _ _ => ensures_pure trivial)
        (fun _ _ h => h)
    · intro piece rest done s hrest
      rw [List.forall_mem_cons] at hrest
      exact (h.executes piece s hrest.1).mono (fun _ _ _ => hrest.2) (fun _ _ h => h)
    · exact (List.forall_mem_slices_iff n hn).mpr hall
  · exact (h.executes events s hall).mono (fun _ _ _ => trivial) (fun _ _ h => h)

/-- An event that is rejected in the first slice is rejected first. -/
theorem SliceSpec.ensures_rejected (h : SliceSpec serializes slice)
    (hfirst : ∃ event ∈ events.take n, ¬serializes event) :
    Ensures (List.inChunks n hn slice events) s (fun _ _ => False)
      (fun e s' => e.IsValidation ∧ s' = s) := by
  have hnot : ¬∀ event ∈ events.take n, serializes event := by simpa using hfirst
  rw [List.inChunks_eq]
  split
  · cases events with
    | nil => simp at hfirst
    | cons event events =>
      rw [List.slices, List.mapM_cons]
      apply ensures_bind
      apply ensures_bind
      exact (h.rejects _ s hnot).mono (fun _ _ h => h.elim) (fun _ _ h => h)
  · rename_i hshort
    rw [List.take_of_length_le (Nat.not_lt.mp hshort)] at hnot
    exact h.rejects events s hnot

/-- An event that is rejected in a later slice is rejected after the first
slice was inserted, if the database answers. -/
theorem SliceSpec.ensures_late (h : SliceSpec serializes slice)
    (hanswers : ∀ piece s, piece ≠ [] → (∀ x ∈ piece, serializes x) →
      Ensures (slice piece) s (fun _ s' => s'.statements ≠ []) (fun _ _ => False))
    (hlate : ¬RejectedInFirst n serializes events) :
    Ensures (List.inChunks n hn slice events) s (fun _ _ => False)
      (fun e s' => e.IsValidation ∧ s'.statements ≠ []) := by
  obtain ⟨hfirst, hrejected⟩ := not_or.mp hlate
  have hfirst' : ∀ event ∈ events.take n, serializes event := by simpa using hfirst
  rw [List.inChunks_eq]
  split
  · apply ensures_bind
    -- Slices are left, one of them is rejected, and it is not the first.
    refine (ensures_mapM (fun rest _ s => (∀ piece ∈ rest, piece ≠ []) ∧
      (∃ piece ∈ rest, ¬∀ x ∈ piece, serializes x) ∧
        (s.statements = [] → ∀ piece ∈ rest.head?, ∀ x ∈ piece, serializes x)) ?_
      (events.slices n hn) [] ?_).mono ?_ (fun _ _ h => h)
    · rintro piece rest done s ⟨hne, hbad, hhead⟩
      by_cases hpiece : ∀ x ∈ piece, serializes x
      · refine (hanswers piece s (hne piece List.mem_cons_self) hpiece).mono
          (fun _ s' hs' => ?_) (fun _ _ h => h.elim)
        refine ⟨fun p hp => hne p (List.mem_cons_of_mem _ hp), ?_, fun hnil => absurd hnil hs'⟩
        obtain ⟨bad, hmem, hnot⟩ := hbad
        rcases List.mem_cons.mp hmem with rfl | hrest
        · exact absurd hpiece hnot
        · exact ⟨bad, hrest, hnot⟩
      · refine (h.rejects piece s hpiece).mono (fun _ _ h => h.elim) (fun e s' hs' => ?_)
        obtain ⟨hvalidation, rfl⟩ := hs'
        exact ⟨hvalidation, fun hnil => hpiece (hhead hnil piece rfl)⟩
    · refine ⟨fun _ => List.ne_nil_of_mem_slices, ?_, fun _ piece hpiece => ?_⟩
      · have hnot := mt (List.forall_mem_slices_iff n hn).mp hrejected
        simpa only [not_forall, exists_prop] using hnot
      · rw [List.eq_take_of_mem_head?_slices hpiece]
        exact hfirst'
    · rintro _ s' ⟨-, ⟨piece, hpiece, -⟩, -⟩
      exact absurd hpiece List.not_mem_nil
  · rename_i hshort
    rw [List.take_of_length_le (Nat.not_lt.mp hshort)] at hfirst'
    exact absurd hfirst' hrejected

/-- A call that checks its events, and then inserts them in slices, validates
first unless its first rejected event is in a later slice. -/
theorem validatesFirst_of_slices {γ : Type} {events : List γ} {checks : Except SdkError (List α)}
    {distinct : List α → Prop} [DecidablePred distinct] {repeated : SdkError}
    {call : (σ : Type) → QueryFn ι σ → EStateM SdkError (Recorded σ ι) (List β)}
    {slice : (σ : Type) → QueryFn ι σ → List α → EStateM SdkError (Recorded σ ι) (List β)}
    (hcall : ∀ σ query, call σ query =
      if events.isEmpty then pure [] else do
        let validated ← ofExcept checks
        if distinct validated then List.inChunks n hn (slice σ query) validated
        else throw repeated)
    (hempty : events.isEmpty → checks = .ok [])
    (hspec : ∀ σ query, DatabaseErrors query → SliceSpec serializes (slice σ query))
    (hanswers : ∀ piece s, piece ≠ [] → (∀ x ∈ piece, serializes x) →
      Ensures (slice Unit (fun _ => pure []) piece) s (fun _ s' => s'.statements ≠ [])
        (fun _ _ => False)) :
    ValidatesFirst call ↔
      ∀ validated, checks = .ok validated → distinct validated →
        RejectedInFirst n serializes validated := by
  have hquiet : DatabaseErrors (fun _ => pure [] : QueryFn ι Unit) := by
    rintro statement s e hrun
    exact absurd (show Except.ok _ = Except.error e from hrun) (by simp)
  constructor
  · intro h validated hchecks hdistinct
    by_contra hlate
    have hne : ¬events.isEmpty := by
      intro hnil
      obtain rfl := Except.ok.inj ((hempty hnil).symm.trans hchecks)
      exact hlate (.inr (by simp))
    have hfirst := h Unit _ () hquiet
    rw [hcall, if_neg hne, hchecks] at hfirst
    have hslices : Ensures (List.inChunks n hn (slice Unit fun _ => pure []) validated) ⟨(), []⟩
        (fun _ _ => True) (fun e s' => e.IsValidation → s'.statements = []) := by
      have hbind := hfirst
      change Ensures (if distinct validated then _ else _) _ _ _ at hbind
      rwa [if_pos hdistinct] at hbind
    refine not_ensures_false _ _ ((((hspec Unit _ hquiet).ensures_late hanswers hlate).and
      hslices).mono (fun _ _ h => h.1) (fun _ _ h => ?_))
    exact h.1.2 (h.2 h.1.1)
  · intro h σ query s hquery
    rw [hcall]
    split
    · exact ensures_pure trivial
    · apply ensures_bind
      apply ensures_ofExcept
      · intro validated hchecks
        split
        · rename_i hdistinct
          rcases h validated hchecks hdistinct with hfirst | hall
          · exact ((hspec σ query hquery).ensures_rejected hfirst).mono (fun _ _ h => h.elim)
              (fun _ s' h _ => by rw [h.2])
          · exact ((hspec σ query hquery).ensures_serialized hall).mono (fun _ _ _ => trivial)
              (fun _ _ hnot hvalidation => absurd hvalidation hnot)
        · exact ensures_throw fun _ => rfl
      · exact fun _ _ _ => rfl

end Slices

/-! ## Serialization -/

/-- The value has a JSON text. -/
def JsValue.Serializable (value : JsValue) : Prop := ∃ json, value = .json json

/-- A computation whose first steps serialize three values. -/
theorem bind_safeStringify {γ : Type} {payload headers metadata : JsValue}
    {f : Json → Json → Json → γ} (x : Except SdkError γ)
    (hx : x = do
      let p ← safeStringify payload "payload"
      let h ← safeStringify headers "headers"
      let m ← safeStringify metadata "metadata"
      return f p h m) :
    (∀ e, x = .error e → e.IsValidation) ∧
      ((∃ y, x = .ok y) ↔
        payload.Serializable ∧ headers.Serializable ∧ metadata.Serializable) := by
  subst hx
  cases payload with
  | unserializable => simp [safeStringify, JsValue.Serializable, bind, Except.bind,
      SdkError.IsValidation]
  | json payload =>
    cases headers with
    | unserializable => simp [safeStringify, JsValue.Serializable, bind, Except.bind,
        SdkError.IsValidation]
    | json headers =>
      cases metadata with
      | unserializable => simp [safeStringify, JsValue.Serializable, bind, Except.bind,
          SdkError.IsValidation]
      | json metadata => simp [safeStringify, JsValue.Serializable, bind, Except.bind, pure,
          Except.pure]

section Serialize

variable {γ : Type} {f : α → Except SdkError γ} {serializes : α → Prop}
  {slice : List α → EStateM SdkError (Recorded σ ι) (List β)}
  {rest : List α → List γ → EStateM SdkError (Recorded σ ι) (List β)}

/-- Events that are all serialized are executed. -/
theorem ensures_of_serialized {Q : List β → Recorded σ ι → Prop}
    {E : SdkError → Recorded σ ι → Prop} {piece : List α} {s : Recorded σ ι}
    (hok : ∀ x, (∃ y, f x = .ok y) ↔ serializes x)
    (hslice : ∀ piece, slice piece = ofExcept (piece.mapM f) >>= rest piece)
    (hall : ∀ x ∈ piece, serializes x) (hrest : ∀ rows, Ensures (rest piece rows) s Q E) :
    Ensures (slice piece) s Q E := by
  rw [hslice]
  apply ensures_bind
  apply ensures_ofExcept
  · exact fun rows _ => hrest rows
  · intro e he
    obtain ⟨x, hmem, hx⟩ := List.exists_of_mapM_eq_error he
    obtain ⟨y, hy⟩ := (hok x).mpr (hall x hmem)
    exact absurd (hx.symm.trans hy) (by simp)

/-- A slice that serializes its events and then executes. -/
theorem sliceSpec_of_serialize (herror : ∀ x e, f x = .error e → e.IsValidation)
    (hok : ∀ x, (∃ y, f x = .ok y) ↔ serializes x)
    (hslice : ∀ piece, slice piece = ofExcept (piece.mapM f) >>= rest piece)
    (hrest : ∀ piece rows s, Ensures (rest piece rows) s (fun _ s' => s'.statements ≠ [])
      (fun e _ => ¬e.IsValidation)) : SliceSpec serializes slice := by
  constructor
  · intro piece s hnot
    rw [hslice]
    apply ensures_bind
    apply ensures_ofExcept
    · intro rows hrows
      refine absurd (fun x hx => ?_) hnot
      obtain ⟨row, _, hrow⟩ := List.exists_of_forall₂_of_mem (List.mapM_eq_ok_iff.mp hrows) hx
      exact (hok x).mp ⟨row, hrow⟩
    · intro e he
      obtain ⟨x, -, hx⟩ := List.exists_of_mapM_eq_error he
      exact ⟨herror x e hx, rfl⟩
  · exact fun piece s hall => ensures_of_serialized hok hslice hall fun rows => hrest piece rows s

end Serialize

/-! ## The clients -/

/-- What an insert serializes for an event. -/
def OutboxyClient.Serializes (client : OutboxyClient a) (event : Stamp × ValidatedEvent) : Prop :=
  event.2.payload.Serializable ∧ (client.inject event.2.headers).Serializable ∧
    event.2.metadata.Serializable

def InboxyClient.Serializes (event : Stamp × ValidatedInboxEvent) : Prop :=
  event.2.payload.Serializable ∧ event.2.headers.Serializable ∧ event.2.metadata.Serializable

/-- Either the checks of `publishBatch` throw, or the first slice has an event
that cannot be serialized, if any has. -/
def OutboxyClient.RejectsEarly (client : OutboxyClient a)
    (events : List (Stamp × PublishEventInput)) : Prop :=
  ∀ validated, client.validateBatch 0 events = .ok validated →
    ((validated.filterMap fun event => event.2.idempotencyKey).filter (· ≠ "")).Nodup →
    RejectedInFirst client.maxEventsPerBatch client.Serializes validated

def InboxyClient.RejectsEarly (client : InboxyClient a)
    (events : List (Stamp × InboxReceiveEventInput)) : Prop :=
  ∀ validated, client.validateBatch 0 events = .ok validated →
    (validated.map fun event => event.2.idempotencyKey).Nodup →
    RejectedInFirst client.maxEventsPerBatch InboxyClient.Serializes validated

section Outbox

variable {client : OutboxyClient a}

/-- What the rows of a slice are built from. -/
theorem outboxRow_spec (client : OutboxyClient a) (event : Stamp × ValidatedEvent) :
    (∀ e, (do
      let values ← client.baseValues event.2
      return values.row event.1.id event.1.now : Except SdkError OutboxEvent) = .error e →
        e.IsValidation) ∧
      ((∃ row, (do
        let values ← client.baseValues event.2
        return values.row event.1.id event.1.now : Except SdkError OutboxEvent) = .ok row) ↔
          client.Serializes event) := by
  obtain ⟨herror, hok⟩ := bind_safeStringify (client.baseValues event.2) rfl
  cases hbase : client.baseValues event.2 with
  | ok values =>
    have hserializes : client.Serializes event := hok.mp ⟨values, hbase⟩
    simp [bind, Except.bind, pure, Except.pure, hserializes]
  | error e =>
    have hnot : ¬client.Serializes event := by
      intro hserializes
      obtain ⟨values, hvalues⟩ := hok.mpr hserializes
      exact absurd (hbase.symm.trans hvalues) (by simp)
    simpa [bind, Except.bind, hnot] using herror e hbase

theorem ensures_execute_outbox {query : QueryFn OutboxStatement σ} {P : SdkError → Prop}
    (hquery : ∀ statement s e, (query statement).run s = .error e → P e)
    (events : List (Stamp × ValidatedEvent)) (rows : List OutboxEvent)
    (s : Recorded σ OutboxStatement) :
    Ensures (do
      let resultRows ← record query ⟨rows⟩
      if a.supportsReturning then return resultRows.map QueryRow.id
      else return events.map fun event => event.1.id : EStateM SdkError _ (List EventId)) s
      (fun _ s' => s'.statements ≠ []) (fun e _ => P e) := by
  apply ensures_bind
  apply ensures_record
  · intro resultRows state _
    split
    · exact ensures_pure (by simp)
    · exact ensures_pure (by simp)
  · exact fun e hrun => hquery _ _ e hrun

/-- A slice of serializable events returns if the database answers. -/
theorem ensures_answered_outbox {query : QueryFn OutboxStatement σ}
    (hquery : ∀ statement s e, (query statement).run s = .error e → False)
    {piece : List (Stamp × ValidatedEvent)} (s : Recorded σ OutboxStatement)
    (hall : ∀ event ∈ piece, client.Serializes event) :
    Ensures (client.insertSliceWith query piece) s (fun _ s' => s'.statements ≠ [])
      (fun _ _ => False) :=
  ensures_of_serialized (fun event => (outboxRow_spec client event).2) (fun _ => rfl) hall
    (fun rows => ensures_execute_outbox hquery piece rows s)

/-- `publishBatch` validates first exactly when it rejects early. -/
theorem validatesFirst_publishBatch_iff (client : OutboxyClient a)
    (events : List (Stamp × PublishEventInput)) :
    ValidatesFirst (fun _ query => client.publishBatchWith query events) ↔
      client.RejectsEarly events := by
  refine validatesFirst_of_slices (fun _ _ => rfl) ?_ ?_ ?_
  · intro hempty
    rw [List.isEmpty_iff.mp hempty]
    rfl
  · exact fun σ query hquery => sliceSpec_of_serialize
      (fun event => (outboxRow_spec client event).1)
      (fun event => (outboxRow_spec client event).2) (fun _ => rfl)
      (fun piece rows s => ensures_execute_outbox hquery piece rows s)
  · exact fun piece s _ hall => ensures_answered_outbox (fun _ _ _ hrun => by cases hrun) s hall

end Outbox

section Inbox

variable {client : InboxyClient a}

theorem inboxRow_spec (event : Stamp × ValidatedInboxEvent) :
    (∀ e, event.2.row event.1 = .error e → e.IsValidation) ∧
      ((∃ row, event.2.row event.1 = .ok row) ↔ InboxyClient.Serializes event) :=
  bind_safeStringify (event.2.row event.1) rfl

theorem ensures_findWith {query : QueryFn InboxStatement σ} {P : SdkError → Prop}
    (hquery : ∀ statement s e, (query statement).run s = .error e → P e) {keys : List String}
    (hempty : keys = [] → P (.unexpected "buildFindByIdempotencyKeys requires at least one key"))
    (s : Recorded σ InboxStatement) :
    Ensures (InboxyClient.findWith query keys) s (fun _ s' => s'.statements ≠ [])
      (fun e _ => P e) := by
  unfold InboxyClient.findWith
  split
  · rename_i hnil
    exact ensures_throw (hempty (List.isEmpty_iff.mp hnil))
  · exact ensures_record (fun _ _ _ => by simp) (fun e hrun => hquery _ _ e hrun)

theorem ensures_execute_inbox {query : QueryFn InboxStatement σ} {P : SdkError → Prop}
    (hquery : ∀ statement s e, (query statement).run s = .error e → P e)
    {events : List (Stamp × ValidatedInboxEvent)}
    (hempty : events = [] → P (.unexpected "buildFindByIdempotencyKeys requires at least one key"))
    (rows : List InboxEvent) (s : Recorded σ InboxStatement) :
    Ensures (do
      let resultRows ← record query (.bulkInsert rows)
      let checkRows ← InboxyClient.findWith query (events.map fun event => event.2.idempotencyKey)
      let keyToId := OrderedMap.ofList QueryRow.idempotencyKey QueryRow.id checkRows
      return events.map fun event => InboxyClient.batchResult a (resultRows.map QueryRow.id)
        keyToId event.1 event.2 : EStateM SdkError _ (List InboxReceiveResult)) s
      (fun _ s' => s'.statements ≠ []) (fun e _ => P e) := by
  apply ensures_bind
  apply ensures_record
  · intro resultRows state _
    apply ensures_bind
    exact (ensures_findWith hquery (fun hnil => hempty (List.map_eq_nil_iff.mp hnil)) _).mono
      (fun _ _ h => ensures_pure h) (fun _ _ h => h)
  · exact fun e hrun => hquery _ _ e hrun

/-- A slice of serializable events returns if the database answers. -/
theorem ensures_answered_inbox {query : QueryFn InboxStatement σ}
    (hquery : ∀ statement s e, (query statement).run s = .error e → False)
    {piece : List (Stamp × ValidatedInboxEvent)} (s : Recorded σ InboxStatement)
    (hne : piece ≠ []) (hall : ∀ event ∈ piece, InboxyClient.Serializes event) :
    Ensures (client.insertSliceWith query piece) s (fun _ s' => s'.statements ≠ [])
      (fun _ _ => False) :=
  ensures_of_serialized (fun event => (inboxRow_spec event).2) (fun _ => rfl) hall
    (fun rows => ensures_execute_inbox hquery (fun hnil => hne hnil) rows s)

/-- `receiveBatch` validates first exactly when it rejects early. -/
theorem validatesFirst_receiveBatch_iff (client : InboxyClient a)
    (events : List (Stamp × InboxReceiveEventInput)) :
    ValidatesFirst (fun _ query => client.receiveBatchWith query events) ↔
      client.RejectsEarly events := by
  refine validatesFirst_of_slices (fun _ _ => rfl) ?_ ?_ ?_
  · intro hempty
    rw [List.isEmpty_iff.mp hempty]
    rfl
  · exact fun σ query hquery => sliceSpec_of_serialize (fun event => (inboxRow_spec event).1)
      (fun event => (inboxRow_spec event).2) (fun _ => rfl)
      (fun piece rows s => ensures_execute_inbox hquery (fun _ => by simp [SdkError.IsValidation])
        rows s)
  · exact fun piece s hne hall =>
      ensures_answered_inbox (fun _ _ _ hrun => by cases hrun) s hne hall

end Inbox

/-! ## Both batches -/

/-- `OutboxyValidationError` comes before the first statement exactly for the
batches that are rejected early. -/
theorem validatesFirst_iff (a : Adapter) :
    (∀ (client : OutboxyClient a) (events : List (Stamp × PublishEventInput)),
      ValidatesFirst (fun _ query => client.publishBatchWith query events) ↔
        client.RejectsEarly events) ∧
    (∀ (client : InboxyClient a) (events : List (Stamp × InboxReceiveEventInput)),
      ValidatesFirst (fun _ query => client.receiveBatchWith query events) ↔
        client.RejectsEarly events) :=
  ⟨validatesFirst_publishBatch_iff, validatesFirst_receiveBatch_iff⟩

namespace Sample

/-- A payload that holds itself, in the second of two events. -/
def circular : List (Stamp × PublishEventInput) :=
  [(⟨"1", 0⟩, keyed "order-1"),
    (⟨"2", 0⟩, { keyed "order-2" with payload := .unserializable })]

def circularReceived : List (Stamp × InboxReceiveEventInput) :=
  [(⟨"1", 0⟩, received "order-1"),
    (⟨"2", 0⟩, { received "order-2" with payload := .unserializable })]

/-- Clients whose slices have one event. -/
def smallOutboxyClient : OutboxyClient .postgres :=
  { outboxyClient .postgres with dialect := ⟨12, by decide⟩ }

def smallInboxyClient : InboxyClient .postgres :=
  { inboxyClient .postgres with dialect := ⟨10, by decide⟩ }

end Sample

/-- With slices of one event the first of two events is inserted before the
payload of the second is found to be circular. -/
theorem not_validatesFirst_circular :
    ¬ValidatesFirst (fun _ query =>
        Sample.smallOutboxyClient.publishBatchWith query Sample.circular) ∧
      ¬ValidatesFirst (fun _ query =>
        Sample.smallInboxyClient.receiveBatchWith query Sample.circularReceived) := by
  constructor
  · rw [validatesFirst_publishBatch_iff]
    intro hearly
    rcases hearly _ rfl (by decide) with ⟨event, hevent, hnot⟩ | hall
    · obtain rfl := List.mem_singleton.mp hevent
      exact hnot ⟨⟨_, rfl⟩, ⟨_, rfl⟩, ⟨_, rfl⟩⟩
    · obtain ⟨⟨_, hpayload⟩, -⟩ := hall _ (List.mem_cons_of_mem _ List.mem_cons_self)
      cases hpayload
  · rw [validatesFirst_receiveBatch_iff]
    intro hearly
    rcases hearly _ rfl (by decide) with ⟨event, hevent, hnot⟩ | hall
    · obtain rfl := List.mem_singleton.mp hevent
      exact hnot ⟨⟨_, rfl⟩, ⟨_, rfl⟩, ⟨_, rfl⟩⟩
    · obtain ⟨⟨_, hpayload⟩, -⟩ := hall _ (List.mem_cons_of_mem _ List.mem_cons_self)
      cases hpayload

end Outboxy
