import Outboxy.Delivery.Routing
import Outboxy.Library.Utf16

/-!
# The error texts of a batch

`scheduleRetry` and `moveToDLQ` bind the error messages of a whole batch in one
statement.  A message is any string of the language: it is cut after 1000 UTF-16
code units and bound as it is.

`unblocked_iff` says when no message stands in the way of the statement.  MySQL
takes every text.  PostgreSQL has no text with U+0000, and such a message makes
the statement fail for all events that it lists.
-/

namespace Outboxy

open Utf16

/-- A string of the language. -/
abbrev JsString := List CodeUnit

/-- The text that the driver sends for it. -/
def JsString.text (message : JsString) : String := String.ofList (decode message)

/-- The errors of the outcome have these messages. -/
def Speaks (message : EventId → JsString) (events : List OutboxEvent) (outcome : PublishOutcome) :
    Prop :=
  ∀ event ∈ events, ∀ own ∈ (processingResult outcome event).error.message,
    own = .text (message event.id).text

namespace Adapter

variable (a : Adapter)

/-- The texts that a call binds for `last_error`. -/
def boundErrors : RepositoryCall String → List String
  | .markSucceeded _ => []
  | .scheduleRetry eventIds errorMessages _ =>
    match a with
    | .postgres => (PgEventRepository.errorCase eventIds errorMessages).map Prod.snd
    | .mysql => (MySQLEventRepository.errorCase "Unknown error" eventIds errorMessages).map Prod.snd
  | .moveToDLQ eventIds errorMessages =>
    match a with
    | .postgres => (PgEventRepository.errorCase eventIds errorMessages).map Prod.snd
    | .mysql => (MySQLEventRepository.errorCase "Moved to DLQ" eventIds errorMessages).map Prod.snd

/-- The texts that a column of the database can hold. -/
def admissible (text : String) : Bool :=
  match a with
  | .postgres => decide ('\x00' ∉ text.toList)
  | .mysql => true

/-- The statement of a call with its parameters, one of which is enough to make
it fail. -/
def runCall (now : Int) (call : RepositoryCall) (table : OutboxTable a) :
    Option (OutboxTable a) :=
  (a.readCall call).bind fun texts =>
    if (a.boundErrors texts).all a.admissible then (a.outcomeUpdate now texts).bind table.update
    else none

end Adapter

/-- The messages fit into the column, and the statement writes the outcome of
each event that it lists, on every table in which these are claimed. -/
structure Unblocked (a : Adapter) (now : Int) (call : RepositoryCall) : Prop where
  fits : ∀ texts ∈ a.readCall call, ∀ text ∈ a.boundErrors texts,
    text.length ≤ MAX_ERROR_MESSAGE_LENGTH ∧ a.admissible text = true
  applies : ∀ table : OutboxTable a,
    (∀ row ∈ table.rows, row.id ∈ call.ids → row.status = .processing) →
    ∃ table', a.runCall now call table = some table' ∧
      ∀ row ∈ table.rows, row.id ∈ call.ids → call.admits row →
        ∃ row', table'.lookup row.id = some row' ∧ call.Effect row row'

/-! ## One message -/

/-- A character that counts for one unit is kept. -/
theorem takeCodeUnits_one {c : Char} (hc : c.toNat < 0x10000) (n : Nat) (chars : List Char) :
    takeCodeUnits (n + 1) (c :: chars) = c :: takeCodeUnits n chars := by
  rw [takeCodeUnits.eq_def]
  exact if_pos hc

/-- One that counts for two is kept if both are. -/
theorem takeCodeUnits_two {c : Char} (hc : ¬c.toNat < 0x10000) (n : Nat) (chars : List Char) :
    takeCodeUnits (n + 2) (c :: chars) = c :: takeCodeUnits n chars := by
  rw [takeCodeUnits.eq_def]
  exact if_neg hc

/-- One that counts for two and that the cut splits is replaced. -/
theorem takeCodeUnits_split {c : Char} (hc : ¬c.toNat < 0x10000) (chars : List Char) :
    takeCodeUnits 1 (c :: chars) = [replacement] := by
  rw [takeCodeUnits.eq_def]
  exact if_neg hc

/-- Cutting a text is cutting the string that it was sent for. -/
theorem takeCodeUnits_decode (n : Nat) (units : List CodeUnit) :
    takeCodeUnits n (decode units) = decode (units.take n) := by
  induction units using decode.induct generalizing n with
  | case1 =>
    rw [List.take_nil]
    cases n <;> rfl
  | case2 u =>
    cases n with
    | zero => rfl
    | succ n =>
      rw [decode, takeCodeUnits_one (toNat_single_lt u), List.take_succ_cons, List.take_nil]
      cases n <;> rfl
  | case3 u v rest h ih =>
    have htwo : ¬(pair u v).toNat < 0x10000 := Nat.not_lt.mpr (toNat_pair h)
    rw [decode_pair rest h]
    cases n with
    | zero => rfl
    | succ n =>
      cases n with
      | zero =>
        rw [takeCodeUnits_split htwo]
        show _ = [single u]
        rw [single_of_isHigh h.1]
      | succ n =>
        rw [takeCodeUnits_two htwo, List.take_succ_cons, List.take_succ_cons, decode_pair _ h, ih]
  | case4 u v rest h ih =>
    rw [decode_single rest h]
    cases n with
    | zero => rfl
    | succ n =>
      rw [takeCodeUnits_one (toNat_single_lt u), ih, List.take_succ_cons]
      cases n with
      | zero => rfl
      | succ n => rw [List.take_succ_cons, decode_single _ h]

theorem truncateError_text (message : JsString) :
    truncateError message.text =
      JsString.text (message.take MAX_ERROR_MESSAGE_LENGTH) := by
  rw [truncateError, JsString.text, String.toList_ofList, takeCodeUnits_decode, JsString.text]

theorem length_takeCodeUnits_le (n : Nat) (chars : List Char) :
    (takeCodeUnits n chars).length ≤ n := by
  induction chars generalizing n with
  | nil => cases n <;> exact Nat.zero_le _
  | cons c chars ih =>
    by_cases hc : c.toNat < 0x10000
    · cases n with
      | zero => exact Nat.le_refl 0
      | succ n =>
        rw [takeCodeUnits_one hc, List.length_cons]
        exact Nat.succ_le_succ (ih n)
    · match n with
      | 0 => exact Nat.le_refl 0
      | 1 =>
        rw [takeCodeUnits_split hc]
        exact Nat.le_refl 1
      | n + 2 =>
        rw [takeCodeUnits_two hc, List.length_cons]
        have hlength := ih n
        omega

/-- Cutting adds no character but the replacement. -/
theorem mem_of_mem_takeCodeUnits {n : Nat} {chars : List Char} {c : Char}
    (h : c ∈ takeCodeUnits n chars) : c ∈ chars ∨ c = replacement := by
  induction chars generalizing n with
  | nil =>
    cases n <;> cases h
  | cons d chars ih =>
    have hrest : ∀ {m : Nat}, c ∈ d :: takeCodeUnits m chars →
        c ∈ d :: chars ∨ c = replacement := by
      intro m hmem
      rcases List.mem_cons.mp hmem with rfl | hmem
      · exact Or.inl List.mem_cons_self
      · exact (ih hmem).imp_left (List.mem_cons_of_mem d)
    by_cases hd : d.toNat < 0x10000
    · cases n with
      | zero => cases h
      | succ n =>
        rw [takeCodeUnits_one hd] at h
        exact hrest h
    · match n with
      | 0 => cases h
      | 1 =>
        rw [takeCodeUnits_split hd] at h
        exact Or.inr (List.mem_singleton.mp h)
      | n + 2 =>
        rw [takeCodeUnits_two hd] at h
        exact hrest h

/-- What is bound for a message is never too long. -/
theorem length_truncateError_le (message : String) :
    (truncateError message).length ≤ MAX_ERROR_MESSAGE_LENGTH := by
  rw [truncateError, String.length_ofList]
  exact length_takeCodeUnits_le _ _

/-! ## The texts of a call -/

variable {a : Adapter} {now : Int} {call : RepositoryCall} {texts : RepositoryCall String}
  {text : String}

theorem exists_cut_of_mem_branches {uncut : EventId → String} {eventIds : List EventId}
    (h : text ∈ (eventIds.map fun id => (id, truncateError (uncut id))).map Prod.snd) :
    ∃ message, truncateError message = text := by
  obtain ⟨branch, hbranch, rfl⟩ := List.mem_map.mp h
  obtain ⟨id, -, rfl⟩ := List.mem_map.mp hbranch
  exact ⟨uncut id, rfl⟩

/-- Whatever is bound was cut. -/
theorem exists_truncateError_of_mem_boundErrors (h : text ∈ a.boundErrors texts) :
    ∃ message, truncateError message = text := by
  cases texts with
  | markSucceeded results => cases h
  | scheduleRetry eventIds errorMessages config =>
    cases a with
    | postgres => exact exists_cut_of_mem_branches h
    | mysql => exact exists_cut_of_mem_branches h
  | moveToDLQ eventIds errorMessages =>
    cases a with
    | postgres => exact exists_cut_of_mem_branches h
    | mysql => exact exists_cut_of_mem_branches h

theorem postgres_admissible_iff :
    Adapter.postgres.admissible text = true ↔ '\x00' ∉ text.toList := decide_eq_true_iff

/-- The texts that PostgreSQL gets are those of the listed events. -/
theorem postgres_mem_boundErrors_iff :
    text ∈ Adapter.postgres.boundErrors texts ↔
      ∃ errorMessages ∈ texts.errorMessages, ∃ id ∈ texts.ids,
        PgEventRepository.errorText errorMessages id = text := by
  cases texts <;>
    simp [Adapter.boundErrors, RepositoryCall.errorMessages, RepositoryCall.ids,
      PgEventRepository.errorCase]

/-- A call for failed events has their messages. -/
theorem exists_errorMessages (hcall : texts.decision ≠ .succeeded) :
    ∃ errorMessages, errorMessages ∈ texts.errorMessages := by
  cases texts with
  | markSucceeded results => exact absurd rfl hcall
  | scheduleRetry eventIds errorMessages config => exact ⟨errorMessages, rfl⟩
  | moveToDLQ eventIds errorMessages => exact ⟨errorMessages, rfl⟩

/-- Messages that are texts are read as they are. -/
theorem exists_readMessages (a : Adapter) {eventIds : List EventId}
    {errorMessages : OrderedMap EventId ErrorMessage}
    (h : ∀ id ∈ eventIds, ∀ message ∈ errorMessages.get? id, ∃ own, message = .text own) :
    ∃ texts, a.readMessages eventIds errorMessages = some texts ∧
      ∀ id ∈ eventIds, (texts.get? id).map .text = errorMessages.get? id := by
  refine ⟨_, if_pos (List.all_eq_true.mpr fun id hid => ?_), fun id hid => ?_⟩
  · cases hget : errorMessages.get? id with
    | none => rfl
    | some message =>
      obtain ⟨own, rfl⟩ := h id hid message hget
      rfl
  · rw [OrderedMap.get?_mapValues]
    cases hget : errorMessages.get? id with
    | none => rfl
    | some message =>
      obtain ⟨own, rfl⟩ := h id hid message hget
      rfl

theorem exists_readCall (a : Adapter)
    (h : ∀ errorMessages ∈ call.errorMessages, ∀ id ∈ call.ids,
      ∀ message ∈ errorMessages.get? id, ∃ own, message = .text own) :
    ∃ texts, a.readCall call = some texts ∧
      ∀ errorTexts ∈ texts.errorMessages, ∃ errorMessages ∈ call.errorMessages,
        ∀ id ∈ call.ids, (errorTexts.get? id).map .text = errorMessages.get? id := by
  cases call with
  | markSucceeded results => exact ⟨_, rfl, fun _ h => nomatch h⟩
  | scheduleRetry eventIds errorMessages config =>
    obtain ⟨texts, hread, hget⟩ := exists_readMessages a (h errorMessages rfl)
    refine ⟨_, congrArg (Option.map _) hread, fun errorTexts htexts => ⟨_, rfl, ?_⟩⟩
    obtain rfl := Option.some.inj htexts
    exact hget
  | moveToDLQ eventIds errorMessages =>
    obtain ⟨texts, hread, hget⟩ := exists_readMessages a (h errorMessages rfl)
    refine ⟨_, congrArg (Option.map _) hread, fun errorTexts htexts => ⟨_, rfl, ?_⟩⟩
    obtain rfl := Option.some.inj htexts
    exact hget

/-- A failure that is written keeps the index key of its row. -/
theorem idempotencyIndex_assign {u : OutboxUpdate} {row : OutboxEvent}
    (h : a.outcomeUpdate now texts = some u) (hcall : texts.decision ≠ .succeeded)
    (hrow : row.status = .processing) :
    a.idempotencyIndex (u.assign row) = a.idempotencyIndex row := by
  cases texts with
  | markSucceeded results => exact absurd rfl hcall
  | scheduleRetry eventIds errorMessages config =>
    cases a with
    | postgres =>
      obtain rfl := Option.some.inj h
      simp [Adapter.idempotencyIndex, PgEventRepository.scheduleRetry, hrow]
    | mysql =>
      obtain ⟨-, hsome⟩ := Option.ite_none_right_eq_some.mp h
      obtain rfl := Option.some.inj hsome
      rfl
  | moveToDLQ eventIds errorMessages =>
    cases a with
    | postgres =>
      obtain rfl := Option.some.inj h
      simp [Adapter.idempotencyIndex, PgEventRepository.moveToDLQ, hrow]
    | mysql =>
      obtain ⟨-, hsome⟩ := Option.ite_none_right_eq_some.mp h
      obtain rfl := Option.some.inj hsome
      rfl

/-- The statement of a call that the adapter makes writes the outcome of each
event that it lists. -/
theorem unblocked_of_admissible (hread : a.readCall call = some texts)
    (hvalid : MySQLEventRepository.validateIds call.ids = true)
    (hcall : call.decision ≠ .succeeded)
    (h : ∀ text ∈ a.boundErrors texts, a.admissible text = true) : Unblocked a now call := by
  have hsame := sameButMessages_readCall hread
  refine ⟨fun other hother text htext => ?_, fun table hprocessing => ?_⟩
  · obtain rfl := Option.some.inj (hread.symm.trans hother)
    obtain ⟨message, rfl⟩ := exists_truncateError_of_mem_boundErrors htext
    exact ⟨length_truncateError_le message, h _ htext⟩
  · obtain ⟨u, hu⟩ := exists_outcomeUpdate a now (hsame.ids ▸ hvalid)
    have hguard : ∀ row, u.guard row = true ↔ row.id ∈ call.ids ∧ call.admits row := by
      intro row
      rw [outcomeUpdate_guard hu, hsame.ids, hsame.admits]
    have hupdate : (table.update u).isSome := by
      refine Table.update_isSome fun row hrow hin => ?_
      exact idempotencyIndex_assign hu (hsame.decision ▸ hcall)
        (hprocessing row hrow ((hguard row).mp hin).1)
    obtain ⟨table', htable'⟩ := Option.isSome_iff_exists.mp hupdate
    refine ⟨table', ?_, fun row hrow hid hadmits => ?_⟩
    · rw [Adapter.runCall, hread, Option.bind_some, if_pos (List.all_eq_true.mpr h), hu]
      exact htable'
    · exact ⟨u.assign row, Table.lookup_update_of_guard htable' (Table.lookup_of_mem hrow)
        ((hguard row).mpr ⟨hid, hadmits⟩), hsame.effect (outcomeUpdate_assign hu row)⟩

/-! ## The batch -/

section Batch

variable {worker : OutboxWorker} {events : List OutboxEvent} {outcome : PublishOutcome}
  {message : EventId → JsString} {calls : List RepositoryCall}

/-- The message of an event that has one is a text. -/
theorem ownMessage_of_speaks (hspeaks : Speaks message events outcome) {event : OutboxEvent}
    (hevent : event ∈ events) {own : ErrorMessage}
    (h : own ∈ ownMessage (processingResult outcome event)) : ∃ text, own = .text text := by
  obtain ⟨-, hown⟩ := Option.ite_none_right_eq_some.mp h
  cases hmessage : (processingResult outcome event).error.message with
  | none =>
    rw [hmessage] at hown
    exact ⟨_, (Option.some.inj hown).symm⟩
  | some own' =>
    rw [hmessage] at hown
    obtain rfl := Option.some.inj hown
    exact ⟨_, hspeaks event hevent _ hmessage⟩

/-- The text for an event has U+0000 if the beginning of its message does. -/
theorem nul_mem_errorText_iff (hspeaks : Speaks message events outcome) {event : OutboxEvent}
    (hevent : event ∈ events) {errorTexts : OrderedMap EventId String}
    (htexts : (errorTexts.get? event.id).map .text =
      ownMessage (processingResult outcome event)) :
    '\x00' ∈ (PgEventRepository.errorText errorTexts event.id).toList ↔
      (processingResult outcome event).error.message.isSome = true ∧
        0 ∈ (message event.id).take MAX_ERROR_MESSAGE_LENGTH := by
  have hfallback : '\x00' ∉ (truncateError "Unknown error").toList := by
    rw [truncateError, String.toList_ofList]
    intro hnul
    rcases mem_of_mem_takeCodeUnits hnul with hnul | hnul
    · revert hnul
      decide
    · revert hnul
      decide
  have hown := hspeaks event hevent
  rw [PgEventRepository.errorText]
  cases herror : (processingResult outcome event).error with
  | nullish =>
    rw [ownMessage, herror] at htexts
    rw [Option.map_eq_none_iff.mp htexts]
    exact iff_of_false hfallback fun h => nomatch h.1
  | falsy =>
    rw [ownMessage, herror] at htexts
    rw [Option.map_eq_none_iff.mp htexts]
    exact iff_of_false hfallback fun h => nomatch h.1
  | truthy own =>
    rw [ownMessage, herror] at htexts
    obtain ⟨text, htext, hmap⟩ := Option.map_eq_some_iff.mp htexts
    rw [htext, Option.getD_some]
    cases own with
    | none =>
      obtain rfl := ErrorMessage.text.inj hmap
      exact iff_of_false hfallback fun h => nomatch h.1
    | some own =>
      rw [herror] at hown
      obtain rfl := ErrorMessage.text.inj (hmap.trans (hown own rfl))
      rw [truncateError_text, JsString.text, String.toList_ofList, nul_mem_decode_iff]
      exact (and_iff_right rfl).symm

/-- The error texts block no statement of a batch on MySQL, and on PostgreSQL
just when no failed event has a message with U+0000 in its first 1000 code
units. -/
theorem unblocked_iff (a : Adapter) (worker : OutboxWorker) (events : List OutboxEvent)
    (outcome : PublishOutcome) (message : EventId → JsString) (now : Int)
    (calls : List RepositoryCall) (hnodup : (events.map OutboxEvent.id).Nodup)
    (huuid : ∀ event ∈ events, isUuid event.id = true) (hspeaks : Speaks message events outcome)
    (hcalls : executeBatchProcessing worker events outcome = some calls) :
    (∀ call ∈ calls, call.decision ≠ .succeeded → Unblocked a now call) ↔
      (a = .postgres → ∀ event ∈ events, decision worker outcome event ≠ .succeeded →
        (processingResult outcome event).error.message.isSome = true →
          0 ∉ (message event.id).take MAX_ERROR_MESSAGE_LENGTH) := by
  have hvalid : ∀ call ∈ calls, MySQLEventRepository.validateIds call.ids = true := by
    intro call hcall
    refine List.all_eq_true.mpr fun id hid => ?_
    obtain ⟨event, hevent, -, rfl⟩ := exists_event_of_mem_ids hnodup hcalls hcall hid
    exact huuid event hevent
  -- Each call has the messages of its events, and reads them.
  have hmessages : ∀ call ∈ calls, ∀ errorMessages ∈ call.errorMessages, ∀ event ∈ events,
      errorMessages.get? event.id = ownMessage (processingResult outcome event) := by
    intro call hcall errorMessages herrors event hevent
    rw [calls_eq_repositoryCalls hnodup hcalls] at hcall
    rw [errorMessages_of_mem_repositoryCalls hcall herrors]
    exact get?_collectErrorMessages outcome hnodup hevent
  have hread : ∀ call ∈ calls, ∃ texts, a.readCall call = some texts ∧
      ∀ errorTexts ∈ texts.errorMessages, ∀ event ∈ events, event.id ∈ call.ids →
        (errorTexts.get? event.id).map .text = ownMessage (processingResult outcome event) := by
    intro call hcall
    have howns : ∀ errorMessages ∈ call.errorMessages, ∀ id ∈ call.ids,
        ∀ message ∈ errorMessages.get? id, ∃ own, message = .text own := by
      intro errorMessages herrors id hid own hown
      obtain ⟨event, hevent, -, rfl⟩ := exists_event_of_mem_ids hnodup hcalls hcall hid
      rw [hmessages call hcall errorMessages herrors event hevent] at hown
      exact ownMessage_of_speaks hspeaks hevent hown
    obtain ⟨texts, hread, hget⟩ := exists_readCall a howns
    refine ⟨texts, hread, fun errorTexts htexts event hevent hid => ?_⟩
    obtain ⟨errorMessages, herrors, hsame⟩ := hget errorTexts htexts
    rw [hsame event.id hid, hmessages call hcall errorMessages herrors event hevent]
  cases a with
  | mysql =>
    refine iff_of_true (fun call hcall hfailure => ?_) fun h => nomatch h
    obtain ⟨texts, hread, -⟩ := hread call hcall
    exact unblocked_of_admissible hread (hvalid call hcall) hfailure fun _ _ => rfl
  | postgres =>
    constructor
    · intro h _ event hevent hfailure hmessage hnul
      obtain ⟨call, hcall, hid⟩ := List.mem_flatMap.mp
        ((flatMap_ids_calls_perm hnodup hcalls).mem_iff.mpr (List.mem_map_of_mem hevent))
      obtain ⟨other, hother, hdecision, heq⟩ := exists_event_of_mem_ids hnodup hcalls hcall hid
      obtain rfl := List.inj_on_of_nodup_map hnodup hother hevent heq
      rw [hdecision] at hfailure
      obtain ⟨texts, hread, hget⟩ := hread call hcall
      have hsame := sameButMessages_readCall hread
      obtain ⟨errorTexts, htexts⟩ := exists_errorMessages (hsame.decision ▸ hfailure)
      have hadmissible := ((h call hcall hfailure).fits texts hread _
        (postgres_mem_boundErrors_iff.mpr ⟨errorTexts, htexts, _, hsame.ids ▸ hid, rfl⟩)).2
      exact postgres_admissible_iff.mp hadmissible ((nul_mem_errorText_iff hspeaks hevent
        (hget errorTexts htexts _ hevent hid)).mpr ⟨hmessage, hnul⟩)
    · intro h call hcall hfailure
      obtain ⟨texts, hread, hget⟩ := hread call hcall
      have hsame := sameButMessages_readCall hread
      refine unblocked_of_admissible hread (hvalid call hcall) hfailure fun text htext => ?_
      obtain ⟨errorTexts, htexts, id, hid, rfl⟩ := postgres_mem_boundErrors_iff.mp htext
      rw [hsame.ids] at hid
      obtain ⟨event, hevent, hdecision, rfl⟩ := exists_event_of_mem_ids hnodup hcalls hcall hid
      refine postgres_admissible_iff.mpr fun hnul => ?_
      rw [nul_mem_errorText_iff hspeaks hevent (hget errorTexts htexts _ hevent hid)] at hnul
      exact h rfl event hevent (hdecision ▸ hfailure) hnul.1 hnul.2

end Batch

namespace Sample

/-- A message that is the character U+0000. -/
def nul : JsString := [0]

def failedPair : List OutboxEvent := [(values 5).row id 0, (values 5).row otherId 0]

/-- Both events fail, the first with this message. -/
def failures : PublishOutcome :=
  .returned (OrderedMap.ofList Prod.fst Prod.snd
    [(id, ⟨false, .truthy (some (.text nul.text)), true, none⟩),
      (otherId, ⟨false, .truthy (some (.text (JsString.text [79, 75]))), true, none⟩)])

def messages (eventId : EventId) : JsString := if eventId = id then nul else [79, 75]

/-- The call for both. -/
def retries : List RepositoryCall :=
  repositoryCalls worker ⟨[], [id, otherId], []⟩
    (collectErrorMessages (publishEvents failedPair failures))

end Sample

theorem speaks_sample : Speaks Sample.messages Sample.failedPair Sample.failures := by
  intro event hevent own hown
  rcases List.mem_cons.mp hevent with rfl | hevent
  · exact (Option.some.inj hown).symm
  · obtain rfl := List.mem_singleton.mp hevent
    exact (Option.some.inj hown).symm

/-- On MySQL both retries are written. -/
theorem unblocked_mysql :
    Sample.retries.map RepositoryCall.decision = [.retry] ∧
      ∀ call ∈ Sample.retries, call.decision ≠ .succeeded → Unblocked .mysql 0 call :=
  ⟨rfl, (unblocked_iff .mysql Sample.worker Sample.failedPair Sample.failures Sample.messages 0
    Sample.retries (by decide) (by decide) speaks_sample rfl).mpr fun h => nomatch h⟩

/-- On PostgreSQL the message of the first event blocks the retry of the
second. -/
theorem not_unblocked :
    executeBatchProcessing Sample.worker Sample.failedPair Sample.failures = some Sample.retries ∧
      ¬∀ call ∈ Sample.retries, call.decision ≠ .succeeded → Unblocked .postgres 0 call := by
  refine ⟨rfl, fun h => ?_⟩
  have hfits := (h _ List.mem_cons_self (by decide)).fits _ rfl _
    (postgres_mem_boundErrors_iff.mpr ⟨_, rfl, Sample.id, List.mem_cons_self, rfl⟩)
  exact postgres_admissible_iff.mp hfits.2
    ((nul_mem_errorText_iff speaks_sample List.mem_cons_self rfl).mpr
      ⟨rfl, List.mem_cons_self⟩)

end Outboxy
