import Outboxy.Publisher.HttpDelivery

/-!
# The results in the body of an answer

The body of a success can have an entry for each event.  `respects_iff` says
when the result of an event is what its entry reports.  The entry is asked for
as a condition, so that an entry such as `null` is taken for no entry, and so
is its `success`, so that a text such as `"false"` is taken for a success.  And
an error that has no text makes the whole body count as one without results.
-/

namespace Outboxy

namespace HttpPublisher

/-- The entry reports that its event was delivered. -/
def ReportsSuccess (entry : Json) : Prop := entry.member? "success" = some (.bool true)

/-- The entry is read as a failure. -/
def ReadsFailure (entry : Json) : Prop :=
  entry.truthy = true ∧ ∀ success, entry.member? "success" = some success → success.truthy = false

/-- The entry is read as a failure, whose error has no text. -/
def ErrorThrows (js : JsonRuntime) (entry : Json) : Prop :=
  ReadsFailure entry ∧
    ∃ error, entry.member? "error" = some error ∧ error.truthy = true ∧ error.toText js = none

/-- The request for a destination led to a success, whose body has these
results. -/
def AnswersWith (js : JsonRuntime) (settled : List (String × RequestOutcome)) (url : String)
    (members : List (String × Json)) : Prop :=
  ∃ statusCode responseBody parsed, (url, .answer statusCode responseBody) ∈ settled ∧
    200 ≤ statusCode ∧ statusCode < 300 ∧ js.parse responseBody = some parsed ∧
    parsed.member? "results" = some (.obj members)

/-- `publish` reports the event as a success just when its entry does. -/
def Respects (js : JsonRuntime) (events : List OutboxEvent)
    (settled : List (String × RequestOutcome)) (event : OutboxEvent) (entry : Json) : Prop :=
  ∃ results result, publish js events settled = some results ∧
    results.get? event.id = some result ∧ (result.success = true ↔ ReportsSuccess entry)

/-- `publish` respects the entry of each event that has one. -/
def RespectsEntries (js : JsonRuntime) (events : List OutboxEvent)
    (settled : List (String × RequestOutcome)) : Prop :=
  ∀ event ∈ events, ∀ members, AnswersWith js settled event.destinationUrl members →
    ∀ entry ∈ members.lookup event.id, Respects js events settled event entry

/-! ## One entry -/

variable {js : JsonRuntime} {members : List (String × Json)} {entry : Json} {eventId : EventId}

/-- An entry that reports a success is not read as a failure. -/
theorem ReportsSuccess.not_readsFailure (h : ReportsSuccess entry) : ¬ReadsFailure entry := by
  intro hreads
  cases hreads.2 _ h

/-- What the loop makes of an entry: a success, an exception, or a failure. -/
theorem individualResult_cases (js : JsonRuntime) (hentry : members.lookup eventId = some entry) :
    ¬ReadsFailure entry ∧ individualResult js (.obj members) eventId = some delivered ∨
      ErrorThrows js entry ∧ individualResult js (.obj members) eventId = none ∨
      ReadsFailure entry ∧ ¬ErrorThrows js entry ∧
        ∃ result, individualResult js (.obj members) eventId = some result ∧
          result.success = false := by
  have hmember : (Json.obj members).member? eventId = some entry := hentry
  by_cases htruthy : entry.truthy = true
  · have hfound : ((Json.obj members).member? eventId).filter Json.truthy = some entry := by
      rw [hmember, Option.filter_some, if_pos htruthy]
    by_cases hsuccess : (entry.member? "success").any Json.truthy = true
    · refine Or.inl ⟨fun h => ?_, ?_⟩
      · obtain ⟨success, hmem, htrue⟩ := (Option.any_eq_true _ _).mp hsuccess
        rw [h.2 success hmem] at htrue
        cases htrue
      · simp only [individualResult, hfound, hsuccess, if_true]
    · have hfails : ReadsFailure entry := by
        refine ⟨htruthy, fun success hmem => ?_⟩
        rw [hmem, Option.any_some] at hsuccess
        exact Bool.eq_false_iff.mpr hsuccess
      right
      simp only [individualResult, hfound, if_neg hsuccess]
      cases herror : (entry.member? "error").filter Json.truthy with
      | none =>
        refine Or.inr ⟨hfails, fun h => ?_, _, rfl, rfl⟩
        obtain ⟨-, error, hmem, htrue, -⟩ := h
        rw [hmem, Option.filter_some, if_pos htrue] at herror
        cases herror
      | some error =>
        obtain ⟨hmem, htrue⟩ := Option.filter_eq_some_iff.mp herror
        cases htext : error.toText js with
        | none =>
          exact Or.inl ⟨⟨hfails, error, hmem, htrue, htext⟩, by simp [htext]⟩
        | some message =>
          refine Or.inr ⟨hfails, fun h => ?_, _, by simp [htext]; rfl, rfl⟩
          obtain ⟨-, error', hmem', -, hnone⟩ := h
          obtain rfl := Option.some.inj (hmem.symm.trans hmem')
          rw [htext] at hnone
          cases hnone
  · refine Or.inl ⟨fun h => htruthy h.1, ?_⟩
    rw [individualResult, hmember, Option.filter_some, if_neg htruthy]

theorem individualResult_of_no_entry (js : JsonRuntime) (h : members.lookup eventId = none) :
    individualResult js (.obj members) eventId = some delivered := by
  have hmember : (Json.obj members).member? eventId = none := h
  rw [individualResult, hmember]
  rfl

/-- The loop ends in an exception at an entry whose error has no text. -/
theorem individualResult_eq_none_iff :
    individualResult js (.obj members) eventId = none ↔
      ∃ entry, members.lookup eventId = some entry ∧ ErrorThrows js entry := by
  cases hentry : members.lookup eventId with
  | none => simp [individualResult_of_no_entry js hentry]
  | some entry =>
    rcases individualResult_cases js hentry with ⟨hnot, heq⟩ | ⟨hthrows, heq⟩ | ⟨-, hnot, _, heq, -⟩
    · simpa [heq] using fun h : ErrorThrows js entry => hnot h.1
    · simp [heq, hthrows]
    · simp [heq, hnot]

/-! ## One answer -/

variable {responseBody : String} {eventIds : List EventId} {parsed : Json}

/-- The results of a body with an object of results. -/
theorem parseIndividualResults_eq (hparse : js.parse responseBody = some parsed)
    (hresults : parsed.member? "results" = some (.obj members)) :
    parseIndividualResults js responseBody eventIds =
      (eventIds.mapM fun eventId =>
        (individualResult js (.obj members) eventId).map fun result => (eventId, result)).map
          (OrderedMap.ofList Prod.fst Prod.snd) := by
  rw [parseIndividualResults, hparse, Option.bind_eq_bind, Option.bind_some, hresults]
  show Option.bind _ _ = _
  rw [Option.bind_some]
  show Option.bind _ _ = _
  rw [Option.map_eq_bind]
  rfl

/-- An event with an entry is a success unless the entry is read as a failure
and the errors of all entries have texts. -/
theorem get?_batchResults_of_entry {statusCode : Nat} {eventId : EventId} (h : eventIds.Nodup)
    (hmem : eventId ∈ eventIds) (hlow : 200 ≤ statusCode) (hhigh : statusCode < 300)
    (hparse : js.parse responseBody = some parsed)
    (hresults : parsed.member? "results" = some (.obj members))
    (hentry : members.lookup eventId = some entry) :
    ∃ result, (batchResults js eventIds (.answer statusCode responseBody)).get? eventId =
        some result ∧
      (result.success = true ↔ ¬ReadsFailure entry ∨
        ∃ other ∈ eventIds, ∃ entry', members.lookup other = some entry' ∧
          ErrorThrows js entry') := by
  rw [batchResults, if_pos ⟨hlow, hhigh⟩, parseIndividualResults_eq hparse hresults]
  cases hpairs : eventIds.mapM fun eventId =>
      (individualResult js (.obj members) eventId).map fun result => (eventId, result) with
  | none =>
    -- The exception of one entry makes the body count as one without results.
    obtain ⟨other, hother, hthrows⟩ := OrderedMap.mapM_eq_none_iff.mp hpairs
    refine ⟨delivered, ?_, fun _ => ?_, fun _ => rfl⟩
    · show (OrderedMap.ofList id (fun _ => delivered) eventIds).get? (id eventId) = some delivered
      exact OrderedMap.get?_ofList (fun _ => delivered) (by rwa [List.map_id]) hmem
    · exact Or.inr ⟨other, hother, individualResult_eq_none_iff.mp hthrows⟩
  | some pairs =>
    have hkeys := OrderedMap.keys_of_mapM hpairs
    obtain ⟨result, hresult, hpair⟩ := OrderedMap.mem_of_mapM hpairs hmem
    have hnone : ¬∃ other ∈ eventIds, ∃ entry', members.lookup other = some entry' ∧
        ErrorThrows js entry' := by
      intro hthrows
      obtain ⟨other, hother, hthrows⟩ := hthrows
      obtain ⟨result', hresult', -⟩ := OrderedMap.mem_of_mapM hpairs hother
      rw [individualResult_eq_none_iff.mpr hthrows] at hresult'
      cases hresult'
    refine ⟨result, ?_, ?_⟩
    · show (OrderedMap.ofList Prod.fst Prod.snd pairs).get? (Prod.fst (eventId, result)) = _
      exact OrderedMap.get?_ofList Prod.snd (hkeys ▸ h) hpair
    · rw [or_iff_left hnone]
      rcases individualResult_cases js hentry with
        ⟨hnot, heq⟩ | ⟨-, heq⟩ | ⟨hreads, -, _, heq, hfails⟩
      · obtain rfl := Option.some.inj (heq.symm.trans hresult)
        exact iff_of_true rfl hnot
      · rw [heq] at hresult
        cases hresult
      · obtain rfl := Option.some.inj (heq.symm.trans hresult)
        exact iff_of_false (by simp [hfails]) (not_not_intro hreads)

/-! ## The batch -/

/-- `publish` reports an event as its entry does if the entry reports a
success, or if it is read as a failure and the errors of all entries for the
same request have texts. -/
theorem respects_iff (js : JsonRuntime) (events : List OutboxEvent)
    (settled : List (String × RequestOutcome)) (hids : (events.map OutboxEvent.id).Nodup)
    (hsettles : Settles events settled) {event : OutboxEvent} (hevent : event ∈ events)
    {members : List (String × Json)} (hanswer : AnswersWith js settled event.destinationUrl members)
    {entry : Json} (hentry : members.lookup event.id = some entry) :
    Respects js events settled event entry ↔
      ReportsSuccess entry ∨ ReadsFailure entry ∧
        ∀ other ∈ eventsFor events event.destinationUrl, ∀ entry' ∈ members.lookup other.id,
          ¬ErrorThrows js entry' := by
  obtain ⟨statusCode, responseBody, parsed, hsettled, hlow, hhigh, hparse, hresults⟩ := hanswer
  obtain ⟨results, hpublish, hs⟩ := exists_publish js hids hsettles
  obtain ⟨result, hresult, hsuccess⟩ := get?_batchResults_of_entry
    (nodup_eventsFor hids event.destinationUrl)
    (List.mem_map_of_mem (mem_eventsFor_iff.mpr ⟨hevent, rfl⟩)) hlow hhigh hparse hresults hentry
  rw [← get?_results hs hevent hsettled] at hresult
  have hrespects : Respects js events settled event entry ↔
      (result.success = true ↔ ReportsSuccess entry) := by
    constructor
    · intro h
      obtain ⟨results', result', hpublish', hresult', h⟩ := h
      obtain rfl := Option.some.inj (hpublish'.symm.trans hpublish)
      obtain rfl := Option.some.inj (hresult'.symm.trans hresult)
      exact h
    · exact fun h => ⟨results, result, hpublish, hresult, h⟩
  rw [hrespects, hsuccess]
  by_cases hreports : ReportsSuccess entry
  · exact iff_of_true (iff_of_true (Or.inl hreports.not_readsFailure) hreports) (Or.inl hreports)
  · rw [iff_false_right hreports, not_or, not_not, or_iff_right hreports]
    refine and_congr_right fun _ => ?_
    constructor
    · exact fun h other hother entry' hentry' hthrows =>
        h ⟨other.id, List.mem_map_of_mem hother, entry', hentry', hthrows⟩
    · intro h hthrows
      obtain ⟨id, hid, entry', hentry', hthrows⟩ := hthrows
      obtain ⟨other, hother, rfl⟩ := List.mem_map.mp hid
      exact h other hother entry' hentry' hthrows

namespace Sample

/-- An entry that refuses its event. -/
def refusal : Json := .obj [("success", .bool false), ("error", .str "Invalid order")]

/-- A success in the form of a text. -/
def quoted : Json := .obj [("success", .str "false")]

/-- A refusal with an object for an error. -/
def unprintable : Json :=
  .obj [("success", .bool false), ("error", .obj [("toString", .num 1)])]

/-- The bodies of the answers below. -/
def bodies (members : List (String × Json)) : JsonRuntime where
  parse _ := some (.obj [("results", .obj members)])
  numberText n := toString n

def pair : List OutboxEvent := [posted "1" "http://a" .null, posted "2" "http://a" .null]

end Sample

/-- Two entries refuse their events. -/
theorem respects_refusal :
    Respects (Sample.bodies [("1", Sample.refusal), ("2", Sample.refusal)]) Sample.pair
      Sample.answered (Sample.posted "1" "http://a" .null) Sample.refusal := by
  refine (respects_iff _ Sample.pair Sample.answered (by decide) ⟨by decide, fun url => ?_⟩
    List.mem_cons_self ⟨200, "{}", _, List.mem_singleton_self _, by decide, by decide, rfl, rfl⟩
    rfl).mpr (Or.inr ⟨⟨rfl, fun success h => ?_⟩, fun other hother entry' h hthrows => ?_⟩)
  · show url ∈ ["http://a"] ↔ url ∈ ["http://a", "http://a"]
    simp
  · obtain rfl := Option.some.inj h
    rfl
  · obtain ⟨-, error, herror, -, hnone⟩ := hthrows
    have hrefusal : entry' = Sample.refusal := by
      rcases List.mem_cons.mp (mem_eventsFor_iff.mp hother).1 with rfl | hother
      · exact (Option.some.inj h).symm
      · obtain rfl := List.mem_singleton.mp hother
        exact (Option.some.inj h).symm
    subst hrefusal
    obtain rfl := Option.some.inj herror
    cases hnone

/-- An event that is reported as a success although its entry reports none. -/
theorem not_respects_of_delivered {events : List OutboxEvent}
    {settled : List (String × RequestOutcome)} {event : OutboxEvent} {entry : Json}
    (h : (publish js events settled).bind (fun results => results.get? event.id) = some delivered)
    (hentry : ¬ReportsSuccess entry) : ¬Respects js events settled event entry := by
  intro hrespects
  obtain ⟨results, result, hpublish, hresult, hiff⟩ := hrespects
  rw [hpublish, Option.bind_some, hresult] at h
  obtain rfl := Option.some.inj h
  exact hentry (hiff.mp rfl)

/-- An entry that is `null`, one whose success is a text, and a refusal beside
one whose error has no text are all turned into successes. -/
theorem not_respectsEntries :
    ¬RespectsEntries (Sample.bodies [("1", .null)]) Sample.single Sample.answered ∧
    ¬RespectsEntries (Sample.bodies [("1", Sample.quoted)]) Sample.single Sample.answered ∧
    ¬RespectsEntries (Sample.bodies [("1", Sample.refusal), ("2", Sample.unprintable)])
      Sample.pair Sample.answered := by
  have hanswer : ∀ members,
      AnswersWith (Sample.bodies members) Sample.answered "http://a" members :=
    fun members => ⟨200, "{}", _, List.mem_singleton_self _, by decide, by decide, rfl, rfl⟩
  refine ⟨fun h => ?_, fun h => ?_, fun h => ?_⟩
  · refine not_respects_of_delivered rfl (fun hreports => ?_)
      (h _ (List.mem_singleton_self _) _ (hanswer _) .null rfl)
    cases hreports
  · refine not_respects_of_delivered rfl (fun hreports => ?_)
      (h _ (List.mem_singleton_self _) _ (hanswer _) Sample.quoted rfl)
    cases hreports
  · refine not_respects_of_delivered rfl (fun hreports => ?_)
      (h _ List.mem_cons_self _ (hanswer _) Sample.refusal rfl)
    cases hreports

end HttpPublisher

end Outboxy
