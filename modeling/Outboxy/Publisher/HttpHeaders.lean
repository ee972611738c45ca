import Outboxy.Publisher.HttpDelivery

/-!
# The headers of a request

A request carries the headers of the publisher and those that the first of its
events forwards.  `systemHeadersWin_iff` says when the publisher's own headers
are the only ones of their names in whatever spelling, and
`headersIsolated_iff` when each event is delivered with its own headers and no
others: only if no two events are for one destination.
-/

namespace Outboxy

namespace HttpPublisher

/-- The headers of the publisher win: a blocked name comes from the publisher,
and a name that the publisher sets is there once, in whatever spelling. -/
structure SystemHeadersWin (publisher : HttpPublisher) (group : List OutboxEvent)
    (r : HttpRequest) : Prop where
  blocked : ∀ field ∈ r.headers.entries, toLowerCase field.1 ∈ BLOCKED_HEADERS →
    field ∈ publisher.systemHeaders group
  once : ∀ set ∈ publisher.systemHeaders group,
    r.headers.entries.filter (fun field => toLowerCase field.1 = toLowerCase set.1) = [set]

/-- The headers of an event have another spelling of a name that the publisher
sets and does not block. -/
def OtherSpelling (headers : Json) : Prop :=
  ∃ members key value, headers = .obj members ∧ (key, .str value) ∈ members ∧
    ∃ name ∈ ["X-Outbox-Batch", "X-Outbox-Batch-Size", "X-Outbox-Event-IDs"],
      toLowerCase key = toLowerCase name ∧ key ≠ name

/-- The event with other headers, if it has this id. -/
def replaceHeaders (id : EventId) (headers : Json) (event : OutboxEvent) : OutboxEvent :=
  if event.id = id then { event with headers } else event

/-- A header that the event is to be delivered with: a text in its headers,
under a name that is not blocked. -/
def ForwardableHeader (event : OutboxEvent) (field : String × String) : Prop :=
  ∃ members, event.headers = .obj members ∧ (field.1, .str field.2) ∈ members ∧
    toLowerCase field.1 ∉ BLOCKED_HEADERS

/-- No name occurs twice in the headers of the event, as in every object. -/
def DistinctNames (event : OutboxEvent) : Prop :=
  ∀ members, event.headers = .obj members → (members.map Prod.fst).Nodup

/-- Each event is delivered with its own headers: they are on its request, no
other event's are, and a change of other headers does not show in them. -/
structure HeadersIsolated (publisher : HttpPublisher) (events : List OutboxEvent) : Prop where
  own : ∀ event ∈ events, ∀ r ∈ publisher.requests events,
    event.id ∈ r.body.events.map PayloadEvent.eventId →
      ∀ field, ForwardableHeader event field → field ∈ r.headers.entries
  noOther : ∀ event ∈ events, ∀ r ∈ publisher.requests events,
    event.id ∈ r.body.events.map PayloadEvent.eventId →
      ∀ field ∈ r.headers.entries,
        field ∈ publisher.systemHeaders (eventsFor events r.url) ∨ ForwardableHeader event field
  unchanged : ∀ event ∈ events, ∀ headers, ∀ other ∈ events, other.id ≠ event.id →
    ∀ r ∈ publisher.requests events, other.id ∈ r.body.events.map PayloadEvent.eventId →
      ∀ r' ∈ publisher.requests (events.map (replaceHeaders event.id headers)),
        other.id ∈ r'.body.events.map PayloadEvent.eventId → r.headers = r'.headers

/-- No text of the event is under the name `__proto__`, to which a text cannot
be assigned, and one under a name that the publisher sets is what the publisher
sets it to. -/
def ForwardsNoOther (publisher : HttpPublisher) (event : OutboxEvent) : Prop :=
  ∀ field, ForwardableHeader event field → field.1 ≠ "__proto__" ∧
    (field.1 ∈ (publisher.systemHeaders [event]).map Prod.fst →
      field ∈ publisher.systemHeaders [event])

/-! ## Forwarded headers -/

variable {publisher : HttpPublisher} {events group : List OutboxEvent} {url : String}
  {headers : Json} {first event : OutboxEvent}

/-- A header that is forwarded is a text of the event under a name that is not
blocked, and that can be assigned. -/
theorem of_mem_forwardable {field : String × String}
    (h : field ∈ (extractForwardableHeaders headers).entries) :
    ∃ members, headers = .obj members ∧ (field.1, .str field.2) ∈ members ∧
      toLowerCase field.1 ∉ BLOCKED_HEADERS ∧ field.1 ≠ "__proto__" := by
  cases headers with
  | obj members =>
    obtain ⟨pair, hpair, rfl⟩ := OrderedMap.mem_of_mem_entries_ofList h
    obtain ⟨⟨key, json⟩, hmem, hforward⟩ := List.mem_filterMap.mp hpair
    cases json with
    | str value =>
      rw [forwardable] at hforward
      split at hforward
      · cases hforward
      · rename_i hnot
        obtain rfl := Option.some.inj hforward
        obtain ⟨hblocked, hproto⟩ := not_or.mp hnot
        exact ⟨members, rfl, hmem, hblocked, hproto⟩
    | _ => cases hforward
  | _ => cases h

/-- A text under a name that is not blocked is forwarded. -/
theorem exists_mem_forwardable {members : List (String × Json)} {key value : String}
    (hmem : (key, .str value) ∈ members) (hblocked : toLowerCase key ∉ BLOCKED_HEADERS)
    (hproto : key ≠ "__proto__") :
    ∃ value', (key, value') ∈ (extractForwardableHeaders (.obj members)).entries := by
  refine OrderedMap.exists_mem_entries_ofList Prod.fst Prod.snd (x := (key, value))
    (List.mem_filterMap.mpr ⟨_, hmem, ?_⟩)
  rw [forwardable, if_neg]
  intro h
  rcases h with h | h
  · exact hblocked h
  · exact hproto h

/-- An event forwards its headers but one under `__proto__`. -/
theorem mem_forwardable_iff (hnames : DistinctNames event) {field : String × String} :
    field ∈ (extractForwardableHeaders event.headers).entries ↔
      ForwardableHeader event field ∧ field.1 ≠ "__proto__" := by
  constructor
  · intro h
    obtain ⟨members, hheaders, hmem, hblocked, hproto⟩ := of_mem_forwardable h
    exact ⟨⟨members, hheaders, hmem, hblocked⟩, hproto⟩
  · rintro ⟨⟨members, hheaders, hmem, hblocked⟩, hproto⟩
    obtain ⟨value, hforwarded⟩ := exists_mem_forwardable hmem hblocked hproto
    rw [← hheaders] at hforwarded
    obtain ⟨members', hheaders', hmem', -⟩ := of_mem_forwardable hforwarded
    obtain rfl := Json.obj.inj (hheaders.symm.trans hheaders')
    -- Its name has one value only.
    have hvalue := List.inj_on_of_nodup_map (hnames members hheaders) hmem hmem' rfl
    obtain rfl := Json.str.inj (congrArg Prod.snd hvalue)
    exact hforwarded

/-! ## The publisher's own headers -/

/-- A name of the publisher that is not blocked is one of three. -/
theorem outbox_name_of_not_blocked {set : String × String}
    (hset : set ∈ publisher.systemHeaders group)
    (hblocked : toLowerCase set.1 ∉ BLOCKED_HEADERS) :
    set.1 ∈ ["X-Outbox-Batch", "X-Outbox-Batch-Size", "X-Outbox-Event-IDs"] := by
  have hnames : ∀ name ∈ (publisher.systemHeaders group).map Prod.fst,
      toLowerCase name ∉ BLOCKED_HEADERS →
        name ∈ ["X-Outbox-Batch", "X-Outbox-Batch-Size", "X-Outbox-Event-IDs"] := by
    show ∀ name ∈ ["Content-Type", "User-Agent", "X-Outbox-Batch", "X-Outbox-Batch-Size",
      "X-Outbox-Event-IDs"], _
    decide
  exact hnames set.1 (List.mem_map_of_mem hset) hblocked

/-- The three names are set by the publisher. -/
theorem exists_mem_systemHeaders (publisher : HttpPublisher) (group : List OutboxEvent)
    {name : String}
    (h : name ∈ ["X-Outbox-Batch", "X-Outbox-Batch-Size", "X-Outbox-Event-IDs"]) :
    ∃ value, (name, value) ∈ publisher.systemHeaders group := by
  have hnames : name ∈ (publisher.systemHeaders group).map Prod.fst := by
    show name ∈ ["Content-Type", "User-Agent", "X-Outbox-Batch", "X-Outbox-Batch-Size",
      "X-Outbox-Event-IDs"]
    exact List.mem_cons_of_mem _ (List.mem_cons_of_mem _ h)
  obtain ⟨set, hset, rfl⟩ := List.mem_map.mp hnames
  exact ⟨set.2, hset⟩

/-- Another spelling goes out beside the header that the publisher sets. -/
theorem not_otherSpelling_of_win (hfirst : group.head? = some first)
    (hwin : SystemHeadersWin publisher group (publisher.request url group)) :
    ¬OtherSpelling first.headers := by
  intro hspelling
  obtain ⟨members, key, value, hheaders, hmem, name, hname, hspells, hne⟩ := hspelling
  obtain ⟨set, hset⟩ := exists_mem_systemHeaders publisher group hname
  have hplain : ∀ name ∈ ["X-Outbox-Batch", "X-Outbox-Batch-Size", "X-Outbox-Event-IDs"],
      toLowerCase name ∉ BLOCKED_HEADERS ∧ toLowerCase "__proto__" ≠ toLowerCase name := by
    decide
  obtain ⟨value', hforwarded⟩ := exists_mem_forwardable hmem (hspells ▸ (hplain name hname).1)
    fun hproto => (hplain name hname).2 (hproto ▸ hspells)
  have hnot : key ∉ (publisher.systemHeaders group).map Prod.fst := by
    intro hkey
    obtain ⟨own, hown, rfl⟩ := List.mem_map.mp hkey
    rw [List.inj_on_of_nodup_map (nodup_systemHeaders publisher group) hown hset hspells] at hne
    exact hne rfl
  have hfield : (key, value') ∈ (publisher.request url group).headers.entries :=
    (mem_headers_iff hfirst).mpr (Or.inr ⟨hheaders ▸ hforwarded, hnot⟩)
  have hone : (key, value') ∈ [(name, set)] := by
    rw [← hwin.once _ hset, List.mem_filter]
    exact ⟨hfield, decide_eq_true hspells⟩
  exact hne (congrArg Prod.fst (List.mem_singleton.mp hone))

/-- A blocked name is the publisher's own. -/
theorem mem_systemHeaders_of_blocked (hfirst : group.head? = some first) {field : String × String}
    (hfield : field ∈ (publisher.request url group).headers.entries)
    (hblocked : toLowerCase field.1 ∈ BLOCKED_HEADERS) : field ∈ publisher.systemHeaders group := by
  rcases (mem_headers_iff hfirst).mp hfield with hset | ⟨hforwarded, -⟩
  · exact hset
  · obtain ⟨-, -, -, hnot, -⟩ := of_mem_forwardable hforwarded
    exact absurd hblocked hnot

/-- Without another spelling, a header under the name of one that the publisher
sets is that one. -/
theorem eq_of_not_otherSpelling (hfirst : group.head? = some first)
    (hspelling : ¬OtherSpelling first.headers) {field set : String × String}
    (hfield : field ∈ (publisher.request url group).headers.entries)
    (hset : set ∈ publisher.systemHeaders group)
    (hspells : toLowerCase field.1 = toLowerCase set.1) : field = set := by
  have hlower := nodup_systemHeaders publisher group
  by_cases hblocked : toLowerCase set.1 ∈ BLOCKED_HEADERS
  · exact List.inj_on_of_nodup_map hlower
      (mem_systemHeaders_of_blocked hfirst hfield (hspells ▸ hblocked)) hset hspells
  · rcases (mem_headers_iff hfirst).mp hfield with hfield | ⟨hforwarded, hnot⟩
    · exact List.inj_on_of_nodup_map hlower hfield hset hspells
    · -- A forwarded header under this name has another spelling of it.
      obtain ⟨members, hheaders, hmem, -⟩ := of_mem_forwardable hforwarded
      exact absurd ⟨members, field.1, field.2, hheaders, hmem, set.1,
        outbox_name_of_not_blocked hset hblocked, hspells,
        fun heq => hnot (heq ▸ List.mem_map_of_mem hset)⟩ hspelling

/-- The publisher's headers win on a request unless its first event has
another spelling of one. -/
theorem request_systemHeadersWin_iff (hfirst : group.head? = some first) :
    SystemHeadersWin publisher group (publisher.request url group) ↔
      ¬OtherSpelling first.headers := by
  refine ⟨not_otherSpelling_of_win hfirst, fun hspelling => ?_⟩
  refine ⟨fun field => mem_systemHeaders_of_blocked hfirst, fun set hset => ?_⟩
  refine (OrderedMap.filter_entries_eq_singleton_iff
    (nodup_keys_headers publisher url group)).mpr ?_
  refine ⟨(mem_headers_iff hfirst).mpr (Or.inl hset), decide_eq_true rfl,
    fun field hfield hspells => ?_⟩
  exact eq_of_not_otherSpelling hfirst hspelling hfield hset (of_decide_eq_true hspells)

/-- The publisher's headers win on every request unless the first event for a
destination has another spelling of one. -/
theorem systemHeadersWin_iff (publisher : HttpPublisher) (events : List OutboxEvent) :
    (∀ r ∈ publisher.requests events,
        SystemHeadersWin publisher (eventsFor events r.url) r) ↔
      ∀ url, ∀ first ∈ (eventsFor events url).head?, ¬OtherSpelling first.headers := by
  constructor
  · intro h url first hfirst
    obtain ⟨hmem, rfl⟩ := mem_eventsFor_iff.mp (List.mem_of_head? hfirst)
    exact (request_systemHeadersWin_iff hfirst).mp (h _ (request_mem_requests publisher hmem))
  · intro h r hr
    obtain ⟨url, hurl, rfl⟩ := mem_requests_iff.mp hr
    obtain ⟨first, hfirst⟩ := exists_head?_eventsFor hurl
    exact (request_systemHeadersWin_iff hfirst).mpr (h url first hfirst)

/-- A request can have a size in lower case beside the publisher's. -/
theorem not_systemHeadersWin :
    ¬∀ r ∈ HttpPublisher.requests ⟨{}⟩ Sample.forwarded,
      SystemHeadersWin ⟨{}⟩ (eventsFor Sample.forwarded r.url) r := by
  intro h
  have hwin := h (HttpPublisher.request ⟨{}⟩ "http://a" Sample.forwarded)
    (List.mem_singleton_self _)
  exact absurd (hwin.once ("X-Outbox-Batch-Size", "1") (by decide)) (by decide)

/-! ## Isolation -/

variable {id : EventId} {other : OutboxEvent}

@[simp] theorem id_replaceHeaders : (replaceHeaders id headers event).id = event.id := by
  unfold replaceHeaders
  split <;> rfl

@[simp] theorem destinationUrl_replaceHeaders :
    (replaceHeaders id headers event).destinationUrl = event.destinationUrl := by
  unfold replaceHeaders
  split <;> rfl

theorem replaceHeaders_of_ne (h : event.id ≠ id) : replaceHeaders id headers event = event :=
  if_neg h

theorem nodup_ids_replaceHeaders (hids : (events.map OutboxEvent.id).Nodup) :
    ((events.map (replaceHeaders id headers)).map OutboxEvent.id).Nodup := by
  have hsame : (events.map (replaceHeaders id headers)).map OutboxEvent.id =
      events.map OutboxEvent.id := by
    rw [List.map_map]
    exact List.map_congr_left fun event _ => id_replaceHeaders
  exact hsame ▸ hids

/-- Other headers leave the events where they are. -/
theorem eventsFor_replaceHeaders :
    eventsFor (events.map (replaceHeaders id headers)) url =
      (eventsFor events url).map (replaceHeaders id headers) := by
  rw [eventsFor, List.filter_map]
  congr 1
  refine List.filter_congr fun event _ => ?_
  rw [Function.comp_apply, destinationUrl_replaceHeaders]

/-- The request for an event when the headers of another are replaced. -/
theorem eq_request_of_mem_replaceHeaders (hids : (events.map OutboxEvent.id).Nodup)
    (hother : other ∈ events) (hne : other.id ≠ id) {r : HttpRequest}
    (hr : r ∈ publisher.requests (events.map (replaceHeaders id headers)))
    (hid : other.id ∈ r.body.events.map PayloadEvent.eventId) :
    r = publisher.request other.destinationUrl
      ((eventsFor events other.destinationUrl).map (replaceHeaders id headers)) := by
  have hmem : other ∈ events.map (replaceHeaders id headers) :=
    List.mem_map.mpr ⟨other, hother, replaceHeaders_of_ne hne⟩
  rw [eq_request_of_mem (nodup_ids_replaceHeaders hids) hmem hr hid, eventsFor_replaceHeaders]

/-- If a change of other headers never shows, the first event for a
destination is the only one. -/
theorem HeadersIsolated.eq_first (h : HeadersIsolated publisher events)
    (hids : (events.map OutboxEvent.id).Nodup)
    (hfirst : (eventsFor events other.destinationUrl).head? = some first)
    (hother : other ∈ events) : other = first := by
  by_contra hdistinct
  have hmem := (mem_eventsFor_iff.mp (List.mem_of_head? hfirst)).1
  have hne : other.id ≠ first.id := fun heq =>
    hdistinct (List.inj_on_of_nodup_map hids hother hmem heq)
  -- Whatever the first event forwards, the headers for the other event are the same.
  have hsame : ∀ headers,
      (publisher.request other.destinationUrl (eventsFor events other.destinationUrl)).headers =
        (publisher.request other.destinationUrl
          ((eventsFor events other.destinationUrl).map
            (replaceHeaders first.id headers))).headers := by
    intro headers
    have hold := request_mem_requests publisher hother
    have hchanged : other ∈ events.map (replaceHeaders first.id headers) :=
      List.mem_map.mpr ⟨other, hother, replaceHeaders_of_ne hne⟩
    have hnew := request_mem_requests publisher hchanged
    rw [← eventsFor_replaceHeaders]
    exact h.unchanged first hmem headers other hother hne _ hold
      ((mem_request_iff hids hother).mpr rfl) _ hnew
      ((mem_request_iff (nodup_ids_replaceHeaders hids) hchanged).mpr rfl)
  have hhead : ∀ headers, ((eventsFor events other.destinationUrl).map
      (replaceHeaders first.id headers)).head? = some { first with headers } := by
    intro headers
    rw [List.head?_map, hfirst, Option.map_some]
    exact congrArg some (if_pos rfl)
  have hforwarded : ("a", "1") ∈ (publisher.request other.destinationUrl
      ((eventsFor events other.destinationUrl).map
        (replaceHeaders first.id (.obj [("a", .str "1")])))).headers.entries :=
    (mem_headers_iff (hhead _)).mpr (Or.inr ⟨List.mem_singleton_self _, by simp [systemHeaders]⟩)
  rw [← hsame, hsame (.obj [])] at hforwarded
  rcases (mem_headers_iff (hhead _)).mp hforwarded with hset | ⟨hnone, -⟩
  · simp [systemHeaders] at hset
  · cases hnone

/-- An event that shares its destination with no other is alone on its
request. -/
theorem eventsFor_eq_singleton (hurls : (events.map OutboxEvent.destinationUrl).Nodup)
    (hevent : event ∈ events) : eventsFor events event.destinationUrl = [event] := by
  have hnodup : (eventsFor events event.destinationUrl).Nodup :=
    (List.Nodup.of_map _ hurls).filter _
  refine List.perm_singleton.mp ((List.perm_ext_iff_of_nodup hnodup
    (List.nodup_singleton event)).mpr fun found => ?_)
  rw [mem_eventsFor_iff, List.mem_singleton]
  constructor
  · exact fun h => List.inj_on_of_nodup_map hurls h.1 hevent h.2
  · intro h
    subst h
    exact ⟨hevent, rfl⟩

/-- The publisher sets no header `__proto__`. -/
theorem ne_proto_of_mem_systemHeaders {field : String × String}
    (h : field ∈ publisher.systemHeaders group) : field.1 ≠ "__proto__" := by
  have hnames : ∀ name ∈ (publisher.systemHeaders group).map Prod.fst, name ≠ "__proto__" := by
    show ∀ name ∈ ["Content-Type", "User-Agent", "X-Outbox-Batch", "X-Outbox-Batch-Size",
      "X-Outbox-Event-IDs"], name ≠ "__proto__"
    decide
  exact hnames field.1 (List.mem_map_of_mem h)

/-- An event that is alone on its request has its headers there just when it
forwards nothing that the publisher sets otherwise. -/
theorem forall_mem_headers_iff (hnames : DistinctNames event) :
    (∀ field, ForwardableHeader event field →
        field ∈ (publisher.request url [event]).headers.entries) ↔
      ForwardsNoOther publisher event := by
  constructor
  · intro h field hfield
    rcases (mem_headers_iff rfl).mp (h field hfield) with hset | ⟨hforwarded, hnot⟩
    · exact ⟨ne_proto_of_mem_systemHeaders hset, fun _ => hset⟩
    · exact ⟨((mem_forwardable_iff hnames).mp hforwarded).2, fun hname => absurd hname hnot⟩
  · intro h field hfield
    obtain ⟨hproto, hset⟩ := h field hfield
    refine (mem_headers_iff rfl).mpr ?_
    by_cases hname : field.1 ∈ (publisher.systemHeaders [event]).map Prod.fst
    · exact Or.inl (hset hname)
    · exact Or.inr ⟨(mem_forwardable_iff hnames).mpr ⟨hfield, hproto⟩, hname⟩

/-- Each event is delivered with its own headers just when no two events are
for one destination, and none has a header that cannot be on a request. -/
theorem headersIsolated_iff (publisher : HttpPublisher) (events : List OutboxEvent)
    (hids : (events.map OutboxEvent.id).Nodup) (hnames : ∀ event ∈ events, DistinctNames event) :
    HeadersIsolated publisher events ↔
      (events.map OutboxEvent.destinationUrl).Nodup ∧
        ∀ event ∈ events, ForwardsNoOther publisher event := by
  constructor
  · intro h
    have hurls : (events.map OutboxEvent.destinationUrl).Nodup := by
      refine (List.nodup_map_iff_inj_on (List.Nodup.of_map _ hids)).mpr ?_
      intro event hevent other hother hurl
      obtain ⟨first, hfirst⟩ := exists_head?_eventsFor (List.mem_map_of_mem hevent)
      rw [h.eq_first hids hfirst hevent, h.eq_first hids (hurl ▸ hfirst) hother]
    refine ⟨hurls, fun event hevent => ?_⟩
    have hown := h.own event hevent _ (request_mem_requests publisher hevent)
      ((mem_request_iff hids hevent).mpr rfl)
    rw [eventsFor_eq_singleton hurls hevent] at hown
    exact (forall_mem_headers_iff (hnames event hevent)).mp hown
  · intro h
    obtain ⟨hurls, hno⟩ := h
    refine ⟨fun event hevent r hr hid => ?_,
      fun event hevent r hr hid field hfield => ?_,
      fun event hevent headers other hother hne r hr hid r' hr' hid' => ?_⟩
    · rw [eq_request_of_mem hids hevent hr hid, eventsFor_eq_singleton hurls hevent]
      exact (forall_mem_headers_iff (hnames event hevent)).mpr (hno event hevent)
    · rw [eq_request_of_mem hids hevent hr hid] at hfield ⊢
      show field ∈ publisher.systemHeaders (eventsFor events event.destinationUrl) ∨ _
      rw [eventsFor_eq_singleton hurls hevent] at hfield ⊢
      refine ((mem_headers_iff rfl).mp hfield).imp_right fun h => ?_
      exact ((mem_forwardable_iff (hnames event hevent)).mp h.1).1
    · rw [eq_request_of_mem hids hother hr hid,
        eq_request_of_mem_replaceHeaders hids hother hne hr' hid',
        eventsFor_eq_singleton hurls hother, List.map_singleton, replaceHeaders_of_ne hne]

namespace Sample

/-- An event with a trace id beside one with another trace id, for the same
destination. -/
def traced : List OutboxEvent :=
  [posted "1" "http://a" (.obj [("traceparent", .str "00-1")]),
    posted "2" "http://a" (.obj [("traceparent", .str "00-2")])]

/-- The same events for two destinations. -/
def apart : List OutboxEvent :=
  [posted "1" "http://a" (.obj [("traceparent", .str "00-1")]),
    posted "2" "http://b" (.obj [("traceparent", .str "00-2")])]

end Sample

/-- Two traced events for two destinations. -/
theorem headersIsolated_apart : HeadersIsolated ⟨{}⟩ Sample.apart := by
  have htraced : ∀ event ∈ Sample.apart,
      ∃ value, event.headers = .obj [("traceparent", .str value)] := by
    simp [Sample.apart, Sample.posted, InsertValues.row]
  refine (headersIsolated_iff ⟨{}⟩ Sample.apart (by decide) fun event hevent members h => ?_).mpr
    ⟨by decide, fun event hevent field hfield => ?_⟩
  · obtain ⟨value, hvalue⟩ := htraced event hevent
    obtain rfl := Json.obj.inj (hvalue.symm.trans h)
    exact List.nodup_singleton _
  · obtain ⟨value, hvalue⟩ := htraced event hevent
    obtain ⟨members, h, hmem, -⟩ := hfield
    obtain rfl := Json.obj.inj (hvalue.symm.trans h)
    have hname : field.1 = "traceparent" :=
      congrArg Prod.fst (List.mem_singleton.mp hmem)
    rw [hname]
    refine ⟨by decide, fun hset => ?_⟩
    exact absurd hset (show "traceparent" ∉ ["Content-Type", "User-Agent", "X-Outbox-Batch",
      "X-Outbox-Batch-Size", "X-Outbox-Event-IDs"] by decide)

/-- The second of two traced events is delivered with the trace id of the
first. -/
theorem not_headersIsolated : ¬HeadersIsolated ⟨{}⟩ Sample.traced := by
  intro h
  have hrequest : HttpPublisher.request ⟨{}⟩ "http://a" Sample.traced ∈
      HttpPublisher.requests ⟨{}⟩ Sample.traced := List.mem_singleton_self _
  have hown := h.own _ (List.mem_cons_of_mem _ (List.mem_singleton_self _)) _ hrequest
    (by decide) ("traceparent", "00-2") ⟨_, rfl, List.mem_singleton_self _, by decide⟩
  exact absurd hown (by decide)

end HttpPublisher

end Outboxy
