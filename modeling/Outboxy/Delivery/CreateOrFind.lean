import Mathlib.Tactic.Tauto
import Outboxy.System

/-!
# The lookup before a create

`findByIdempotencyKey` is the lookup that prevents duplicates, and the unique
index is what `createEvent` meets.  The lookup passes over the soft-deleted
rows, which both indexes cover, and on MySQL over the succeeded rows, which
that index covers as well.  `lookupAgrees_iff` says that these rows are all
that the two disagree about.
-/

namespace Outboxy

/-- Result of `createEvent` and `findByIdempotencyKey`. -/
structure EventServiceResult where
  id : EventId
  status : EventStatus
  createdAt : Int

def OutboxEvent.serviceResult (row : OutboxEvent) : EventServiceResult :=
  ⟨row.id, row.status, row.createdAt⟩

namespace PgEventService

/-- The `WHERE` of `findByIdempotencyKey`. -/
def holdsKey (key : String) (row : OutboxEvent) : Bool :=
  decide (row.idempotencyKey = some key) && decide (row.status ≠ .succeeded) &&
    decide (row.deletedAt = none)

def findByIdempotencyKey (table : OutboxTable .postgres) (key : String) :
    Option EventServiceResult :=
  (table.rows.filter (holdsKey key)).head?.map OutboxEvent.serviceResult

end PgEventService

namespace MySQLEventService

/-- The `WHERE` of `findByIdempotencyKey`.  Texts compare by the column's
collation. -/
def holdsKey (key : String) (row : OutboxEvent) : Bool :=
  decide (row.idempotencyKey.map unicodeCi = some (unicodeCi key)) &&
    decide (row.status ≠ .succeeded) && decide (row.deletedAt = none)

def findByIdempotencyKey (table : OutboxTable .mysql) (key : String) :
    Option EventServiceResult :=
  (table.rows.filter (holdsKey key)).head?.map OutboxEvent.serviceResult

end MySQLEventService

namespace Adapter

def findByIdempotencyKey : (a : Adapter) → OutboxTable a → String → Option EventServiceResult
  | .postgres => PgEventService.findByIdempotencyKey
  | .mysql => MySQLEventService.findByIdempotencyKey

/-- The key under which the unique index finds a text. -/
def indexKey : Adapter → String → String
  | .postgres, key => key
  | .mysql, key => unicodeCi key

/-- `createEvent` on a table, `none` when a unique index rejects the row.
PostgreSQL returns its `NOW()` for the time of the creation, MySQL the date of
the client's clock. -/
def insertEvent (a : Adapter) (clock : Int) (id : EventId) (input : CreateEventInput)
    (table : OutboxTable a) : Option (EventServiceResult × OutboxTable a) :=
  (table.insert (a.createEvent clock id input)).map fun table' => (⟨id, .pending, clock⟩, table')

/-- The lookup, and `createEvent` when it finds nothing. -/
def findOrCreate (a : Adapter) (clock : Int) (id : EventId) (input : CreateEventInput)
    (key : String) (table : OutboxTable a) : Option (EventServiceResult × OutboxTable a) :=
  match a.findByIdempotencyKey table key with
  | some found => some (found, table)
  | none => a.insertEvent clock id input table

end Adapter

/-- The lookup sees the row. -/
def OutboxEvent.Visible (row : OutboxEvent) : Prop :=
  row.status ≠ .succeeded ∧ row.deletedAt = none

instance (row : OutboxEvent) : Decidable row.Visible := by
  unfold OutboxEvent.Visible
  infer_instance

/-- `createEvent` with a key fails exactly when the lookup returns an event.
So the lookup and then the create never end in a conflict, and never return an
event where a new one could be created. -/
structure LookupAgrees (a : Adapter) (clock : Int) (id : EventId) (input : CreateEventInput)
    (key : String) (table : OutboxTable a) : Prop where
  rejected_iff : a.insertEvent clock id input table = none ↔
    ∃ found, a.findByIdempotencyKey table key = some found
  noConflict : (a.findOrCreate clock id input key table).isSome
  noOldEvent : ∀ result, a.findOrCreate clock id input key table = some result →
    a.insertEvent clock id input table = some result ∨ a.insertEvent clock id input table = none

/-! ## What the lookup and the index see -/

theorem PgEventService.holdsKey_iff {key : String} {row : OutboxEvent} :
    PgEventService.holdsKey key row = true ↔
      Adapter.postgres.idempotencyIndex row = some key ∧ row.Visible := by
  simp only [PgEventService.holdsKey, Adapter.idempotencyIndex, OutboxEvent.Visible,
    Bool.and_eq_true, decide_eq_true_eq, and_assoc, Option.ite_none_left_eq_some]
  tauto

theorem MySQLEventService.holdsKey_iff {key : String} {row : OutboxEvent} :
    MySQLEventService.holdsKey key row = true ↔
      Adapter.mysql.idempotencyIndex row = some (unicodeCi key) ∧ row.Visible := by
  simp only [MySQLEventService.holdsKey, Adapter.idempotencyIndex, OutboxEvent.Visible,
    Bool.and_eq_true, decide_eq_true_eq, and_assoc]

theorem exists_first_iff {rows : List OutboxEvent} {p : OutboxEvent → Bool} :
    (∃ found, (rows.filter p).head?.map OutboxEvent.serviceResult = some found) ↔
      ∃ row ∈ rows, p row = true := by
  rw [← Option.isSome_iff_exists, Option.isSome_map, List.isSome_head?]
  simp

section

variable {a : Adapter} {table : OutboxTable a} {key : String} {clock : Int} {id : EventId}
  {input : CreateEventInput}

/-- The step of the system that creates an event leaves the same table. -/
theorem map_table_createEvent {s : State a} (huuid : isUuid id = true) :
    (s.createEvent id input).map State.table =
      (a.insertEvent s.clock id input s.table).map Prod.snd := by
  rw [State.createEvent, if_pos huuid, State.insert, Adapter.insertEvent, Option.map_map,
    Option.map_map]
  rfl

theorem exists_found_iff :
    (∃ found, a.findByIdempotencyKey table key = some found) ↔
      ∃ row ∈ table.rows, a.idempotencyIndex row = some (a.indexKey key) ∧ row.Visible := by
  cases a with
  | postgres =>
    refine exists_first_iff.trans (exists_congr fun row => and_congr_right fun _ => ?_)
    exact PgEventService.holdsKey_iff
  | mysql =>
    refine exists_first_iff.trans (exists_congr fun row => and_congr_right fun _ => ?_)
    exact MySQLEventService.holdsKey_iff

theorem idempotencyIndex_createEvent (hkey : input.idempotencyKey = some key) :
    a.idempotencyIndex (a.createEvent clock id input) = some (a.indexKey key) := by
  cases a <;> simp [Adapter.idempotencyIndex, Adapter.createEvent, PgEventService.createEvent,
    MySQLEventService.createEvent, InsertValues.row, CreateEventInput.values, hkey,
    Adapter.indexKey]

/-- With a fresh id, only the unique index can reject the new row. -/
theorem insertEvent_eq_none_iff (hkey : input.idempotencyKey = some key)
    (hfresh : table.lookup id = none) :
    a.insertEvent clock id input table = none ↔
      ∃ row ∈ table.rows, a.idempotencyIndex row = some (a.indexKey key) := by
  have hindex : a.idempotencyIndex (a.createEvent clock id input) = some (a.indexKey key) :=
    idempotencyIndex_createEvent hkey
  have hinsert : table.insert (a.createEvent clock id input) = none ↔
      table.conflict (a.createEvent clock id input) ≠ none := by
    have hsome := table.insert_isSome_iff (r := a.createEvent clock id input)
    rw [createEvent_id] at hsome
    rw [← Option.not_isSome_iff_eq_none, hsome]
    simp [hfresh]
  rw [Adapter.insertEvent, Option.map_eq_none_iff, hinsert, Option.ne_none_iff_exists']
  refine exists_congr fun row => ?_
  rw [Table.conflict_eq_some_iff, hindex]
  refine and_congr_right fun _ => ⟨And.left, fun h => ⟨h, _, h⟩⟩

/-- The lookup finds a row only where the index has it. -/
theorem insertEvent_of_found (hkey : input.idempotencyKey = some key)
    (hfresh : table.lookup id = none) {found : EventServiceResult}
    (hfound : a.findByIdempotencyKey table key = some found) :
    a.insertEvent clock id input table = none := by
  obtain ⟨row, hrow, hindex, -⟩ := exists_found_iff.mp ⟨found, hfound⟩
  exact (insertEvent_eq_none_iff hkey hfresh).mpr ⟨row, hrow, hindex⟩

/-- The lookup and the create agree exactly when the lookup sees the row that
the index has under the key, if there is one. -/
theorem lookupAgrees_iff (hkey : input.idempotencyKey = some key)
    (hfresh : table.lookup id = none) :
    LookupAgrees a clock id input key table ↔
      ∀ row ∈ table.rows, a.idempotencyIndex row = some (a.indexKey key) → row.Visible := by
  constructor
  · intro hagrees row hrow hindex
    have hrejected : a.insertEvent clock id input table = none :=
      (insertEvent_eq_none_iff hkey hfresh).mpr ⟨row, hrow, hindex⟩
    obtain ⟨row', hrow', hindex', hvisible⟩ :=
      exists_found_iff.mp (hagrees.rejected_iff.mp hrejected)
    rwa [Table.eq_of_ix_eq hrow hrow' hindex hindex']
  · intro hvisible
    have hfound : a.insertEvent clock id input table = none →
        ∃ found, a.findByIdempotencyKey table key = some found := by
      intro hrejected
      obtain ⟨row, hrow, hindex⟩ := (insertEvent_eq_none_iff hkey hfresh).mp hrejected
      exact exists_found_iff.mpr ⟨row, hrow, hindex, hvisible row hrow hindex⟩
    refine ⟨⟨hfound, fun ⟨found, h⟩ => insertEvent_of_found hkey hfresh h⟩, ?_, ?_⟩
    · cases hlookup : a.findByIdempotencyKey table key with
      | some found => simp [Adapter.findOrCreate, hlookup]
      | none =>
        rw [Adapter.findOrCreate, hlookup, Option.isSome_iff_ne_none]
        intro hrejected
        obtain ⟨found, h⟩ := hfound hrejected
        exact absurd (hlookup.symm.trans h) (by simp)
    · intro result hresult
      cases hlookup : a.findByIdempotencyKey table key with
      | some found => exact Or.inr (insertEvent_of_found hkey hfresh hlookup)
      | none =>
        rw [Adapter.findOrCreate, hlookup] at hresult
        exact Or.inl hresult

end

/-! ## On concrete tables -/

/-- An event under the key `order-1`. -/
def orderInput : CreateEventInput := { Sample.input 5 with idempotencyKey := some "order-1" }

/-- The row of the event, with a status and a time of its deletion. -/
def orderRow (status : EventStatus) (deletedAt : Option Int) : OutboxEvent :=
  { orderInput.values.row Sample.otherId 0 with status := status, deletedAt := deletedAt }

def orderTable (a : Adapter) (status : EventStatus) (deletedAt : Option Int) : OutboxTable a where
  rows := [orderRow status deletedAt]
  pk_nodup := List.nodup_singleton _
  ix_nodup := by
    rw [List.filterMap_cons]
    cases a.idempotencyIndex (orderRow status deletedAt) <;> simp

theorem lookup_orderTable (a : Adapter) (status : EventStatus) (deletedAt : Option Int) :
    (orderTable a status deletedAt).lookup Sample.id = none := by
  rw [Table.lookup_eq_none_iff]
  intro row hrow
  rw [List.mem_singleton.mp hrow]
  show Sample.otherId ≠ Sample.id
  decide

theorem lookupAgrees_pending :
    LookupAgrees .mysql 0 Sample.id orderInput "order-1" (orderTable .mysql .pending none) :=
  (lookupAgrees_iff rfl (lookup_orderTable .mysql .pending none)).mpr fun row hrow _ => by
    obtain rfl := List.mem_singleton.mp hrow
    decide

theorem insertEvent_orderTable {a : Adapter} {status : EventStatus} {deletedAt : Option Int}
    (hindex : a.idempotencyIndex (orderRow status deletedAt) = some (a.indexKey "order-1")) :
    a.insertEvent 0 Sample.id orderInput (orderTable a status deletedAt) = none := by
  have hkey : orderInput.idempotencyKey = some "order-1" := rfl
  rw [insertEvent_eq_none_iff hkey (lookup_orderTable a status deletedAt)]
  exact ⟨_, List.mem_singleton.mpr rfl, hindex⟩

/-- A row that the lookup passes over keeps its key from a new event: on
PostgreSQL one that is deleted, on MySQL also one that was delivered. -/
theorem not_lookupAgrees :
    ¬LookupAgrees .postgres 0 Sample.id orderInput "order-1"
        (orderTable .postgres .pending (some 0)) ∧
      ¬LookupAgrees .mysql 0 Sample.id orderInput "order-1"
        (orderTable .mysql .succeeded none) := by
  constructor
  · intro hagrees
    obtain ⟨found, hfound⟩ := hagrees.rejected_iff.mp (insertEvent_orderTable rfl)
    obtain ⟨row, hrow, -, hvisible⟩ := exists_found_iff.mp ⟨found, hfound⟩
    obtain rfl := List.mem_singleton.mp hrow
    exact absurd hvisible.2 (by decide)
  · intro hagrees
    obtain ⟨found, hfound⟩ := hagrees.rejected_iff.mp (insertEvent_orderTable rfl)
    obtain ⟨row, hrow, -, hvisible⟩ := exists_found_iff.mp ⟨found, hfound⟩
    obtain rfl := List.mem_singleton.mp hrow
    exact absurd rfl hvisible.1

end Outboxy
