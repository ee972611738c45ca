import Outboxy.Library.Session
import Outboxy.System

/-!
# Claims that fail

`claimPendingEvents` of both adapters, statement by statement.  Any of the
statements may fail, and one that fails has no effect.

`strandsNothing_iff` says when a claim leaves no row in `processing` that it
does not return.  PostgreSQL claims with one statement.  MySQL reads the rows
after the transaction has committed, and when that read fails there is nothing
left to roll back: the call throws, and the rows wait for stale recovery.
-/

namespace Outboxy

open Session

/-- A connection of the pool: the committed table, and the table as the open
transaction sees it. -/
structure OutboxConnection (a : Adapter) where
  table : OutboxTable a
  transaction : Option (OutboxTable a)

/-- The statements of a claim that answer with no rows, or with those that they
update. -/
inductive ClaimStatement where
  | getConnection
  | setIsolationLevel
  | beginTransaction
  | update (u : OutboxUpdate)
  | commit
  | rollback

namespace OutboxConnection

variable {a : Adapter}

/-- The table that a statement sees. -/
def current (c : OutboxConnection a) : OutboxTable a := c.transaction.getD c.table

/-- Write in the transaction, or at once if there is none. -/
def write (c : OutboxConnection a) (table : OutboxTable a) : OutboxConnection a :=
  match c.transaction with
  | none => { c with table := table }
  | some _ => { c with transaction := some table }

/-- A connection that comes from the pool has no transaction.  One whose
`ROLLBACK` fails is lost, and its transaction with it. -/
def exec (statement : ClaimStatement) : EStateM Unit (OutboxConnection a) PUnit := fun c =>
  match statement with
  | .getConnection => .ok ⟨⟩ { c with transaction := none }
  | .setIsolationLevel => .ok ⟨⟩ c
  | .beginTransaction => .ok ⟨⟩ { c with transaction := some c.table }
  | .update u =>
    match c.current.update u with
    | none => .error () c
    | some table => .ok ⟨⟩ (c.write table)
  | .commit => .ok ⟨⟩ { table := c.current, transaction := none }
  | .rollback => .ok ⟨⟩ { c with transaction := none }

end OutboxConnection

/-- A call of `claimPendingEvents`. -/
abbrev ClaimCall (a : Adapter) :=
  EStateM (Failure Unit) (Link (OutboxConnection a)) (List OutboxEvent)

open OutboxConnection

/-- The rows of the table with these ids. -/
def rowsWith {a : Adapter} (ids : List EventId) (table : OutboxTable a) : List OutboxEvent :=
  table.rows.filter (idIn ids)

namespace PgEventRepository

/-- The call whose sub-select picks these ids.  `RETURNING *` is a part of the
statement, and `release` cannot fail. -/
def claimCall (now : Int) (ids : List EventId) : ClaimCall .postgres := do
  queryAtomic exec .getConnection
  queryAtomic exec (.update (claimPendingEvents now ids))
  return rowsWith ids (← get).server.table

end PgEventRepository

namespace MySQLEventRepository

/-- `validateIds` throws for the first id that is not a UUID. -/
def checkIds {σ : Type} (ids : List EventId) : EStateM (Failure Unit) σ PUnit :=
  match ids.find? fun id => !isUuid id with
  | none => return
  | some id => throw (.thrown ("Invalid event ID format: " ++ id))

/-- The call whose first `SELECT` returns these ids.  `release` cannot fail. -/
def claimCall (now : Int) (ids : List EventId) : ClaimCall .mysql := do
  queryAtomic exec .getConnection
  tryCatch
    (do
      queryAtomic exec .setIsolationLevel
      queryAtomic exec .beginTransaction
      let ids ← select fun _ => .ok ids
      if ids = [] then
        queryAtomic exec .rollback
        return []
      else
        checkIds ids
        queryAtomic exec (.update (claimPendingEvents now ids))
        queryAtomic exec .commit
        select fun c => .ok (rowsWith ids c.current))
    fun error => do
      queryAtomic exec .rollback
      throw error

end MySQLEventRepository

/-- The call of the adapter. -/
def Adapter.claimCall : (a : Adapter) → (now : Int) → (ids : List EventId) → ClaimCall a
  | .postgres => PgEventRepository.claimCall
  | .mysql => MySQLEventRepository.claimCall

/-- A row that is in `processing` afterwards and was not before. -/
def Moved {a : Adapter} (before after : OutboxTable a) (row : OutboxEvent) : Prop :=
  row ∈ after.rows ∧ row.status = .processing ∧
    ∀ old ∈ before.rows, old.id = row.id → old.status ≠ .processing

/-- The call returns every row that it moved to `processing`, and moved none if
it throws. -/
def StrandsNothing (a : Adapter) (now : Int) (ids : List EventId)
    (link : Link (OutboxConnection a)) : Prop :=
  Ensures (a.claimCall now ids) link
    (fun events link' => ∀ row, Moved link.server.table link'.server.table row → row ∈ events)
    (fun _ link' => ∀ row, ¬Moved link.server.table link'.server.table row)

/-- Of the seven statements of a claim with ids, all up to the `COMMIT` succeed
and the `SELECT` after it fails. -/
structure FailsAfterCommit {a : Adapter} (ids : List EventId) (link : Link (OutboxConnection a)) :
    Prop where
  claimed : ids ≠ []
  valid : MySQLEventRepository.validateIds ids = true
  committed : ∀ i < 6, link.faultAt i = none
  lost : (link.faultAt 6).isSome = true

/-! ## The claimed rows -/

section Claimed

variable {a : Adapter} {table table' : OutboxTable a} {locked : EventId → Bool}
  {now selectedAt : Int} {batchSize : Nat} {ids : List EventId} {row : OutboxEvent}

/-- A claim keeps the index key of a row that waits for delivery. -/
theorem idempotencyIndex_claimRow (a : Adapter) (now : Int)
    (h : row.status = .pending ∨ row.status = .failed) :
    a.idempotencyIndex (claimRow now row) = a.idempotencyIndex row := by
  cases a with
  | postgres => rcases h with h | h <;> simp [Adapter.idempotencyIndex, claimRow, h]
  | mysql => rfl

/-- A row with a selected id waits for delivery. -/
theorem waiting_of_selected (hselection : a.ClaimSelection table locked selectedAt batchSize ids)
    (hrow : row ∈ table.rows) (hid : row.id ∈ ids) :
    row.status = .pending ∨ row.status = .failed := by
  obtain ⟨found, hfound, hclaimable⟩ := hselection.isSelection.lookup hid
  rw [Table.lookup_of_mem hrow] at hfound
  obtain rfl := Option.some.inj hfound
  rw [Bool.and_eq_true] at hclaimable
  exact (Adapter.status_of_claimable hclaimable.1).1

/-- The `UPDATE` of a claim is not refused. -/
theorem exists_update_claim (now : Int)
    (hselection : a.ClaimSelection table locked selectedAt batchSize ids) :
    ∃ table', table.update (a.claimPendingEvents now ids) = some table' := by
  refine Option.isSome_iff_exists.mp (Table.update_isSome fun row hrow hguard => ?_)
  rw [Adapter.claimPendingEvents_guard, idIn_eq_true] at hguard
  rw [Adapter.claimPendingEvents_assign]
  exact idempotencyIndex_claimRow a now (waiting_of_selected hselection hrow hguard)

/-- The rows that the `UPDATE` of a claim moves are those with its ids. -/
theorem moved_claim_iff (hselection : a.ClaimSelection table locked selectedAt batchSize ids)
    (hupdate : table.update (a.claimPendingEvents now ids) = some table') :
    Moved table table' row ↔ row ∈ rowsWith ids table' := by
  have hrows := Table.rows_update hupdate
  rw [Moved, rowsWith, List.mem_filter, idIn_eq_true]
  refine and_congr_right fun hmem => ?_
  rw [hrows] at hmem
  obtain ⟨old, hold, rfl⟩ := List.mem_map.mp hmem
  rw [(a.claimPendingEvents now ids).pk_apply]
  by_cases hid : old.id ∈ ids
  · have hguard : (a.claimPendingEvents now ids).guard old = true := by
      rwa [Adapter.claimPendingEvents_guard, idIn_eq_true]
    rw [Update.apply_of_guard hguard, Adapter.claimPendingEvents_assign]
    refine iff_of_true ⟨rfl, fun old' hold' hsame => ?_⟩ hid
    have hwaiting := waiting_of_selected hselection hold' (hsame ▸ hid)
    rcases hwaiting with h | h <;> simp [h]
  · have hguard : (a.claimPendingEvents now ids).guard old = false := by
      rw [Adapter.claimPendingEvents_guard, Bool.eq_false_iff]
      rwa [ne_eq, idIn_eq_true]
    rw [Update.apply_of_not_guard hguard]
    exact iff_of_false (fun h => h.2 old hold rfl h.1) hid

end Claimed

/-! ## The calls -/

section Calls

variable {now : Int} {ids : List EventId}

/-- What a PostgreSQL claim leaves: everything is claimed and returned, or
nothing is claimed. -/
theorem PgEventRepository.ensures_claimCall (link : Link (OutboxConnection .postgres))
    {table' : OutboxTable .postgres}
    (hupdate : link.server.table.update (PgEventRepository.claimPendingEvents now ids) =
      some table') :
    Ensures (PgEventRepository.claimCall now ids) link
      (fun events link' => link'.server.table = table' ∧ events = rowsWith ids table')
      (fun _ link' => link'.server.table = link.server.table) := by
  apply ensures_bind
  refine ensures_queryAtomic_of_fault (fun _ _ => rfl) fun _ => ensures_ok rfl ?_
  apply ensures_bind
  refine ensures_queryAtomic_of_fault (fun _ _ => rfl) fun _ => ?_
  have hexec : (exec (.update (PgEventRepository.claimPendingEvents now ids))).run
      { link.server with transaction := none } =
        .ok ⟨⟩ { table := table', transaction := none } := by
    show exec _ _ = _
    simp only [exec, current, Option.getD_none, hupdate, write]
  exact ensures_ok hexec ⟨rfl, rfl⟩

/-- The ids are checked before the `UPDATE`. -/
theorem MySQLEventRepository.ensures_checkIds {σ : Type} (ids : List EventId) (s : σ) :
    Ensures (MySQLEventRepository.checkIds ids) s
      (fun _ s' => MySQLEventRepository.validateIds ids = true ∧ s' = s)
      (fun _ s' => ¬MySQLEventRepository.validateIds ids = true ∧ s' = s) := by
  rw [MySQLEventRepository.checkIds, MySQLEventRepository.validateIds]
  cases hfind : ids.find? fun id => !isUuid id with
  | none =>
    refine ensures_pure ⟨List.all_eq_true.mpr fun id hid => ?_, rfl⟩
    simpa using List.find?_eq_none.mp hfind id hid
  | some id =>
    refine ensures_throw ⟨fun hall => ?_, rfl⟩
    have hnot := List.find?_some hfind
    rw [List.all_eq_true.mp hall id (List.mem_of_find?_eq_some hfind)] at hnot
    cases hnot

theorem not_failsAfterCommit {a : Adapter} {link : Link (OutboxConnection a)} {i n : Nat}
    (hi : i < 6) (hfault : link.faultAt i = some n) : ¬FailsAfterCommit ids link := by
  intro hfails
  rw [hfails.committed i hi] at hfault
  cases hfault

section Mysql

variable {link : Link (OutboxConnection .mysql)} {table' : OutboxTable .mysql}

/-- The last three statements of a MySQL claim, in its transaction: everything
is claimed and returned, or nothing is claimed, or everything is claimed and
nothing returned. -/
theorem MySQLEventRepository.ensures_claimRows
    (hupdate : link.server.table.update (MySQLEventRepository.claimPendingEvents now ids) =
      some table')
    {inside : Link (OutboxConnection .mysql)}
    (hserver : inside.server = ⟨link.server.table, some link.server.table⟩)
    (hshift : ∀ i, inside.faultAt i = link.faultAt (i + 4))
    (hbefore : ∀ i < 4, link.faultAt i = none) (hnil : ids ≠ [])
    (hvalid : MySQLEventRepository.validateIds ids = true) :
    Ensures (do
        queryAtomic exec (.update (MySQLEventRepository.claimPendingEvents now ids))
        queryAtomic exec .commit
        select fun c => .ok (rowsWith ids c.current)) inside
      (fun events link' => ¬FailsAfterCommit ids link ∧
        link'.server.table = table' ∧ events = rowsWith ids table')
      (fun _ link' => ¬FailsAfterCommit ids link ∧ link'.server.table = link.server.table ∨
        FailsAfterCommit ids link ∧ link'.server.table = table') := by
  have hexec : (exec (.update (MySQLEventRepository.claimPendingEvents now ids))).run
      inside.server = .ok ⟨⟩ { inside.server with transaction := some table' } := by
    show exec _ _ = _
    simp only [exec, current, hserver, Option.getD_some, hupdate, write]
  have htable : inside.server.table = link.server.table := by rw [hserver]
  apply ensures_bind
  refine ensures_queryAtomic_of_fault (fun n h4 => ?_) fun h4 => ensures_ok hexec ?_
  · rw [Link.fault_eq, hshift] at h4
    exact Or.inl ⟨not_failsAfterCommit (by decide) h4, htable⟩
  apply ensures_bind
  refine ensures_queryAtomic_of_fault (fun n h5 => ?_) fun h5 => ensures_ok rfl ?_
  · rw [Link.fault_eq, Link.faultAt_next, hshift] at h5
    exact Or.inl ⟨not_failsAfterCommit (by decide) h5, htable⟩
  rw [Link.fault_eq, hshift] at h4
  rw [Link.fault_eq, Link.faultAt_next, hshift] at h5
  refine ensures_select_of_fault (fun n h6 => Or.inr ⟨⟨hnil, hvalid, fun i hi => ?_, ?_⟩, rfl⟩)
    (fun events h6 hevents => ?_) (fun _ _ h => nomatch h)
  · have hcases : i < 4 ∨ i = 4 ∨ i = 5 := by omega
    rcases hcases with h | rfl | rfl
    · exact hbefore i h
    · exact h4
    · exact h5
  · rw [Link.fault_eq, Link.faultAt_next, Link.faultAt_next, hshift] at h6
    exact Option.isSome_iff_exists.mpr ⟨n, h6⟩
  · obtain rfl := Except.ok.inj hevents
    rw [Link.fault_eq, Link.faultAt_next, Link.faultAt_next, hshift] at h6
    refine ⟨fun hfails => ?_, rfl, rfl⟩
    have hsome := hfails.lost
    rw [h6] at hsome
    cases hsome

/-- What a MySQL claim leaves: everything is claimed and returned, or nothing
is claimed, or everything is claimed and nothing returned. -/
theorem MySQLEventRepository.ensures_claimCall
    (hupdate : link.server.table.update (MySQLEventRepository.claimPendingEvents now ids) =
      some table') :
    Ensures (MySQLEventRepository.claimCall now ids) link
      (fun events link' => ¬FailsAfterCommit ids link ∧
        (link'.server.table = table' ∧ events = rowsWith ids table' ∨
          link'.server.table = link.server.table))
      (fun _ link' => ¬FailsAfterCommit ids link ∧ link'.server.table = link.server.table ∨
        FailsAfterCommit ids link ∧ link'.server.table = table') := by
  apply ensures_bind
  refine ensures_queryAtomic_of_fault (fun n h0 => ?_) fun h0 => ensures_ok rfl ?_
  · rw [Link.fault_eq] at h0
    exact Or.inl ⟨not_failsAfterCommit (by decide) h0, rfl⟩
  apply ensures_tryCatch
  refine Ensures.mono (Q := fun events link' => ¬FailsAfterCommit ids link ∧
      (link'.server.table = table' ∧ events = rowsWith ids table' ∨
        link'.server.table = link.server.table))
    (E := fun _ link' => ¬FailsAfterCommit ids link ∧ link'.server.table = link.server.table ∨
      FailsAfterCommit ids link ∧ link'.server.table = table') ?_ (fun _ _ h => h) ?_
  · -- the transaction and the read after it
    apply ensures_bind
    refine ensures_queryAtomic_of_fault (fun n h1 => ?_) fun h1 => ensures_ok rfl ?_
    · rw [Link.fault_eq, Link.faultAt_next] at h1
      exact Or.inl ⟨not_failsAfterCommit (by decide) h1, rfl⟩
    apply ensures_bind
    refine ensures_queryAtomic_of_fault (fun n h2 => ?_) fun h2 => ensures_ok rfl ?_
    · simp only [Link.fault_eq, Link.faultAt_next] at h2
      exact Or.inl ⟨not_failsAfterCommit (by decide) h2, rfl⟩
    apply ensures_bind
    refine ensures_select_of_fault (fun n h3 => ?_) (fun selected h3 hselected => ?_)
      (fun _ _ h => nomatch h)
    · simp only [Link.fault_eq, Link.faultAt_next] at h3
      exact Or.inl ⟨not_failsAfterCommit (by decide) h3, rfl⟩
    obtain rfl := Except.ok.inj hselected
    by_cases hnil : ids = []
    · rw [if_pos hnil]
      have hnot : ¬FailsAfterCommit ids link := fun hfails => hfails.claimed hnil
      apply ensures_bind
      refine ensures_queryAtomic_of_fault (fun _ _ => Or.inl ⟨hnot, rfl⟩) fun _ => ensures_ok rfl ?_
      exact ensures_pure ⟨hnot, Or.inr rfl⟩
    · rw [if_neg hnil]
      have hbefore : ∀ i < 4, link.faultAt i = none := by
        intro i hi
        simp only [Link.fault_eq, Link.faultAt_next] at h0 h1 h2 h3
        have hcases : i = 0 ∨ i = 1 ∨ i = 2 ∨ i = 3 := by omega
        rcases hcases with rfl | rfl | rfl | rfl
        exacts [h0, h1, h2, h3]
      apply ensures_bind
      refine (ensures_checkIds ids _).mono (fun _ _ h => ?_) fun _ _ h => ?_
      · obtain ⟨hvalid, rfl⟩ := h
        refine (MySQLEventRepository.ensures_claimRows hupdate rfl (fun i => ?_) hbefore hnil
          hvalid).mono (fun _ _ h => ⟨h.1, Or.inl h.2⟩) fun _ _ h => h
        simp only [Link.faultAt_next]
      · obtain ⟨hinvalid, rfl⟩ := h
        exact Or.inl ⟨fun hfails => hinvalid hfails.valid, rfl⟩
  · -- the handler
    intro e link' h
    apply ensures_bind
    refine ensures_queryAtomic_of_fault (fun _ _ => h) fun _ => ensures_ok rfl ?_
    exact ensures_throw h

end Mysql

end Calls

/-- A claim leaves no row in `processing` that it does not return, unless it is
one on MySQL whose `SELECT` after the commit fails. -/
theorem strandsNothing_iff (a : Adapter) (locked : EventId → Bool) (selectedAt now : Int)
    (batchSize : Nat) (ids : List EventId) (link : Link (OutboxConnection a))
    (hselection : a.ClaimSelection link.server.table locked selectedAt batchSize ids) :
    StrandsNothing a now ids link ↔ ¬(a = .mysql ∧ FailsAfterCommit ids link) := by
  obtain ⟨table', hupdate⟩ := exists_update_claim now hselection
  have hmoved : ∀ row, Moved link.server.table table' row ↔ row ∈ rowsWith ids table' :=
    fun _ => moved_claim_iff hselection hupdate
  have hsame : ∀ row, ¬Moved link.server.table link.server.table row :=
    fun row h => h.2.2 row h.1 rfl h.2.1
  cases a with
  | postgres =>
    refine iff_of_true ?_ fun h => nomatch h.1
    refine (PgEventRepository.ensures_claimCall link hupdate).mono
      (fun events link' h row hrow => ?_) fun _ link' h row hrow => ?_
    · obtain ⟨htable, rfl⟩ := h
      rw [htable] at hrow
      exact (hmoved row).mp hrow
    · rw [h] at hrow
      exact hsame row hrow
  | mysql =>
    have hcall := MySQLEventRepository.ensures_claimCall hupdate
    constructor
    · intro h hfails
      -- The row of one of the ids was moved, and nothing is returned.
      obtain ⟨id, hid⟩ := List.exists_mem_of_ne_nil ids hfails.2.claimed
      obtain ⟨old, hold, -⟩ := hselection.isSelection.lookup hid
      have hrow := Table.lookup_update_of_guard hupdate hold
        (by rwa [Adapter.claimPendingEvents_guard, idIn_eq_true, Table.pk_of_lookup hold])
      have hstranded : Moved link.server.table table' _ :=
        (hmoved _).mpr (List.mem_filter.mpr ⟨Table.mem_of_lookup hrow, by
          rwa [idIn_eq_true, Table.pk_of_lookup hrow]⟩)
      refine not_ensures_false _ _ ((h.and hcall).mono (fun events link' hok => ?_)
        fun _ link' herror => ?_)
      · exact hok.2.1 hfails.2
      · rcases herror.2 with ⟨hnot, -⟩ | ⟨-, htable⟩
        · exact hnot hfails.2
        · rw [htable] at herror
          exact herror.1 _ hstranded
    · intro hnot
      refine hcall.mono (fun events link' h row hrow => ?_) fun _ link' h row hrow => ?_
      · rcases h.2 with ⟨htable, rfl⟩ | htable
        · rw [htable] at hrow
          exact (hmoved row).mp hrow
        · rw [htable] at hrow
          exact absurd hrow (hsame row)
      · rcases h with ⟨-, htable⟩ | ⟨hfails, -⟩
        · rw [htable] at hrow
          exact hsame row hrow
        · exact hnot ⟨rfl, hfails⟩

namespace Sample

/-- A table with one event. -/
def oneEvent (a : Adapter) : OutboxTable a where
  rows := [(values 5).row id 0]
  pk_nodup := List.nodup_singleton _
  ix_nodup := by cases a <;> exact List.nodup_nil

/-- A claim of the event whose statement `n`, counted from 0, fails. -/
def failing (a : Adapter) (n : Nat) : Link (OutboxConnection a) :=
  ⟨⟨oneEvent a, none⟩, List.replicate n none ++ [some 0]⟩

end Sample

/-- A `COMMIT` that fails strands nothing. -/
theorem strandsNothing_commit : StrandsNothing .mysql 0 [Sample.id] (Sample.failing .mysql 5) :=
  (strandsNothing_iff .mysql (fun _ => false) 0 0 10 [Sample.id] (Sample.failing .mysql 5)
    (by decide)).mpr fun h => nomatch h.2.committed 5 (by decide)

/-- A `SELECT` that fails after it strands the event. -/
theorem not_strandsNothing :
    Adapter.mysql.ClaimSelection (Sample.oneEvent .mysql) (fun _ => false) 0 10 [Sample.id] ∧
      ¬StrandsNothing .mysql 0 [Sample.id] (Sample.failing .mysql 6) := by
  refine ⟨by decide, fun h => ?_⟩
  have hstranded := h.of_error
    (show (Adapter.mysql.claimCall 0 [Sample.id]).run (Sample.failing .mysql 6) =
      .error .lost _ from rfl)
  refine hstranded (claimRow 0 ((Sample.values 5).row Sample.id 0))
    ⟨List.mem_singleton_self _, rfl, fun old hold _ => ?_⟩
  obtain rfl := List.mem_singleton.mp hold
  decide

end Outboxy
