import Outboxy.Library.Session
import Outboxy.Library.Transition
import Outboxy.Migrations.SqlDir

/-!
# The PostgreSQL migrations

`runPostgresMigrations` applies each migration that is not recorded in
`__outboxy_migrations` in a transaction of its own, together with the row that
records it.  A failure may come at any query, also at the ones that end the
transaction, and then the run fails and its connections are closed.
-/

namespace Outboxy.Migrations

open Ddl Session

/-- Tables and indexes share their names. -/
inductive PgObject
  | relation (name : String)
  | comment (on : String)
  deriving DecidableEq, Repr

inductive PgDefinition
  | table (columns : List String)
  | index (unique : Bool) (table : String) (columns : List String) (predicate : Option String)
  | comment (text : String)
  deriving DecidableEq, Repr

/-- `migrations` are the names in `__outboxy_migrations`, when it exists. -/
structure PgDatabase where
  schema : Schema PgObject PgDefinition
  migrations : Option (List String)

def PgDatabase.recorded (db : PgDatabase) : List String := db.migrations.getD []

/-- The transaction of the client that runs the migrations, with its view of
the database. -/
inductive PgTransaction
  | idle
  | active (work : PgDatabase)
  | aborted

/-- `executed` lists the migrations whose script was sent. -/
structure PgServer where
  committed : PgDatabase
  transaction : PgTransaction
  executed : List String

inductive PgStatement
  | createMigrationsTable
  | begin
  | ddl (statement : Statement PgObject PgDefinition)
  | insertMigration (name : String)
  | commit
  | rollback

inductive PgError
  | ddl (refusal : Refusal PgObject)
  | undefinedTable
  | inFailedTransaction
  deriving DecidableEq, Repr

namespace PgDatabase

def createMigrationsTable : EStateM PgError PgDatabase PUnit :=
  modify fun db => { db with migrations := some db.recorded }

def ddl (statement : Statement PgObject PgDefinition) : EStateM PgError PgDatabase PUnit :=
  fun db =>
    match statement.execute.run db.schema with
    | .ok _ schema => .ok ⟨⟩ { db with schema }
    | .error refusal schema => .error (.ddl refusal) { db with schema }

/-- `INSERT … ON CONFLICT (name) DO NOTHING` -/
def insertMigration (name : String) : EStateM PgError PgDatabase PUnit := fun db =>
  match db.migrations with
  | none => .error .undefinedTable db
  | some names =>
    .ok ⟨⟩ { db with migrations := some (if name ∈ names then names else names ++ [name]) }

end PgDatabase

namespace PgServer

/-- Outside a transaction a change is committed at once.  A failure in a
transaction aborts it. -/
def perform (change : EStateM PgError PgDatabase PUnit) : EStateM PgError PgServer PUnit :=
  fun server =>
    match server.transaction with
    | .idle =>
      match change.run server.committed with
      | .ok _ db => .ok ⟨⟩ { server with committed := db }
      | .error e _ => .error e server
    | .active work =>
      match change.run work with
      | .ok _ db => .ok ⟨⟩ { server with transaction := .active db }
      | .error e _ => .error e { server with transaction := .aborted }
    | .aborted => .error .inFailedTransaction server

def begin : EStateM PgError PgServer PUnit := fun server =>
  match server.transaction with
  | .idle => .ok ⟨⟩ { server with transaction := .active server.committed }
  | .active _ => .ok ⟨⟩ server
  | .aborted => .error .inFailedTransaction server

/-- The end of an aborted transaction is a rollback. -/
def commit : EStateM PgError PgServer PUnit := modify fun server =>
  match server.transaction with
  | .active work => { server with committed := work, transaction := .idle }
  | _ => { server with transaction := .idle }

def rollback : EStateM PgError PgServer PUnit :=
  modify fun server => { server with transaction := .idle }

end PgServer

def PgStatement.execute : PgStatement → EStateM PgError PgServer PUnit
  | createMigrationsTable => PgServer.perform PgDatabase.createMigrationsTable
  | begin => PgServer.begin
  | ddl statement => PgServer.perform (PgDatabase.ddl statement)
  | insertMigration name => PgServer.perform (PgDatabase.insertMigration name)
  | commit => PgServer.commit
  | rollback => PgServer.rollback

abbrev PgRun := EStateM (Failure PgError) (Link PgServer)

variable (dir : SqlDir PgObject PgDefinition)

/-- One turn of the loop in `runPostgresMigrations`.  `client.release()` in its
`finally` leaves the database as it is. -/
def applyPostgresMigration (migrationName : String) : PgRun PUnit := do
  match dir.read? (migrationName ++ ".sql") with
  | none => throw (.thrown ("PostgreSQL migration file not found: " ++ migrationName ++ ".sql"))
  | some migrationSQL =>
    -- `pool.connect()`
    query PgStatement.execute []
    try
      query PgStatement.execute [.begin]
      modify fun link =>
        { link with server.executed := link.server.executed ++ [migrationName] }
      query PgStatement.execute (migrationSQL.map .ddl)
      query PgStatement.execute [.insertMigration migrationName]
      queryAtomic PgStatement.execute .commit
    catch error =>
      query PgStatement.execute [.rollback]
      throw error

def selectMigrationNames (server : PgServer) : Except PgError (List String) :=
  server.committed.migrations.elim (.error .undefinedTable) .ok

/-- `pool.end()` closes the connections, and the server discards what they did
not commit. -/
def poolEnd : PgRun PUnit := do
  modify fun link => { link with server.transaction := .idle }
  query PgStatement.execute []

/-- The `catch` around the whole run logs the error and throws it again. -/
def runPostgresMigrations : PgRun PUnit := do
  try
    query PgStatement.execute [.createMigrationsTable]
    let applied ← select selectMigrationNames
    dir.getAllMigrationNames.forM fun migrationName => do
      if migrationName ∉ applied then applyPostgresMigration dir migrationName
  finally
    poolEnd

/-- The committed state and the list of sent scripts are as they were. -/
def Untouched (server server' : PgServer) : Prop :=
  server'.committed = server.committed ∧ server'.executed = server.executed

/-- In a transaction a statement changes what the transaction sees, or aborts
it. -/
theorem perform_ensures {change : EStateM PgError PgDatabase PUnit} {server : PgServer}
    {work : PgDatabase} (hactive : server.transaction = .active work) {P : PgDatabase → Prop}
    (hchange : Ensures change work (fun _ db => P db) (fun _ _ => True)) :
    Ensures (PgServer.perform change) server
      (fun _ server' => ∃ db, P db ∧ server' = { server with transaction := .active db })
      (fun _ server' => Untouched server server') := by
  cases hrun : change.run work with
  | ok _ db =>
    have hres : (PgServer.perform change).run server =
        .ok ⟨⟩ { server with transaction := .active db } := by
      show PgServer.perform change server = _
      simp only [PgServer.perform, hactive, hrun]
    exact ensures_ok hres ⟨db, hchange.of_ok hrun, rfl⟩
  | error e db =>
    have hres : (PgServer.perform change).run server =
        .error e { server with transaction := .aborted } := by
      show PgServer.perform change server = _
      simp only [PgServer.perform, hactive, hrun]
    exact ensures_error hres ⟨rfl, rfl⟩

theorem ddl_changes (statement : Statement PgObject PgDefinition) (db : PgDatabase) :
    Ensures (PgDatabase.ddl statement) db
      (fun _ db' => db' = { db with schema := statement.apply db.schema }) (fun _ _ => True) := by
  cases hrun : statement.execute.run db.schema with
  | error refusal schema =>
    have hres : (PgDatabase.ddl statement).run db = .error (.ddl refusal) { db with schema } := by
      show PgDatabase.ddl statement db = _
      simp only [PgDatabase.ddl, hrun]
    exact ensures_error hres trivial
  | ok _ schema =>
    have hres : (PgDatabase.ddl statement).run db = .ok ⟨⟩ { db with schema } := by
      show PgDatabase.ddl statement db = _
      simp only [PgDatabase.ddl, hrun]
    refine ensures_ok hres ?_
    rw [Statement.eq_apply_of_execute hrun]

/-- In a transaction a script changes only what the transaction sees. -/
theorem pgScript_ensures (script : List (Statement PgObject PgDefinition)) {server : PgServer}
    {work : PgDatabase} (hactive : server.transaction = .active work) :
    Ensures ((script.map PgStatement.ddl).forM PgStatement.execute) server
      (fun _ server' => server' = { server with
        transaction := .active { work with schema := applyAll script work.schema } })
      (fun _ server' => Untouched server server') := by
  induction script generalizing server work with
  | nil =>
    apply ensures_pure
    rw [applyAll_nil, ← hactive]
  | cons first rest ih =>
    rw [List.map_cons]
    apply ensures_bind
    refine (perform_ensures hactive (ddl_changes first work)).mono ?_ (fun _ _ h => h)
    rintro - server' ⟨db, rfl, hserver'⟩
    have hactive' : server'.transaction =
        .active { work with schema := first.apply work.schema } := by rw [hserver']
    refine (ih hactive').mono ?_ ?_
    · rintro - server'' rfl
      rw [hserver']
      rfl
    · intro _ server'' h
      rw [Untouched, hserver'] at h
      exact h

theorem insertMigration_changes {name : String} {db : PgDatabase} (hname : name ∉ db.recorded) :
    Ensures (PgDatabase.insertMigration name) db
      (fun _ db' => db'.schema = db.schema ∧ db'.recorded = db.recorded ++ [name])
      (fun _ _ => True) := by
  cases hmigrations : db.migrations with
  | none =>
    have hres : (PgDatabase.insertMigration name).run db = .error .undefinedTable db := by
      show PgDatabase.insertMigration name db = _
      simp only [PgDatabase.insertMigration, hmigrations]
    exact ensures_error hres trivial
  | some names =>
    have hnames : name ∉ names := by simpa [PgDatabase.recorded, hmigrations] using hname
    have hres : (PgDatabase.insertMigration name).run db =
        .ok ⟨⟩ { db with migrations := some (names ++ [name]) } := by
      show PgDatabase.insertMigration name db = _
      simp only [PgDatabase.insertMigration, hmigrations, if_neg hnames]
    refine ensures_ok hres ⟨rfl, ?_⟩
    simp [PgDatabase.recorded, hmigrations]

/-- `db'` is `db` after the migrations `done`. -/
structure Advanced (db : PgDatabase) (done : List String) (db' : PgDatabase) : Prop where
  schema : db'.schema = applyAll (done.flatMap dir.script) db.schema
  recorded : db'.recorded = db.recorded ++ done

variable {dir}

/-- An attempt at a migration has committed nothing. -/
def Unapplied (server : PgServer) (name : String) (server' : PgServer) : Prop :=
  server'.committed = server.committed ∧ server'.executed <+: server.executed ++ [name]

theorem scriptQuery_ensures (script : List (Statement PgObject PgDefinition))
    {link : Link PgServer} {work : PgDatabase} (hactive : link.server.transaction = .active work) :
    Ensures (query PgStatement.execute (script.map .ddl)) link
      (fun _ link' => link'.server = { link.server with
        transaction := .active { work with schema := applyAll script work.schema } })
      (fun _ link' => Untouched link.server link'.server) := by
  apply ensures_query
  intro sent hsent
  obtain ⟨part, -, rfl⟩ := List.prefix_map_iff.mp hsent
  refine (pgScript_ensures part hactive).mono ?_ (fun _ _ h => h)
  rintro - server' rfl
  refine ⟨?_, fun _ => ⟨rfl, rfl⟩⟩
  intro hall
  obtain rfl := List.map_injective_iff.mpr (fun _ _ => PgStatement.ddl.inj) hall
  rfl

/-- A migration is applied and recorded, or nothing is committed. -/
theorem applyPostgresMigration_ensures {name : String} (hname : name ∈ dir.getAllMigrationNames)
    {link : Link PgServer} (hidle : link.server.transaction = .idle)
    (hpending : name ∉ link.server.committed.recorded) :
    Ensures (applyPostgresMigration dir name) link
      (fun _ link' => Advanced dir link.server.committed [name] link'.server.committed ∧
        link'.server.transaction = .idle ∧ link'.server.executed = link.server.executed ++ [name])
      (fun _ link' => Unapplied link.server name link'.server) := by
  have hstart : Unapplied link.server name link.server := ⟨rfl, List.prefix_append _ _⟩
  unfold applyPostgresMigration
  rw [SqlDir.read?_of_mem_getAllMigrationNames hname]
  apply ensures_bind
  apply ensures_query
  intro sent hsent
  obtain rfl := List.prefix_nil.mp hsent
  refine ensures_pure ⟨fun _ => ?_, fun _ => hstart⟩
  apply ensures_tryCatch
  refine Ensures.mono (Q := fun _ link' =>
      Advanced dir link.server.committed [name] link'.server.committed ∧
        link'.server.transaction = .idle ∧ link'.server.executed = link.server.executed ++ [name])
    (E := fun _ link' => Unapplied link.server name link'.server) ?_ (fun _ _ h => h) ?_
  · -- the transaction
    apply ensures_bind
    refine ensures_query_singleton (fun _ => hstart) ?_
    have hbegin : PgServer.begin.run link.server =
        .ok ⟨⟩ { link.server with transaction := .active link.server.committed } := by
      show PgServer.begin link.server = _
      simp only [PgServer.begin, hidle]
    refine ensures_ok hbegin ⟨?_, fun _ => hstart⟩
    apply ensures_bind
    apply ensures_modify
    have hsent : ∀ server' : PgServer, server'.committed = link.server.committed →
        server'.executed = link.server.executed ++ [name] → Unapplied link.server name server' :=
      fun server' hcommitted hexecuted => ⟨hcommitted, hexecuted ▸ List.prefix_rfl⟩
    apply ensures_bind
    refine (scriptQuery_ensures (dir.script name) rfl).mono ?_
      (fun _ _ h => hsent _ h.1 h.2)
    rintro - link' hlink'
    apply ensures_bind
    refine ensures_query_singleton (fun _ => by rw [hlink']; exact hsent _ rfl rfl) ?_
    rw [hlink']
    have hpending' : name ∉ PgDatabase.recorded { link.server.committed with
        schema := applyAll (dir.script name) link.server.committed.schema } := hpending
    refine (perform_ensures rfl (insertMigration_changes hpending')).mono ?_
      (fun _ _ h => hsent _ h.1 h.2)
    rintro - server' ⟨db, ⟨hschema, hrecorded⟩, rfl⟩
    refine ⟨?_, fun _ => hsent _ rfl rfl⟩
    refine ensures_queryAtomic (fun _ => hsent _ rfl rfl) ?_
    refine ensures_modify ⟨⟨?_, hrecorded⟩, rfl, rfl⟩
    simpa using hschema
  · -- the handler
    intro e link' h
    apply ensures_bind
    refine ensures_query_singleton (fun _ => h) ?_
    exact ensures_modify ⟨ensures_throw h, fun _ => h⟩

/-! ## A run -/

theorem Advanced.trans {db db' db'' : PgDatabase} {done done' : List String}
    (h : Advanced dir db done db') (h' : Advanced dir db' done' db'') :
    Advanced dir db (done ++ done') db'' where
  schema := by rw [h'.schema, h.schema, List.flatMap_append, applyAll_append]
  recorded := by rw [h'.recorded, h.recorded, List.append_assoc]

variable (dir) in
/-- The migrations that are not recorded, in file-name order. -/
def pendingMigrations (db : PgDatabase) : List String :=
  dir.getAllMigrationNames.filter (· ∉ db.recorded)

variable (dir) in
/-- The loop is through with the pending ones of the migrations `done`. -/
structure Through (start : PgDatabase) (done : List String) (server : PgServer) : Prop where
  advanced : Advanced dir start (done.filter (· ∉ start.recorded)) server.committed
  executed : server.executed = done.filter (· ∉ start.recorded)
  idle : server.transaction = .idle

variable (dir) in
/-- A run has applied a prefix of the pending migrations. -/
def Partway (start : PgDatabase) (server : PgServer) : Prop :=
  (∃ done, done <+: pendingMigrations dir start ∧ Advanced dir start done server.committed) ∧
    server.executed <+: pendingMigrations dir start

theorem Through.partway {start : PgDatabase} {done rest : List String} {server : PgServer}
    (h : Through dir start done server) (hall : dir.getAllMigrationNames = done ++ rest) :
    Partway dir start server := by
  have hprefix : done.filter (· ∉ start.recorded) <+: pendingMigrations dir start := by
    rw [pendingMigrations, hall, List.filter_append]
    exact List.prefix_append _ _
  exact ⟨⟨_, hprefix, h.advanced⟩, h.executed ▸ hprefix⟩

/-- One turn of the loop. -/
theorem Through.turn {start : PgDatabase} {done rest : List String} {name : String}
    {link : Link PgServer} (h : Through dir start done link.server)
    (hall : dir.getAllMigrationNames = done ++ name :: rest) :
    Ensures (if name ∉ start.recorded then applyPostgresMigration dir name else pure ⟨⟩) link
      (fun _ link' => Through dir start (done ++ [name]) link'.server)
      (fun _ link' => Partway dir start link'.server) := by
  by_cases hname : name ∈ start.recorded
  · rw [if_neg (by simpa using hname)]
    have hsame : (done ++ [name]).filter (· ∉ start.recorded) =
        done.filter (· ∉ start.recorded) := by simp [List.filter_append, hname]
    exact ensures_pure ⟨hsame ▸ h.advanced, hsame ▸ h.executed, h.idle⟩
  · rw [if_pos hname]
    have hmore : (done ++ [name]).filter (· ∉ start.recorded) =
        done.filter (· ∉ start.recorded) ++ [name] := by simp [List.filter_append, hname]
    have hnodup := dir.nodup_getAllMigrationNames
    rw [hall] at hnodup
    have hfresh : name ∉ done := fun hmem =>
      (List.nodup_append.mp hnodup).2.2 _ hmem _ List.mem_cons_self rfl
    have hpending : name ∉ link.server.committed.recorded := by
      rw [h.advanced.recorded, List.mem_append, List.mem_filter]
      rintro (hstart | ⟨hdone, -⟩)
      · exact hname hstart
      · exact hfresh hdone
    refine (applyPostgresMigration_ensures (by simp [hall]) h.idle hpending).mono ?_ ?_
    · rintro - link' ⟨hadvanced, hidle, hexecuted⟩
      refine ⟨?_, ?_, hidle⟩
      · rw [hmore]
        exact h.advanced.trans hadvanced
      · rw [hmore, hexecuted, h.executed]
    · rintro - link' ⟨hcommitted, hexecuted⟩
      obtain ⟨hdone, -⟩ := h.partway hall
      refine ⟨?_, hexecuted.trans ?_⟩
      · rw [hcommitted]
        exact hdone
      · have hsplit : dir.getAllMigrationNames = (done ++ [name]) ++ rest := by simp [hall]
        rw [h.executed, ← hmore, pendingMigrations, hsplit, List.filter_append _ rest]
        exact List.prefix_append _ _

/-- The link of a new run. -/
abbrev connect (db : PgDatabase) (faults : List (Option Nat)) : Link PgServer :=
  ⟨⟨db, .idle, []⟩, faults⟩

def createPgTable (name : String) (columns : List String) : Statement PgObject PgDefinition :=
  ⟨.createIfNotExists, .relation name, .table columns, none⟩

def createPgIndex (unique : Bool) (name table : String) (columns : List String)
    (predicate : Option String) : Statement PgObject PgDefinition :=
  ⟨.createIfNotExists, .relation name, .index unique table columns predicate,
    some (.relation table)⟩

/-- `COMMENT ON` the table of inbox events or one of its columns. -/
def comment (on text : String) : Statement PgObject PgDefinition :=
  ⟨.replace, .comment on, .comment text, some (.relation "inbox_events")⟩

def sqlPostgres : SqlDir PgObject PgDefinition where
  files := [
    ⟨"001_create_tables.sql", [
      createPgTable "outbox_config" [
        "id", "key", "value", "description", "updated_at", "updated_by"],
      createPgTable "outbox_events" [
        "id", "aggregate_type", "aggregate_id", "event_type", "event_version", "payload",
        "headers", "destination_url", "destination_type", "idempotency_key", "status",
        "retry_count", "max_retries", "next_retry_at", "backoff_multiplier", "last_error",
        "error_details", "created_at", "updated_at", "processing_started_at", "processed_at",
        "metadata", "processed_by_worker", "deleted_at", "created_date"]]⟩,
    ⟨"002_create_indexes.sql", [
      createPgIndex false "idx_outbox_status_retry" "outbox_events"
        ["created_at", "next_retry_at"]
        (some "status IN ('pending', 'failed') AND deleted_at IS NULL"),
      createPgIndex false "idx_outbox_processing" "outbox_events"
        ["status", "processing_started_at"] (some "status = 'processing' AND deleted_at IS NULL"),
      createPgIndex false "idx_outbox_aggregate" "outbox_events"
        ["aggregate_type", "aggregate_id", "created_at DESC NULLS LAST"] none,
      createPgIndex false "idx_outbox_created_at" "outbox_events"
        ["created_at DESC NULLS LAST"] none,
      createPgIndex true "idx_outbox_idempotency" "outbox_events"
        ["idempotency_key"] (some "idempotency_key IS NOT NULL AND status != 'succeeded'"),
      createPgIndex false "idx_outbox_partition" "outbox_events" ["created_date", "status"] none,
      createPgIndex false "idx_outbox_worker" "outbox_events"
        ["processed_by_worker"] (some "processed_by_worker IS NOT NULL")]⟩,
    ⟨"003_create_inbox_tables.sql", [
      createPgTable "inbox_events" [
        "id", "idempotency_key", "source", "aggregate_type", "aggregate_id", "event_type",
        "event_version", "payload", "headers", "metadata", "status", "error", "received_at",
        "processed_at"],
      comment "inbox_events"
        ("Transactional inbox for idempotent event consumption. Provides idempotent " ++
          "processing via deduplication."),
      comment "inbox_events.idempotency_key"
        "Unique key for deduplication. Required. Consumer chooses the key strategy.",
      comment "inbox_events.source"
        "Optional source identifier for observability (e.g., webhook, kafka:topic, stripe)",
      comment "inbox_events.status"
        "processed = successfully handled, failed = business error (requires attention)"]⟩,
    ⟨"004_create_inbox_indexes.sql", [
      createPgIndex true "idx_inbox_idempotency" "inbox_events" ["idempotency_key"] none,
      createPgIndex false "idx_inbox_status" "inbox_events" ["status"] (some "status = 'failed'"),
      createPgIndex false "idx_inbox_aggregate" "inbox_events"
        ["aggregate_type", "aggregate_id", "received_at DESC NULLS LAST"] none,
      createPgIndex false "idx_inbox_cleanup" "inbox_events"
        ["processed_at"] (some "status = 'processed'"),
      createPgIndex false "idx_inbox_source" "inbox_events"
        ["source"] (some "source IS NOT NULL")]⟩]
  nodup_files := by decide
  nodup_created := by decide
  nonempty := by decide

variable (dir) in
/-- The recorded migrations are in effect, and nothing of the others exists. -/
structure Consistent (db : PgDatabase) : Prop where
  recorded : ∀ name ∈ dir.getAllMigrationNames, name ∈ db.recorded →
    ∀ s ∈ dir.script name, s.InEffect db.schema
  pending : ∀ name ∈ dir.getAllMigrationNames, name ∉ db.recorded →
    ∀ s ∈ dir.script name, db.schema s.name = none

theorem Consistent.advanced {db db' : PgDatabase} {done : List String} (h : Consistent dir db)
    (hdone : done <+: pendingMigrations dir db) (hadvanced : Advanced dir db done db') :
    Consistent dir db' := by
  have hsub : done.Sublist dir.getAllMigrationNames :=
    hdone.sublist.trans List.filter_sublist
  have hscripts := hsub.flatMap dir.script
  have hsame : ∀ name ∈ dir.getAllMigrationNames, name ∉ done → ∀ s ∈ dir.script name,
      applyAll (done.flatMap dir.script) db.schema s.name = db.schema s.name := by
    intro name hname hnot s hs
    have hwhole : s ∈ dir.getAllMigrationNames.flatMap dir.script :=
      List.mem_flatMap.mpr ⟨name, hname, hs⟩
    refine applyAll_of_not_mem_of_nodup _ dir.nodup_names_scripts hscripts.subset hwhole ?_
    intro hmem
    obtain ⟨other, hother, hs'⟩ := List.mem_flatMap.mp hmem
    obtain rfl := SqlDir.eq_of_mem_script hname (hsub.subset hother) hs hs'
    exact hnot hother
  constructor
  · intro name hname hrecorded s hs
    rw [hadvanced.schema]
    by_cases hnew : name ∈ done
    · have hnames := dir.nodup_names_scripts.sublist (hscripts.map _)
      exact inEffect_applyAll hnames (List.mem_flatMap.mpr ⟨name, hnew, hs⟩)
    · rw [Statement.inEffect_congr (hsame name hname hnew s hs)]
      rw [hadvanced.recorded, List.mem_append] at hrecorded
      exact h.recorded name hname (hrecorded.resolve_right hnew) s hs
  · intro name hname hpending s hs
    rw [hadvanced.recorded, List.mem_append, not_or] at hpending
    rw [hadvanced.schema, hsame name hname hpending.2 s hs]
    exact h.pending name hname hpending.1 s hs

end Outboxy.Migrations
