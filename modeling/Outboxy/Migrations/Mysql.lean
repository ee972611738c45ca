import Outboxy.Library.Session
import Outboxy.Migrations.SqlDir

/-!
# The MySQL migrations

`runMySQLMigrations` sends each migration that is not recorded in
`__outboxy_migrations` as one query of many statements and records it.  DDL
commits on its own, so a run that is interrupted leaves a migration half done
and unrecorded.  The next run meets the index that exists already, and the
error of that statement ends the query and is ignored.

`applyMySQLMigration_ensures` says which statements one migration executes and
`runMySQLMigrations_ensures` which ones a run does: of each pending script the
part before its first taken index name.
-/

namespace Outboxy.Migrations

open Ddl Session

/-- A table, or an index of a table. -/
inductive MysqlObject
  | table (name : String)
  | key (table name : String)
  deriving DecidableEq, Repr

inductive MysqlDefinition
  | table (columns : List String) (uniqueKeys : List (String × String))
  | index (unique : Bool) (columns : List String)
  deriving DecidableEq, Repr

/-- `migrations` are the names in `__outboxy_migrations`, when it exists. -/
structure MysqlDatabase where
  schema : Schema MysqlObject MysqlDefinition
  migrations : Option (List String)

def MysqlDatabase.recorded (db : MysqlDatabase) : List String := db.migrations.getD []

inductive MysqlStatement
  | createMigrationsTable
  | ddl (statement : Statement MysqlObject MysqlDefinition)
  | insertIgnore (name : String)

/-- The error codes that statements of a migration run into. -/
inductive MysqlCode
  | dupKeyname
  | tableExists
  | noSuchTable
  deriving DecidableEq, Repr

def refusalCode : Refusal MysqlObject → MysqlCode
  | .nameTaken (.key _ _) => .dupKeyname
  | .nameTaken (.table _) => .tableExists
  | .noSuchName _ => .noSuchTable

namespace MysqlStatement

def execute : MysqlStatement → EStateM MysqlCode MysqlDatabase PUnit
  | createMigrationsTable => modify fun db => { db with migrations := some db.recorded }
  | ddl statement => fun db =>
    match statement.execute db.schema with
    | .ok _ schema => .ok ⟨⟩ { db with schema }
    | .error refusal schema => .error (refusalCode refusal) { db with schema }
  | insertIgnore name => fun db =>
    match db.migrations with
    | none => .error .noSuchTable db
    | some names =>
      .ok ⟨⟩ { db with migrations := some (if name ∈ names then names else names ++ [name]) }

end MysqlStatement

abbrev MysqlRun := EStateM (Failure MysqlCode) (Link MysqlDatabase)

variable (dir : SqlDir MysqlObject MysqlDefinition)

/-- One turn of the loop in `runMySQLMigrations`. -/
def applyMySQLMigration (migrationName : String) : MysqlRun PUnit := do
  match dir.read? (migrationName ++ ".sql") with
  | none => throw (.thrown ("MySQL migration file not found: " ++ migrationName ++ ".sql"))
  | some migrationSQL =>
    try
      query MysqlStatement.execute (migrationSQL.map .ddl)
    catch error =>
      -- the rest of the script is not executed
      if error ≠ .refused .dupKeyname then throw error
    query MysqlStatement.execute [.insertIgnore migrationName]

def selectMigrations (db : MysqlDatabase) : Except MysqlCode (List String) :=
  db.migrations.elim (.error .noSuchTable) .ok

/-- The `catch` around the whole run logs the error and throws it again. -/
def runMySQLMigrations : MysqlRun PUnit := do
  try
    query MysqlStatement.execute [.createMigrationsTable]
    let applied ← select selectMigrations
    dir.getAllMigrationNames.forM fun migrationName => do
      if migrationName ∉ applied then applyMySQLMigration dir migrationName
  finally
    query MysqlStatement.execute []

/-! ## What a run executes -/

theorem ddl_ensures (statement : Statement MysqlObject MysqlDefinition) (db : MysqlDatabase) :
    Ensures (MysqlStatement.ddl statement).execute db
      (fun _ db' => db' = { db with schema := statement.apply db.schema } ∧
        ¬statement.blocked db.schema)
      (fun e db' => db' = db ∧ (e = .dupKeyname → statement.blocked db.schema)) := by
  by_cases hdangling : statement.dangling db.schema
  · have hrun : (MysqlStatement.ddl statement).execute.run db = .error .noSuchTable db := by
      simp [EStateM.run, MysqlStatement.execute, Statement.execute, hdangling, refusalCode]
    exact ensures_error hrun ⟨rfl, by simp⟩
  · by_cases hblocked : statement.blocked db.schema
    · have hrun : (MysqlStatement.ddl statement).execute.run db =
          .error (refusalCode (.nameTaken statement.name)) db := by
        simp [EStateM.run, MysqlStatement.execute, Statement.execute, hdangling, hblocked]
      exact ensures_error hrun ⟨rfl, fun _ => hblocked⟩
    · have hrun : (MysqlStatement.ddl statement).execute.run db =
          .ok ⟨⟩ { db with schema := statement.apply db.schema } := by
        simp [EStateM.run, MysqlStatement.execute, Statement.execute, hdangling, hblocked]
      exact ensures_ok hrun ⟨rfl, hblocked⟩

theorem insertIgnore_ensures (name : String) (db : MysqlDatabase) :
    Ensures (MysqlStatement.insertIgnore name).execute db
      (fun _ db' => db'.schema = db.schema ∧
        ∀ other, other ∈ db'.recorded ↔ other ∈ db.recorded ∨ other = name)
      (fun _ _ => True) := by
  cases hmigrations : db.migrations with
  | none =>
    have hrun : (MysqlStatement.insertIgnore name).execute.run db = .error .noSuchTable db := by
      simp [EStateM.run, MysqlStatement.execute, hmigrations]
    exact ensures_error hrun trivial
  | some names =>
    have hrun : (MysqlStatement.insertIgnore name).execute.run db =
        .ok ⟨⟩ { db with
          migrations := some (if name ∈ names then names else names ++ [name]) } := by
      simp [EStateM.run, MysqlStatement.execute, hmigrations]
    refine ensures_ok hrun ⟨rfl, ?_⟩
    intro other
    by_cases hmem : name ∈ names
    · rw [MysqlDatabase.recorded, MysqlDatabase.recorded, hmigrations, if_pos hmem]
      constructor
      · exact Or.inl
      · rintro (h | rfl)
        · exact h
        · exact hmem
    · simp [MysqlDatabase.recorded, hmigrations, hmem]

/-- A script is executed to its end or up to its first taken name. -/
theorem script_ensures {script : List (Statement MysqlObject MysqlDefinition)}
    (hnames : (names script).Nodup) (db : MysqlDatabase) :
    Ensures ((script.map MysqlStatement.ddl).forM MysqlStatement.execute) db
      (fun _ db' => db' = { db with schema := applyAll script db.schema } ∧
        ∀ s ∈ script, ¬s.blocked db.schema)
      (fun e db' => e = .dupKeyname → ∃ done s rest, script = done ++ s :: rest ∧
        s.blocked db.schema ∧ (∀ t ∈ done, ¬t.blocked db.schema) ∧
        db' = { db with schema := applyAll done db.schema }) := by
  induction script generalizing db with
  | nil => exact ensures_pure ⟨rfl, by simp⟩
  | cons first rest ih =>
    have hrest : (names rest).Nodup := (List.nodup_cons.mp hnames).2
    rw [List.map_cons]
    apply ensures_bind
    refine (ddl_ensures first db).mono ?_ ?_
    · rintro - db' ⟨rfl, hfree⟩
      refine (ih hrest _).mono ?_ ?_
      · rintro - db'' ⟨rfl, hall⟩
        refine ⟨rfl, ?_⟩
        rintro s (_ | ⟨_, hs⟩)
        · exact hfree
        · rw [← blocked_apply hnames hs]
          exact hall s hs
      · intro e db'' herror he
        obtain ⟨done, s, post, rfl, hblocked, hdone, rfl⟩ := herror he
        refine ⟨first :: done, s, post, rfl, ?_, ?_, rfl⟩
        · rw [← blocked_apply hnames (by simp)]
          exact hblocked
        · rintro t (_ | ⟨_, ht⟩)
          · exact hfree
          · rw [← blocked_apply hnames (List.mem_append_left _ ht)]
            exact hdone t ht
    · rintro e db' ⟨rfl, hblocked⟩ he
      exact ⟨[], first, rest, rfl, hblocked he, by simp, rfl⟩

/-- The part of a migration's script before its first taken name. -/
def executedPart (name : String) (db : MysqlDatabase) :
    List (Statement MysqlObject MysqlDefinition) :=
  unblocked (dir.script name) db.schema

variable {dir}

/-- A migration's query ends well, or with the error that is ignored, when
that part has been executed. -/
theorem migrationQuery_ensures {name : String} (hname : name ∈ dir.getAllMigrationNames)
    (link : Link MysqlDatabase) :
    Ensures (query MysqlStatement.execute ((dir.script name).map .ddl)) link
      (fun _ link' => link'.server = { link.server with
        schema := applyAll (executedPart dir name link.server) link.server.schema })
      (fun e link' => e = .refused .dupKeyname → link'.server = { link.server with
        schema := applyAll (executedPart dir name link.server) link.server.schema }) := by
  have hnames : (names (dir.script name)).Nodup := dir.nodup_names_script hname
  apply ensures_query
  intro sent hsent
  obtain ⟨script, ⟨rest, hscript⟩, rfl⟩ := List.prefix_map_iff.mp hsent
  have hnodup : (names script).Nodup := by
    rw [← hscript, names, List.map_append] at hnames
    exact (List.nodup_append.mp hnames).1
  refine (script_ensures hnodup link.server).mono ?_ ?_
  · rintro - db ⟨rfl, hfree⟩
    refine ⟨?_, by simp⟩
    intro hall
    have hscript : script = dir.script name :=
      List.map_injective_iff.mpr (fun _ _ => MysqlStatement.ddl.inj) hall
    subst hscript
    rw [executedPart, unblocked_of_forall hfree]
    rfl
  · intro e db herror he
    obtain ⟨done, s, post, rfl, hblocked, hdone, rfl⟩ := herror (by simpa using he)
    rw [executedPart, ← hscript, List.append_assoc, List.cons_append,
      unblocked_append hdone hblocked]
    rfl

/-- A migration that is applied executes that part and is recorded. -/
theorem applyMySQLMigration_ensures {name : String} (hname : name ∈ dir.getAllMigrationNames)
    (link : Link MysqlDatabase) :
    Ensures (applyMySQLMigration dir name) link
      (fun _ link' => link'.server.schema =
          applyAll (executedPart dir name link.server) link.server.schema ∧
        ∀ other, other ∈ link'.server.recorded ↔ other ∈ link.server.recorded ∨ other = name)
      (fun _ _ => True) := by
  have hinsert : ∀ link' : Link MysqlDatabase, link'.server = { link.server with
        schema := applyAll (executedPart dir name link.server) link.server.schema } →
      Ensures (query MysqlStatement.execute [.insertIgnore name]) link'
        (fun _ link'' => link''.server.schema =
            applyAll (executedPart dir name link.server) link.server.schema ∧
          ∀ other, other ∈ link''.server.recorded ↔ other ∈ link.server.recorded ∨ other = name)
        (fun _ _ => True) := by
    intro link' hlink'
    refine ensures_query_singleton (fun _ => trivial) ?_
    rw [hlink']
    refine (insertIgnore_ensures name _).mono ?_ (fun _ _ _ => trivial)
    rintro - db ⟨hschema, hrecorded⟩
    exact ⟨⟨hschema, hrecorded⟩, fun _ => trivial⟩
  unfold applyMySQLMigration
  rw [SqlDir.read?_of_mem_getAllMigrationNames hname]
  apply ensures_bind
  apply ensures_tryCatch
  refine (migrationQuery_ensures hname link).mono ?_ ?_
  · rintro - link' hlink'
    exact hinsert link' hlink'
  · intro e link' herror
    by_cases he : e = .refused .dupKeyname
    · rw [if_neg (by simp [he])]
      exact ensures_pure (hinsert link' (herror he))
    · rw [if_pos he]
      exact ensures_throw trivial

variable (dir) in
/-- A run executes these statements. -/
def executedParts (db : MysqlDatabase) (migrationNames : List String) :
    List (Statement MysqlObject MysqlDefinition) :=
  (migrationNames.filter (· ∉ db.recorded)).flatMap fun name => executedPart dir name db

theorem executedParts_sublist (dir : SqlDir MysqlObject MysqlDefinition) (db : MysqlDatabase)
    (migrationNames : List String) :
    (executedParts dir db migrationNames).Sublist (migrationNames.flatMap dir.script) := by
  have hfilter := (List.filter_sublist (p := (· ∉ db.recorded))
    (l := migrationNames)).flatMap dir.script
  refine List.Sublist.trans ?_ hfilter
  exact List.Sublist.flatMap_right _ fun name _ => (prefix_unblocked _ _).sublist

/-- The migrations before another one do not touch its names. -/
theorem executedParts_schema {done rest : List String} {name : String} {db : MysqlDatabase}
    (hall : dir.getAllMigrationNames = done ++ name :: rest) {s : Statement _ _}
    (hs : s ∈ dir.script name) :
    applyAll (executedParts dir db done) db.schema s.name = db.schema s.name := by
  apply applyAll_of_not_mem
  intro hmem
  have hnames := dir.nodup_names_scripts
  rw [hall, List.flatMap_append, names, List.map_append] at hnames
  have hdone := ((executedParts_sublist dir db done).map (·.name)).subset hmem
  have hrest : s.name ∈ names ((name :: rest).flatMap dir.script) :=
    List.mem_map_of_mem (List.mem_flatMap.mpr ⟨name, List.mem_cons_self, hs⟩)
  exact (List.nodup_append.mp hnames).2.2 _ hdone _ hrest rfl

variable (dir) in
/-- `db` is what a run from `start` has made of it when it is through with the
migrations `done`. -/
structure Progress (start : MysqlDatabase) (done : List String) (db : MysqlDatabase) : Prop where
  schema : db.schema = applyAll (executedParts dir start done) start.schema
  recorded : ∀ name, name ∈ db.recorded ↔ name ∈ start.recorded ∨ name ∈ done

theorem Progress.executedPart_eq {start db : MysqlDatabase} {done rest : List String}
    {name : String} (h : Progress dir start done db)
    (hall : dir.getAllMigrationNames = done ++ name :: rest) :
    executedPart dir name db = executedPart dir name start := by
  apply unblocked_congr
  intro s hs
  rw [h.schema]
  exact executedParts_schema hall hs

theorem executedParts_append (start : MysqlDatabase) (done : List String) (name : String) :
    executedParts dir start (done ++ [name]) = executedParts dir start done ++
      if name ∈ start.recorded then [] else executedPart dir name start := by
  unfold executedParts
  by_cases hname : name ∈ start.recorded
  · simp [List.filter_append, hname]
  · simp [List.filter_append, hname]

/-- One turn of the loop. -/
theorem Progress.turn {start : MysqlDatabase} {done rest applied : List String} {name : String}
    {link : Link MysqlDatabase} (h : Progress dir start done link.server)
    (happlied : ∀ name, name ∈ applied ↔ name ∈ start.recorded)
    (hall : dir.getAllMigrationNames = done ++ name :: rest) :
    Ensures (if name ∉ applied then applyMySQLMigration dir name else pure ⟨⟩) link
      (fun _ link' => Progress dir start (done ++ [name]) link'.server) (fun _ _ => True) := by
  by_cases hname : name ∈ start.recorded
  · rw [if_neg (by simpa using (happlied name).mpr hname)]
    refine ensures_pure ⟨?_, ?_⟩
    · rw [executedParts_append, if_pos hname, List.append_nil]
      exact h.schema
    · intro other
      rw [h.recorded, List.mem_append, List.mem_singleton]
      constructor
      · rintro (hstart | hdone)
        · exact Or.inl hstart
        · exact Or.inr (Or.inl hdone)
      · rintro (hstart | hdone | rfl)
        · exact Or.inl hstart
        · exact Or.inr hdone
        · exact Or.inl hname
  · rw [if_pos (by rwa [happlied])]
    refine (applyMySQLMigration_ensures (by simp [hall]) link).mono ?_ (fun _ _ _ => trivial)
    rintro - link' ⟨hschema, hrecorded⟩
    constructor
    · rw [hschema, executedParts_append, if_neg hname, applyAll_append, ← h.schema,
        h.executedPart_eq hall]
    · intro other
      rw [hrecorded, h.recorded, List.mem_append, List.mem_singleton, or_assoc]

/-- A run that succeeds executes of each pending script the part before its
first taken name, and records all migrations. -/
theorem runMySQLMigrations_ensures (link : Link MysqlDatabase) :
    Ensures (runMySQLMigrations dir) link
      (fun _ link' => Progress dir link.server dir.getAllMigrationNames link'.server)
      (fun _ _ => True) := by
  have hend : ∀ link', Progress dir link.server dir.getAllMigrationNames link'.server →
      Ensures (query MysqlStatement.execute []) link'
        (fun _ link'' => Progress dir link.server dir.getAllMigrationNames link''.server)
        (fun _ _ => True) := by
    intro link' h
    apply ensures_query
    intro sent hsent
    obtain rfl := List.prefix_nil.mp hsent
    exact ensures_pure ⟨fun _ => h, fun _ => trivial⟩
  unfold runMySQLMigrations
  apply ensures_tryFinally
  apply ensures_bind
  refine ensures_query_singleton (fun _ => ensures_trivial _ _) ?_
  refine ensures_ok rfl ⟨?_, fun _ => ensures_trivial _ _⟩
  apply ensures_bind
  refine ensures_select ?_ (fun _ _ => ensures_trivial _ _) (fun _ => ensures_trivial _ _)
  intro applied happlied
  obtain rfl : link.server.recorded = applied := Except.ok.inj happlied
  refine (ensures_forM (fun rest link' => ∃ done, dir.getAllMigrationNames = done ++ rest ∧
    Progress dir link.server done link'.server) ?_ _ ?_).mono ?_ (fun _ _ h => h)
  · rintro name rest link' ⟨done, hall, h⟩
    refine (h.turn (fun _ => Iff.rfl) hall).mono ?_ (fun _ _ _ => ensures_trivial _ _)
    intro _ link'' h'
    exact ⟨done ++ [name], by simp [hall], h'⟩
  · exact ⟨[], rfl, rfl, by simp [MysqlDatabase.recorded]⟩
  · rintro - link' ⟨done, hall, h⟩
    rw [List.append_nil] at hall
    subst hall
    exact hend link' h

/-! ## The files under `sql/mysql` -/

def createTable (name : String) (columns : List String) (uniqueKeys : List (String × String)) :
    Statement MysqlObject MysqlDefinition :=
  ⟨.createIfNotExists, .table name, .table columns uniqueKeys, none⟩

/-- MySQL has no `IF NOT EXISTS` for an index. -/
def createIndex (unique : Bool) (name table : String) (columns : List String) :
    Statement MysqlObject MysqlDefinition :=
  ⟨.create, .key table name, .index unique columns, some (.table table)⟩

def sqlMysql : SqlDir MysqlObject MysqlDefinition where
  files := [
    ⟨"001_create_tables.sql", [
      createTable "outbox_config" [
          "id", "key", "value", "description", "updated_at", "updated_by"]
        [("outbox_config_key_unique", "key")],
      createTable "outbox_events" [
          "id", "aggregate_type", "aggregate_id", "event_type", "event_version", "payload",
          "headers", "destination_url", "destination_type", "idempotency_key", "status",
          "retry_count", "max_retries", "next_retry_at", "backoff_multiplier", "last_error",
          "error_details", "created_at", "updated_at", "processing_started_at", "processed_at",
          "metadata", "processed_by_worker", "deleted_at", "created_date"] []]⟩,
    ⟨"002_create_indexes.sql", [
      createIndex false "idx_outbox_status_retry" "outbox_events" ["status", "next_retry_at"],
      createIndex false "idx_outbox_processing" "outbox_events"
        ["status", "processing_started_at"],
      createIndex false "idx_outbox_aggregate" "outbox_events"
        ["aggregate_type", "aggregate_id", "created_at DESC"],
      createIndex false "idx_outbox_created_at" "outbox_events" ["created_at DESC"],
      createIndex true "idx_outbox_idempotency" "outbox_events" ["idempotency_key"],
      createIndex false "idx_outbox_partition" "outbox_events" ["created_date", "status"],
      createIndex false "idx_outbox_worker" "outbox_events" ["processed_by_worker"]]⟩,
    ⟨"003_create_inbox_tables.sql", [
      createTable "inbox_events" [
          "id", "idempotency_key", "source", "aggregate_type", "aggregate_id", "event_type",
          "event_version", "payload", "headers", "metadata", "status", "error", "received_at",
          "processed_at"] [("idx_inbox_idempotency", "idempotency_key")]]⟩,
    ⟨"004_create_inbox_indexes.sql", [
      createIndex false "idx_inbox_status" "inbox_events" ["status"],
      createIndex false "idx_inbox_aggregate" "inbox_events"
        ["aggregate_type", "aggregate_id", "received_at DESC"],
      createIndex false "idx_inbox_cleanup" "inbox_events" ["processed_at"],
      createIndex false "idx_inbox_source" "inbox_events" ["source"]]⟩]
  nodup_files := by decide
  nodup_created := by decide
  nonempty := by decide

/-- The database before the first run. -/
def emptyMysql : MysqlDatabase := ⟨fun _ => none, none⟩

/-! ## Soundness -/

variable (dir) in
/-- Every statement of every recorded migration is in effect. -/
def RecordedInEffect (db : MysqlDatabase) : Prop :=
  ∀ name ∈ dir.getAllMigrationNames, name ∈ db.recorded →
    ∀ s ∈ dir.script name, s.InEffect db.schema

instance (db : MysqlDatabase) : Decidable (RecordedInEffect dir db) := by
  unfold RecordedInEffect
  infer_instance

variable (dir) in
/-- In each migration that is not recorded, all statements from a taken name on
are in effect. -/
def TailsInEffect (db : MysqlDatabase) : Prop :=
  ∀ name ∈ dir.getAllMigrationNames, name ∉ db.recorded →
    ∀ done s rest, dir.script name = done ++ s :: rest → s.blocked db.schema →
      ∀ t ∈ s :: rest, t.InEffect db.schema

theorem mem_executedParts {db : MysqlDatabase} {name : String}
    {s : Statement MysqlObject MysqlDefinition} (hname : name ∈ dir.getAllMigrationNames)
    (hs : s ∈ dir.script name) :
    s ∈ executedParts dir db dir.getAllMigrationNames ↔
      name ∉ db.recorded ∧ s ∈ executedPart dir name db := by
  rw [executedParts, List.mem_flatMap]
  constructor
  · rintro ⟨other, hother, hexecuted⟩
    obtain ⟨hall, hpending⟩ := List.mem_filter.mp hother
    have hscript : s ∈ dir.script other := (prefix_unblocked _ _).subset hexecuted
    obtain rfl := SqlDir.eq_of_mem_script hname hall hs hscript
    exact ⟨by simpa using hpending, hexecuted⟩
  · rintro ⟨hpending, hexecuted⟩
    exact ⟨name, List.mem_filter.mpr ⟨hname, by simpa using hpending⟩, hexecuted⟩

/-- What a run that succeeded executed is in effect, and the rest is as before. -/
theorem Progress.inEffect_iff {start db : MysqlDatabase} {name : String}
    {s : Statement MysqlObject MysqlDefinition}
    (h : Progress dir start dir.getAllMigrationNames db)
    (hname : name ∈ dir.getAllMigrationNames) (hs : s ∈ dir.script name) :
    s.InEffect db.schema ↔
      (name ∉ start.recorded ∧ s ∈ executedPart dir name start) ∨ s.InEffect start.schema := by
  have hsub := executedParts_sublist dir start dir.getAllMigrationNames
  have hnames : (names (executedParts dir start dir.getAllMigrationNames)).Nodup :=
    dir.nodup_names_scripts.sublist (hsub.map _)
  rw [← mem_executedParts hname hs, h.schema]
  by_cases hexecuted : s ∈ executedParts dir start dir.getAllMigrationNames
  · simp [hexecuted, inEffect_applyAll hnames hexecuted]
  · have hwhole : s ∈ dir.getAllMigrationNames.flatMap dir.script :=
      List.mem_flatMap.mpr ⟨name, hname, hs⟩
    have hsame := applyAll_of_not_mem_of_nodup start.schema dir.nodup_names_scripts hsub.subset
      hwhole hexecuted
    rw [Statement.inEffect_congr hsame]
    simp [hexecuted]

/-- After a run that succeeds the recorded migrations are in effect exactly
when those recorded before it were, and in the pending ones everything from a
taken name on was. -/
theorem recordedInEffect_runMySQLMigrations_iff (dir : SqlDir MysqlObject MysqlDefinition)
    (link : Link MysqlDatabase) (hsucceeds : succeeds (runMySQLMigrations dir) link) :
    RecordedInEffect dir (final (runMySQLMigrations dir) link).server ↔
      RecordedInEffect dir link.server ∧ TailsInEffect dir link.server := by
  have h := (runMySQLMigrations_ensures link).of_succeeds hsucceeds
  constructor
  · intro heffect
    have hall : ∀ name ∈ dir.getAllMigrationNames, ∀ s ∈ dir.script name,
        (name ∉ link.server.recorded ∧ s ∈ executedPart dir name link.server) ∨
          s.InEffect link.server.schema := by
      intro name hname s hs
      rw [← h.inEffect_iff hname hs]
      exact heffect name hname ((h.recorded name).mpr (Or.inr hname)) s hs
    constructor
    · intro name hname hrecorded s hs
      rcases hall name hname s hs with ⟨hpending, _⟩ | hin
      · exact absurd hrecorded hpending
      · exact hin
    · intro name hname hpending done s rest hscript hblocked t ht
      have hmem : t ∈ dir.script name := by
        rw [hscript]
        exact List.mem_append_right _ ht
      rcases hall name hname t hmem with ⟨_, hexecuted⟩ | hin
      · rw [executedPart, hscript] at hexecuted
        have hdone := (prefix_unblocked_of_blocked hblocked).subset hexecuted
        have hnodup := (dir.nodup_names_script hname).of_map
        rw [hscript] at hnodup
        exact absurd rfl ((List.nodup_append.mp hnodup).2.2 _ hdone _ ht)
      · exact hin
  · rintro ⟨heffect, htails⟩ name hname - s hs
    rw [h.inEffect_iff hname hs]
    by_cases hrecorded : name ∈ link.server.recorded
    · exact Or.inr (heffect name hname hrecorded s hs)
    · by_cases hexecuted : s ∈ executedPart dir name link.server
      · exact Or.inl ⟨hrecorded, hexecuted⟩
      · obtain ⟨done, first, rest, hscript, hblocked, hmem⟩ := exists_blocked hs hexecuted
        exact Or.inr (htails name hname hrecorded done first rest hscript hblocked s hmem)

/-- An empty database whose first run was cut after one index. -/
def cutMysql : MysqlDatabase :=
  (final (runMySQLMigrations sqlMysql) ⟨emptyMysql, [none, none, none, none, some 1]⟩).server

/-- The run after that succeeds and records all migrations, and the unique
idempotency index does not exist. -/
theorem runMySQLMigrations_after_cut :
    ¬succeeds (runMySQLMigrations sqlMysql) ⟨emptyMysql, [none, none, none, none, some 1]⟩ ∧
      succeeds (runMySQLMigrations sqlMysql) ⟨cutMysql, []⟩ ∧
      "002_create_indexes" ∈
        (final (runMySQLMigrations sqlMysql) ⟨cutMysql, []⟩).server.recorded ∧
      (final (runMySQLMigrations sqlMysql) ⟨cutMysql, []⟩).server.schema
        (.key "outbox_events" "idx_outbox_idempotency") = none ∧
      ¬RecordedInEffect sqlMysql (final (runMySQLMigrations sqlMysql) ⟨cutMysql, []⟩).server := by
  decide +kernel

/-- On an empty database all is in effect after the first run. -/
theorem recordedInEffect_runMySQLMigrations_empty :
    RecordedInEffect sqlMysql (final (runMySQLMigrations sqlMysql) ⟨emptyMysql, []⟩).server := by
  apply (recordedInEffect_runMySQLMigrations_iff sqlMysql ⟨emptyMysql, []⟩ (by decide +kernel)).mpr
  refine ⟨by decide +kernel, ?_⟩
  intro name _ _ done s rest _ hblocked
  simp [Statement.blocked, emptyMysql] at hblocked

end Outboxy.Migrations
