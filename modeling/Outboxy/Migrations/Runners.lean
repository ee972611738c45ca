import Outboxy.Library.Transition
import Outboxy.Migrations.Mysql

/-!
# MySQL migrations that run in parallel

"Race condition when multiple packages run in parallel" is what
`runMySQLMigrations` says of the duplicate key names that it ignores and of its
`INSERT IGNORE`.  Here any number of runners work on one database.  A
statement is atomic, and the statements of different runners interleave, also
within the query of one migration.

Two runners may meet in the script of a migration.  The one that finds an
index taken gives up the rest of the script, and the one that made the index
goes on with it.  `Covered` says that every statement is in effect or that a
runner is bound to execute it, and `takeover` is how that duty passes on.

* `unthrown`: no runner fails.
* `inEffect_of_recorded`: a recorded migration is in effect, once no runner is
  in its script.
* `runners_sound` puts both together.
-/

namespace Outboxy.Migrations

open Ddl Session Transition

/-! ## The runners -/

/-- Where a runner is, by what it does next. -/
inductive Runner where
  /-- `CREATE TABLE IF NOT EXISTS __outboxy_migrations` -/
  | starting
  /-- `SELECT name FROM __outboxy_migrations` -/
  | selecting
  /-- The rest of the query of a migration, with the migrations after it. -/
  | applying (migrationName : String) (script : List (Statement MysqlObject MysqlDefinition))
      (rest : List String)
  /-- `INSERT IGNORE` -/
  | recording (migrationName : String) (rest : List String)
  | returned
  | threw

/-- A database and its runners. -/
structure Runners where
  db : MysqlDatabase
  runners : Nat → Runner

section Runners

variable (dir : SqlDir MysqlObject MysqlDefinition)

/-- The next turn of the loop, or its end. -/
def Runner.next : List String → Runner
  | [] => .returned
  | migrationName :: rest =>
    match dir.read? (migrationName ++ ".sql") with
    | none => .threw
    | some migrationSQL => .applying migrationName migrationSQL rest

/-- What a runner does next, and where it is then. -/
def Runner.step : Runner → MysqlDatabase → Option (MysqlDatabase × Runner)
  | .starting, db =>
    match MysqlStatement.createMigrationsTable.execute.run db with
    | .ok _ db' => some (db', .selecting)
    | .error _ db' => some (db', .threw)
  | .selecting, db =>
    match selectMigrations db with
    | .ok applied => some (db, .next dir (dir.getAllMigrationNames.filter (· ∉ applied)))
    | .error _ => some (db, .threw)
  | .applying migrationName [] rest, db => some (db, .recording migrationName rest)
  | .applying migrationName (statement :: script) rest, db =>
    match (MysqlStatement.ddl statement).execute.run db with
    | .ok _ db' => some (db', .applying migrationName script rest)
    | .error .dupKeyname db' => some (db', .recording migrationName rest)
    | .error _ db' => some (db', .threw)
  | .recording migrationName rest, db =>
    match (MysqlStatement.insertIgnore migrationName).execute.run db with
    | .ok _ db' => some (db', .next dir rest)
    | .error _ db' => some (db', .threw)
  | .returned, _ => none
  | .threw, _ => none

/-- One runner goes on. -/
def Runners.step (s : Runners) (r : Nat) : Option Runners :=
  ((s.runners r).step dir s.db).map fun result =>
    ⟨result.1, Function.update s.runners r result.2⟩

/-- Runners over a database that they find in `db`. -/
def mysqlRunners (db : MysqlDatabase) : System Runners Nat where
  init s := s = ⟨db, fun _ => .starting⟩
  step := Runners.step dir

/-- The index names of the unrecorded migrations are free, and the recorded
migrations are in effect. -/
structure Prepared (db : MysqlDatabase) : Prop where
  recorded : ∀ name ∈ dir.getAllMigrationNames, name ∈ db.recorded →
    ∀ s ∈ dir.script name, s.InEffect db.schema
  free : ∀ name ∈ dir.getAllMigrationNames, name ∉ db.recorded →
    ∀ s ∈ dir.script name, ¬s.blocked db.schema

/-- The script cannot be blocked. -/
def Unblockable (name : String) : Prop := ∀ s ∈ dir.script name, s.mode ≠ .create

instance (name : String) : Decidable (Unblockable dir name) :=
  inferInstanceAs (Decidable (∀ s ∈ dir.script name, s.mode ≠ .create))

/-- The name of an index. -/
def MysqlObject.isKey : MysqlObject → Bool
  | .key _ _ => true
  | .table _ => false

/-- Only indexes are made without `IF NOT EXISTS`, and a table that a statement
builds on comes from an earlier migration that makes no index. -/
structure Staged : Prop where
  keys : ∀ name ∈ dir.getAllMigrationNames, ∀ s ∈ dir.script name, s.mode = .create →
    s.name.isKey = true
  tables : ∀ name ∈ dir.getAllMigrationNames, ∀ s ∈ dir.script name, ∀ on ∈ s.on,
    ∃ earlier ∈ dir.getAllMigrationNames.takeWhile (· ≠ name),
      Unblockable dir earlier ∧ on ∈ names (dir.script earlier)

/-! ## The steps -/

/-- What one runner does, with the database before and after. -/
inductive Move (db : MysqlDatabase) : Runner → MysqlDatabase → Runner → Prop
  | created (db' : MysqlDatabase) (hschema : db'.schema = db.schema)
      (hrecorded : db'.recorded = db.recorded) (hsome : db'.migrations.isSome) :
      Move db .starting db' .selecting
  | selected (hsome : db.migrations.isSome) :
      Move db .selecting db (.next dir (dir.getAllMigrationNames.filter (· ∉ db.recorded)))
  | unselected (hnone : db.migrations = none) : Move db .selecting db .threw
  | finished (name : String) (rest : List String) :
      Move db (.applying name [] rest) db (.recording name rest)
  | executed (name : String) (statement : Statement MysqlObject MysqlDefinition)
      (script : List (Statement MysqlObject MysqlDefinition)) (rest : List String)
      (hfree : ¬statement.blocked db.schema) :
      Move db (.applying name (statement :: script) rest)
        { db with schema := statement.apply db.schema } (.applying name script rest)
  | skipped (name : String) (statement : Statement MysqlObject MysqlDefinition)
      (script : List (Statement MysqlObject MysqlDefinition)) (rest : List String)
      (hblocked : statement.blocked db.schema) :
      Move db (.applying name (statement :: script) rest) db (.recording name rest)
  | refused (name : String) (statement : Statement MysqlObject MysqlDefinition)
      (script : List (Statement MysqlObject MysqlDefinition)) (rest : List String)
      (hrefused : statement.dangling db.schema ∨
        statement.blocked db.schema ∧ ∃ table, statement.name = .table table) :
      Move db (.applying name (statement :: script) rest) db .threw
  | recorded (name : String) (rest : List String) (db' : MysqlDatabase)
      (hschema : db'.schema = db.schema)
      (hrecorded : ∀ other, other ∈ db'.recorded ↔ other ∈ db.recorded ∨ other = name)
      (hsome : db'.migrations.isSome) :
      Move db (.recording name rest) db' (.next dir rest)
  | unrecorded (name : String) (rest : List String) (hnone : db.migrations = none) :
      Move db (.recording name rest) db .threw

variable {dir}

theorem move_of_step {runner runner' : Runner} {db db' : MysqlDatabase}
    (h : runner.step dir db = some (db', runner')) : Move dir db runner db' runner' := by
  cases runner with
  | starting =>
    obtain ⟨rfl, rfl⟩ := Prod.mk.inj (Option.some.inj h)
    exact .created _ rfl rfl rfl
  | selecting =>
    cases hmigrations : db.migrations with
    | none =>
      simp only [Runner.step, selectMigrations, hmigrations, Option.elim_none] at h
      obtain ⟨rfl, rfl⟩ := Prod.mk.inj (Option.some.inj h)
      exact .unselected hmigrations
    | some applied =>
      simp only [Runner.step, selectMigrations, hmigrations, Option.elim_some] at h
      obtain ⟨rfl, rfl⟩ := Prod.mk.inj (Option.some.inj h)
      have hrecorded : db.recorded = applied := by rw [MysqlDatabase.recorded, hmigrations]; rfl
      rw [← hrecorded]
      exact .selected (by rw [hmigrations]; rfl)
  | applying name script rest =>
    cases script with
    | nil =>
      obtain ⟨rfl, rfl⟩ := Prod.mk.inj (Option.some.inj h)
      exact .finished name rest
    | cons statement script =>
      by_cases hdangling : statement.dangling db.schema = true
      · have hrun : (MysqlStatement.ddl statement).execute.run db = .error .noSuchTable db := by
          simp [EStateM.run, MysqlStatement.execute, Statement.execute, hdangling, refusalCode]
        simp only [Runner.step, hrun] at h
        obtain ⟨rfl, rfl⟩ := Prod.mk.inj (Option.some.inj h)
        exact .refused name statement script rest (Or.inl hdangling)
      · by_cases hblocked : statement.blocked db.schema = true
        · have hrun : (MysqlStatement.ddl statement).execute.run db =
              .error (refusalCode (.nameTaken statement.name)) db := by
            simp [EStateM.run, MysqlStatement.execute, Statement.execute, hdangling, hblocked]
          cases hname : statement.name with
          | key table key =>
            simp only [Runner.step, hrun, hname, refusalCode] at h
            obtain ⟨rfl, rfl⟩ := Prod.mk.inj (Option.some.inj h)
            exact .skipped name statement script rest hblocked
          | table table =>
            simp only [Runner.step, hrun, hname, refusalCode] at h
            obtain ⟨rfl, rfl⟩ := Prod.mk.inj (Option.some.inj h)
            exact .refused name statement script rest (Or.inr ⟨hblocked, table, hname⟩)
        · have hrun : (MysqlStatement.ddl statement).execute.run db =
              .ok ⟨⟩ { db with schema := statement.apply db.schema } := by
            simp [EStateM.run, MysqlStatement.execute, Statement.execute, hdangling, hblocked]
          simp only [Runner.step, hrun] at h
          obtain ⟨rfl, rfl⟩ := Prod.mk.inj (Option.some.inj h)
          exact .executed name statement script rest hblocked
  | recording name rest =>
    cases hmigrations : db.migrations with
    | none =>
      simp only [Runner.step, EStateM.run, MysqlStatement.execute, hmigrations] at h
      obtain ⟨rfl, rfl⟩ := Prod.mk.inj (Option.some.inj h)
      exact .unrecorded name rest hmigrations
    | some applied =>
      have hrun : (MysqlStatement.insertIgnore name).execute.run db =
          .ok ⟨⟩ { db with
            migrations := some (if name ∈ applied then applied else applied ++ [name]) } := by
        simp [EStateM.run, MysqlStatement.execute, hmigrations]
      have hinserted := (insertIgnore_ensures name db).of_ok hrun
      simp only [Runner.step, hrun] at h
      obtain ⟨rfl, rfl⟩ := Prod.mk.inj (Option.some.inj h)
      exact .recorded name rest _ hinserted.1 hinserted.2 rfl
  | returned => exact absurd h (by simp [Runner.step])
  | threw => exact absurd h (by simp [Runner.step])

/-! ## One runner -/

variable (dir) in
/-- The migrations that are left in file order, and all others are recorded. -/
structure Pending (db : MysqlDatabase) (rest : List String) : Prop where
  sublist : rest.Sublist dir.getAllMigrationNames
  recorded : ∀ name ∈ dir.getAllMigrationNames, name ∈ rest ∨ name ∈ db.recorded

variable (dir) in
/-- What holds of a runner at each point. -/
def RunnerOk (db : MysqlDatabase) : Runner → Prop
  | .starting => True
  | .selecting => db.migrations.isSome
  | .applying name script rest => db.migrations.isSome ∧ Pending dir db (name :: rest) ∧
      ∃ done, dir.script name = done ++ script ∧ ∀ st ∈ done, st.InEffect db.schema
  | .recording name rest => db.migrations.isSome ∧ Pending dir db (name :: rest) ∧
      (Unblockable dir name → ∀ st ∈ dir.script name, st.InEffect db.schema)
  | .returned => Pending dir db []
  | .threw => False

variable (dir) in
/-- What the statements of all runners keep. -/
structure Keeps (db db' : MysqlDatabase) : Prop where
  migrations : db.migrations.isSome → db'.migrations.isSome
  recorded : db.recorded ⊆ db'.recorded
  inEffect : ∀ name ∈ dir.getAllMigrationNames, ∀ st ∈ dir.script name,
    st.InEffect db.schema → st.InEffect db'.schema

variable {db db' : MysqlDatabase} {runner runner' : Runner} {name : String} {rest : List String}

theorem Pending.mem (h : Pending dir db (name :: rest)) : name ∈ dir.getAllMigrationNames :=
  h.sublist.subset List.mem_cons_self

theorem Pending.mono (h : Pending dir db rest) (hkeeps : Keeps dir db db') :
    Pending dir db' rest :=
  ⟨h.sublist, fun name hname => (h.recorded name hname).imp_right fun h => hkeeps.recorded h⟩

theorem Keeps.of_schema_eq (hmigrations : db.migrations.isSome → db'.migrations.isSome)
    (hrecorded : db.recorded ⊆ db'.recorded) (hschema : db'.schema = db.schema) :
    Keeps dir db db' :=
  ⟨hmigrations, hrecorded, fun _ _ _ _ h => hschema ▸ h⟩

theorem Keeps.refl (db : MysqlDatabase) : Keeps dir db db :=
  .of_schema_eq id (List.Subset.refl _) rfl

theorem RunnerOk.mono (h : RunnerOk dir db runner) (hkeeps : Keeps dir db db') :
    RunnerOk dir db' runner := by
  cases runner with
  | starting => exact trivial
  | selecting => exact hkeeps.migrations h
  | applying name script rest =>
    obtain ⟨hsome, hpending, done, hscript, hdone⟩ := h
    refine ⟨hkeeps.migrations hsome, hpending.mono hkeeps, done, hscript, fun st hst => ?_⟩
    exact hkeeps.inEffect name hpending.mem st (hscript ▸ List.mem_append_left _ hst)
      (hdone st hst)
  | recording name rest =>
    obtain ⟨hsome, hpending, hdone⟩ := h
    exact ⟨hkeeps.migrations hsome, hpending.mono hkeeps, fun hunblockable st hst =>
      hkeeps.inEffect name hpending.mem st hst (hdone hunblockable st hst)⟩
  | returned => exact Pending.mono h hkeeps
  | threw => exact h

/-- A name stands for one statement of all the scripts. -/
theorem eq_of_name_eq {name name' : String} {st st' : Statement MysqlObject MysqlDefinition}
    (hname : name ∈ dir.getAllMigrationNames) (hst : st ∈ dir.script name)
    (hname' : name' ∈ dir.getAllMigrationNames) (hst' : st' ∈ dir.script name')
    (heq : st.name = st'.name) : st = st' :=
  List.inj_on_of_nodup_map dir.nodup_names_scripts (List.mem_flatMap.mpr ⟨name, hname, hst⟩)
    (List.mem_flatMap.mpr ⟨name', hname', hst'⟩) heq

/-- A statement of a script leaves what is in effect in effect. -/
theorem keeps_apply {st : Statement MysqlObject MysqlDefinition}
    (hname : name ∈ dir.getAllMigrationNames) (hst : st ∈ dir.script name) :
    Keeps dir db { db with schema := st.apply db.schema } := by
  refine ⟨id, List.Subset.refl _, fun name' hname' st' hst' heffect => ?_⟩
  by_cases heq : st'.name = st.name
  · rw [eq_of_name_eq hname' hst' hname hst heq]
    exact Statement.inEffect_apply st db.schema
  · exact (Statement.inEffect_congr (Statement.apply_of_ne heq)).mpr heffect

theorem keeps_of_move (h : RunnerOk dir db runner) (hmove : Move dir db runner db' runner') :
    Keeps dir db db' := by
  cases hmove with
  | created _ hschema hrecorded hsome =>
    exact .of_schema_eq (fun _ => hsome) (hrecorded ▸ List.Subset.refl _) hschema
  | executed name st script rest hfree =>
    obtain ⟨-, hpending, done, hscript, -⟩ := h
    exact keeps_apply hpending.mem (by simp [hscript])
  | recorded name rest _ hschema hrecorded hsome =>
    exact .of_schema_eq (fun _ => hsome) (fun other h => (hrecorded other).mpr (Or.inl h)) hschema
  | selected | unselected | finished | skipped | refused | unrecorded => exact .refl db

/-- The loop goes on with the first migration that is left. -/
theorem next_cases (h : Pending dir db rest) :
    (rest = [] ∧ Runner.next dir rest = .returned) ∨
      ∃ name rest', rest = name :: rest' ∧
        Runner.next dir rest = .applying name (dir.script name) rest' := by
  cases rest with
  | nil => exact Or.inl ⟨rfl, rfl⟩
  | cons name rest' =>
    refine Or.inr ⟨name, rest', rfl, ?_⟩
    rw [Runner.next, SqlDir.read?_of_mem_getAllMigrationNames h.mem]

theorem runnerOk_next (hsome : db.migrations.isSome) (h : Pending dir db rest) :
    RunnerOk dir db (.next dir rest) := by
  rcases next_cases h with ⟨rfl, hnext⟩ | ⟨name, rest', rfl, hnext⟩
  · rw [hnext]
    exact h
  · rw [hnext]
    exact ⟨hsome, h, [], rfl, by simp⟩

/-- A part of a list of different items that starts with one of them has
nothing from before it. -/
private theorem not_mem_of_sublist_append {α : Type*} {x y : α} {before after rest : List α}
    (hsub : (x :: rest).Sublist (before ++ x :: after)) (hnodup : (before ++ x :: after).Nodup)
    (hy : y ∈ before) : y ∉ x :: rest := by
  intro hmem
  have hdisjoint := (List.nodup_append.mp hnodup).2.2
  obtain ⟨l₁, l₂, heq, h₁, h₂⟩ := List.sublist_append_iff.mp hsub
  cases l₁ with
  | nil =>
    rw [heq] at hmem
    exact hdisjoint y hy y (h₂.subset hmem) rfl
  | cons first l₁ =>
    obtain ⟨rfl, -⟩ := List.cons.inj heq
    exact hdisjoint x (h₁.subset List.mem_cons_self) x List.mem_cons_self rfl

/-- The table that a statement builds on is there. -/
theorem not_dangling (hstaged : Staged dir)
    (hunblockable : ∀ name ∈ dir.getAllMigrationNames, Unblockable dir name →
      name ∈ db.recorded → ∀ st ∈ dir.script name, st.InEffect db.schema)
    (h : Pending dir db (name :: rest)) {st : Statement MysqlObject MysqlDefinition}
    (hst : st ∈ dir.script name) : ¬st.dangling db.schema := by
  intro hdangling
  obtain ⟨on, hon, hnone⟩ := (Option.any_eq_true _ _).mp hdangling
  obtain ⟨earlier, hbefore, hfree, hnamed⟩ := hstaged.tables name h.mem st hst on hon
  obtain ⟨made, hmade, rfl⟩ := List.mem_map.mp hnamed
  obtain ⟨before, after, hall⟩ := List.append_of_mem h.mem
  have hnodup : (before ++ name :: after).Nodup := hall ▸ dir.nodup_getAllMigrationNames
  have hearlier : earlier ∈ before := by
    have hne : ∀ other ∈ before, other ≠ name := by
      rintro other hother rfl
      exact (List.nodup_append.mp hnodup).2.2 other hother other List.mem_cons_self rfl
    rw [hall, List.takeWhile_append_of_pos (by simpa using hne)] at hbefore
    simpa using hbefore
  have hmem : earlier ∈ dir.getAllMigrationNames := hall ▸ List.mem_append_left _ hearlier
  have hnot : earlier ∉ name :: rest :=
    not_mem_of_sublist_append (hall ▸ h.sublist) hnodup hearlier
  have hrecorded := (h.recorded earlier hmem).resolve_left hnot
  have heffect := hunblockable earlier hmem hfree hrecorded made hmade
  have hsome := Statement.isSome_of_inEffect heffect
  rw [Option.isNone_iff_eq_none.mp hnone] at hsome
  exact absurd hsome (by simp)

theorem runnerOk_of_move (hstaged : Staged dir)
    (hunblockable : ∀ name ∈ dir.getAllMigrationNames, Unblockable dir name →
      name ∈ db.recorded → ∀ st ∈ dir.script name, st.InEffect db.schema)
    (h : RunnerOk dir db runner) (hmove : Move dir db runner db' runner') :
    RunnerOk dir db' runner' := by
  have hkeeps := keeps_of_move h hmove
  cases hmove with
  | created _ _ _ hsome => exact hsome
  | selected hsome =>
    refine runnerOk_next hsome ⟨List.filter_sublist, fun name hname => ?_⟩
    by_cases hrecorded : name ∈ db.recorded
    · exact Or.inr hrecorded
    · exact Or.inl (List.mem_filter.mpr ⟨hname, by simpa using hrecorded⟩)
  | unselected hnone =>
    have hsome : db.migrations.isSome := h
    rw [hnone] at hsome
    exact absurd hsome (by simp)
  | finished name rest =>
    obtain ⟨hsome, hpending, done, hscript, hdone⟩ := h
    rw [List.append_nil] at hscript
    exact ⟨hsome, hpending, fun _ st hst => hdone st (hscript ▸ hst)⟩
  | executed name st script rest hfree =>
    obtain ⟨hsome, hpending, done, hscript, hdone⟩ := h
    refine ⟨hsome, hpending.mono hkeeps, done ++ [st], by simp [hscript], fun st' hst' => ?_⟩
    rcases List.mem_append.mp hst' with hst' | hst'
    · exact hkeeps.inEffect name hpending.mem st' (hscript ▸ List.mem_append_left _ hst')
        (hdone st' hst')
    · rw [List.mem_singleton.mp hst']
      exact Statement.inEffect_apply st db.schema
  | skipped name st script rest hblocked =>
    obtain ⟨hsome, hpending, done, hscript, hdone⟩ := h
    refine ⟨hsome, hpending, fun hfree => ?_⟩
    have hcreate := hfree st (by simp [hscript])
    simp [Statement.blocked, hcreate] at hblocked
  | refused name st script rest hrefused =>
    obtain ⟨hsome, hpending, done, hscript, hdone⟩ := h
    have hst : st ∈ dir.script name := by simp [hscript]
    rcases hrefused with hdangling | ⟨hblocked, table, htable⟩
    · exact not_dangling hstaged hunblockable hpending hst hdangling
    · have hcreate : st.mode = .create := by
        simp only [Statement.blocked, Bool.and_eq_true, decide_eq_true_eq] at hblocked
        exact hblocked.1
      have hkey := hstaged.keys name hpending.mem st hst hcreate
      rw [htable] at hkey
      exact absurd hkey Bool.false_ne_true
  | recorded name rest _ hschema hrecorded hsome =>
    obtain ⟨-, hpending, -⟩ := h
    refine runnerOk_next hsome ⟨(List.sublist_cons_self name rest).trans hpending.sublist,
      fun other hother => ?_⟩
    rcases hpending.recorded other hother with hmem | hmem
    · rcases List.mem_cons.mp hmem with rfl | hmem
      · exact Or.inr ((hrecorded other).mpr (Or.inr rfl))
      · exact Or.inl hmem
    · exact Or.inr ((hrecorded other).mpr (Or.inl hmem))
  | unrecorded name rest hnone =>
    obtain ⟨hsome, -⟩ := h
    rw [hnone] at hsome
    exact absurd hsome (by simp)

/-! ## All runners -/

variable (dir) in
/-- No index of the migration has been made, and no runner is through with it. -/
structure NotBegun (s : Runners) (name : String) : Prop where
  unrecorded : name ∉ s.db.recorded
  unfinished : ∀ r rest, s.runners r ≠ .recording name rest
  free : ∀ st ∈ dir.script name, ¬st.blocked s.db.schema

/-- A runner is bound to execute the statement. -/
def Assigned (s : Runners) (name : String) (st : Statement MysqlObject MysqlDefinition) : Prop :=
  ∃ r script rest, s.runners r = .applying name script rest ∧ st ∈ unblocked script s.db.schema

variable (dir) in
/-- Every statement is in effect, or a runner is bound to execute it. -/
def Covered (s : Runners) (name : String) : Prop :=
  ∀ st ∈ dir.script name, st.InEffect s.db.schema ∨ Assigned s name st

variable (dir) in
/-- What holds of all runners together. -/
structure RunnersOk (s : Runners) : Prop where
  each : ∀ r, RunnerOk dir s.db (s.runners r)
  unblockable : ∀ name ∈ dir.getAllMigrationNames, Unblockable dir name → name ∈ s.db.recorded →
    ∀ st ∈ dir.script name, st.InEffect s.db.schema
  covered : ∀ name ∈ dir.getAllMigrationNames, NotBegun dir s name ∨ Covered dir s name

/-- When one runner executes a statement, another one that was bound to
execute a later one of the same script may find it taken.  The first runner
is bound to execute the later one then. -/
theorem takeover {script done done' tail rem : List (Statement MysqlObject MysqlDefinition)}
    {first st : Statement MysqlObject MysqlDefinition} {schema : Schema MysqlObject MysqlDefinition}
    (hnames : (names script).Nodup) (hfirst : script = done ++ first :: tail)
    (hrem : script = done' ++ rem) (hst : st ∈ unblocked rem schema) :
    st ∈ unblocked rem (first.apply schema) ∨ st = first ∨
      st ∈ unblocked tail (first.apply schema) := by
  have hother : ∀ other ∈ script, other ≠ first → first.apply schema other.name =
      schema other.name := by
    intro other hother hne
    refine Statement.apply_of_ne fun heq => hne ?_
    exact List.inj_on_of_nodup_map hnames hother (by simp [hfirst]) heq
  -- A part of the script without `first` is unblocked as far as before.
  have hpart : ∀ part : List (Statement MysqlObject MysqlDefinition), part ⊆ script →
      first ∉ part → unblocked part (first.apply schema) = unblocked part schema :=
    fun part hsub hnot => unblocked_congr fun other hin =>
      hother other (hsub hin) fun heq => hnot (heq ▸ hin)
  have hnodup : script.Nodup := hnames.of_map
  by_cases hmem : first ∈ rem
  · obtain ⟨pre, post, rfl⟩ := List.append_of_mem hmem
    -- The two runners are in the same script, so they see the same rest.
    have hsplit : done' ++ pre ++ first :: post = done ++ first :: tail := by
      rw [← hfirst, hrem, List.append_assoc]
    have hsplit' : (done' ++ pre ++ first :: post).Nodup := by
      rwa [List.append_assoc, ← hrem]
    have hbefore : first ∉ done' ++ pre := fun hin =>
      (List.nodup_append.mp hsplit').2.2 first hin first List.mem_cons_self rfl
    have hafter : first ∉ post := (List.nodup_cons.mp (List.nodup_append.mp hsplit').2.1).1
    obtain ⟨-, -, rfl⟩ := (List.append_cons_inj_of_notMem hbefore hafter).mp hsplit
    rcases mem_unblocked_append.mp hst with hpre | ⟨hfree, hrest⟩
    · refine Or.inl (mem_unblocked_append.mpr (Or.inl ?_))
      rwa [hpart pre ?_ fun hin => hbefore (List.mem_append_right _ hin)]
      intro other hin
      rw [hrem]
      simp [hin]
    · obtain ⟨-, rfl | hpost⟩ := mem_unblocked_cons.mp hrest
      · exact Or.inr (Or.inl rfl)
      · refine Or.inr (Or.inr ?_)
        rwa [hpart post ?_ hafter]
        intro other hin
        rw [hfirst]
        simp [hin]
  · refine Or.inl ?_
    rwa [hpart rem ?_ hmem]
    rw [hrem]
    exact List.subset_append_right _ _

section Step

variable {s : Runners} {r : Nat}

/-- The runners that do not move stay bound to what they were bound to, when
the schema of their script stays. -/
theorem Assigned.of_others {name : String} {st : Statement MysqlObject MysqlDefinition}
    (hok : ∀ r, RunnerOk dir s.db (s.runners r))
    (hsame : ∀ st ∈ dir.script name, db'.schema st.name = s.db.schema st.name)
    (h : Assigned s name st) :
    (∃ script rest, s.runners r = .applying name script rest ∧
        st ∈ unblocked script s.db.schema) ∨
      Assigned ⟨db', Function.update s.runners r runner'⟩ name st := by
  obtain ⟨r', script, rest, hrunner, hst⟩ := h
  by_cases hr : r' = r
  · exact Or.inl ⟨script, rest, hr ▸ hrunner, hst⟩
  · refine Or.inr ⟨r', script, rest, (Function.update_of_ne hr _ _).trans hrunner, ?_⟩
    have hrunnerOk := hok r'
    rw [hrunner] at hrunnerOk
    obtain ⟨-, -, done, hscript, -⟩ := hrunnerOk
    have hkept : unblocked script db'.schema = unblocked script s.db.schema :=
      unblocked_congr fun st' hst' => hsame st' (hscript ▸ List.mem_append_right _ hst')
    exact hkept ▸ hst

/-- A move that leaves the schema alone. -/
theorem covered_of_schema_eq (hok : ∀ r, RunnerOk dir s.db (s.runners r))
    (hschema : db'.schema = s.db.schema)
    (hbound : ∀ script rest, s.runners r = .applying name script rest →
      ∀ st, st ∉ unblocked script s.db.schema) (h : Covered dir s name) :
    Covered dir ⟨db', Function.update s.runners r runner'⟩ name := by
  intro st hst
  rcases h st hst with heffect | hassigned
  · exact Or.inl (by rwa [hschema])
  · rcases hassigned.of_others hok (fun st _ => by rw [hschema]) with
      ⟨script, rest, hrunner, hin⟩ | hassigned
    · exact absurd hin (hbound script rest hrunner st)
    · exact Or.inr hassigned

/-- A migration that no runner has begun stays so, unless the move is about
it. -/
theorem NotBegun.of_schema_eq (h : NotBegun dir s name)
    (hschema : ∀ st ∈ dir.script name, db'.schema st.name = s.db.schema st.name)
    (hrecorded : name ∉ db'.recorded) (hmoved : ∀ rest, runner' ≠ .recording name rest) :
    NotBegun dir ⟨db', Function.update s.runners r runner'⟩ name := by
  refine ⟨hrecorded, fun r' rest hrunner => ?_, fun st hst hblocked => ?_⟩
  · rcases update_eq_cases hrunner with ⟨-, hnew⟩ | ⟨-, hold⟩
    · exact hmoved rest hnew
    · exact h.unfinished r' rest hold
  · rw [Statement.blocked_congr (hschema st hst)] at hblocked
    exact h.free st hst hblocked

/-- When a runner executes a statement of its script, every statement of the
script is in effect afterwards, or a runner is bound to execute it. -/
theorem covered_of_executed {st : Statement MysqlObject MysqlDefinition}
    {script : List (Statement MysqlObject MysqlDefinition)} (h : RunnersOk dir s)
    (hname : name ∈ dir.getAllMigrationNames)
    (hphase : s.runners r = .applying name (st :: script) rest) :
    Covered dir ⟨{ s.db with schema := st.apply s.db.schema },
      Function.update s.runners r (.applying name script rest)⟩ name := by
  have hrunner := h.each r
  rw [hphase] at hrunner
  obtain ⟨-, -, done, hscript, hdone⟩ := hrunner
  have hst : st ∈ dir.script name := by simp [hscript]
  have hkeeps : Keeps dir s.db { s.db with schema := st.apply s.db.schema } :=
    keeps_apply hname hst
  have hnames := dir.nodup_names_script hname
  have hmine : ∀ other ∈ unblocked script (st.apply s.db.schema), Assigned
      ⟨{ s.db with schema := st.apply s.db.schema },
        Function.update s.runners r (.applying name script rest)⟩ name other :=
    fun other hother => ⟨r, script, rest, Function.update_self _ _ _, hother⟩
  intro other hother
  rcases h.covered name hname with hnot | hcov
  · rw [hscript, List.mem_append, List.mem_cons] at hother
    rcases hother with hother | rfl | hother
    · exact Or.inl (hkeeps.inEffect name hname other (by simp [hscript, hother])
        (hdone other hother))
    · exact Or.inl (Statement.inEffect_apply other s.db.schema)
    · -- Nothing of the rest is taken.
      refine Or.inr (hmine other ?_)
      rw [unblocked_of_forall fun later hlater hblocked => ?_]
      · exact hother
      · have hne : later.name ≠ st.name := by
          have hnodup := hnames
          rw [hscript, names, List.map_append, List.map_cons] at hnodup
          have hhead := (List.nodup_cons.mp (List.nodup_append.mp hnodup).2.1).1
          exact fun heq => hhead (heq ▸ List.mem_map_of_mem hlater)
        rw [Statement.blocked_congr (Statement.apply_of_ne hne)] at hblocked
        exact hnot.free later (by simp [hscript, hlater]) hblocked
  · rcases hcov other hother with heffect | ⟨r', rem, rest', hr', hin⟩
    · exact Or.inl (hkeeps.inEffect name hname other hother heffect)
    · have hrunner' := h.each r'
      rw [hr'] at hrunner'
      obtain ⟨-, -, done', hscript', -⟩ := hrunner'
      rcases takeover hnames hscript hscript' hin with hkept | rfl | htaken
      · by_cases hr : r' = r
        · -- It is this runner.
          subst hr
          rw [hphase] at hr'
          obtain ⟨-, rfl, -⟩ := Runner.applying.inj hr'
          obtain ⟨-, rfl | hlater⟩ := mem_unblocked_cons.mp hkept
          · exact Or.inl (Statement.inEffect_apply other s.db.schema)
          · exact Or.inr (hmine other hlater)
        · exact Or.inr ⟨r', rem, rest', (Function.update_of_ne hr _ _).trans hr', hkept⟩
      · exact Or.inl (Statement.inEffect_apply other s.db.schema)
      · exact Or.inr (hmine other htaken)

theorem next_ne_recording (pending : List String) (name : String) (rest : List String) :
    Runner.next dir pending ≠ .recording name rest := by
  cases pending with
  | nil => simp [Runner.next]
  | cons first pending =>
    rw [Runner.next]
    split <;> simp

/-- Whatever a runner does, each migration is untouched or covered. -/
theorem covered_of_move (h : RunnersOk dir s) (hmove : Move dir s.db (s.runners r) db' runner')
    (hmoved : RunnerOk dir db' runner') (hname : name ∈ dir.getAllMigrationNames) :
    NotBegun dir ⟨db', Function.update s.runners r runner'⟩ name ∨
      Covered dir ⟨db', Function.update s.runners r runner'⟩ name := by
  have hrunner := h.each r
  have hcovered := h.covered name hname
  generalize hphase : s.runners r = runner at hmove hrunner
  cases hmove with
  | created _ hschema hrecorded hsome =>
    rcases hcovered with hnot | hcov
    · exact Or.inl (hnot.of_schema_eq (by simp [hschema]) (hrecorded ▸ hnot.unrecorded) (by simp))
    · exact Or.inr (covered_of_schema_eq h.each hschema (by simp [hphase]) hcov)
  | selected hsome =>
    rcases hcovered with hnot | hcov
    · exact Or.inl (hnot.of_schema_eq (fun _ _ => rfl) hnot.unrecorded
        (next_ne_recording _ name))
    · exact Or.inr (covered_of_schema_eq h.each rfl (by simp [hphase]) hcov)
  | finished name' rest =>
    obtain ⟨-, hpending, done, hscript, hdone⟩ := hrunner
    by_cases heq : name = name'
    · -- The runner has executed the whole script.
      subst heq
      rw [List.append_nil] at hscript
      exact Or.inr fun st hst => Or.inl (hdone st (hscript ▸ hst))
    · rcases hcovered with hnot | hcov
      · refine Or.inl (hnot.of_schema_eq (fun _ _ => rfl) hnot.unrecorded fun rest' hrec => ?_)
        exact heq (Runner.recording.inj hrec).1.symm
      · refine Or.inr (covered_of_schema_eq h.each rfl (fun script rest' hr => ?_) hcov)
        rw [hphase] at hr
        exact absurd (Runner.applying.inj hr).1.symm heq
  | executed name' st script rest hfree =>
    obtain ⟨-, hpending, done, hscript, -⟩ := hrunner
    by_cases heq : name = name'
    · subst heq
      exact Or.inr (covered_of_executed h hname hphase)
    · have hother : ∀ other ∈ dir.script name,
          st.apply s.db.schema other.name = s.db.schema other.name := by
        intro other hmem
        refine Statement.apply_of_ne fun hsame => heq ?_
        have hst : st ∈ dir.script name' := by simp [hscript]
        obtain rfl := eq_of_name_eq hname hmem hpending.mem hst hsame
        exact SqlDir.eq_of_mem_script hname hpending.mem hmem hst
      rcases hcovered with hnot | hcov
      · exact Or.inl (hnot.of_schema_eq hother hnot.unrecorded (by simp))
      · refine Or.inr fun other hmem => ?_
        rcases hcov other hmem with heffect | hassigned
        · exact Or.inl ((Statement.inEffect_congr (hother other hmem)).mpr heffect)
        · have hbound : (∃ script rest, s.runners r = .applying name script rest ∧
              other ∈ unblocked script s.db.schema) ∨
              Assigned ⟨{ s.db with schema := st.apply s.db.schema }, Function.update s.runners r
                (.applying name' script rest)⟩ name other := hassigned.of_others h.each hother
          rcases hbound with ⟨script', rest', hr, hin⟩ | hassigned
          · rw [hphase] at hr
            exact absurd (Runner.applying.inj hr).1.symm heq
          · exact Or.inr hassigned
  | skipped name' st script rest hblocked =>
    obtain ⟨-, hpending, done, hscript, -⟩ := hrunner
    rcases hcovered with hnot | hcov
    · by_cases heq : name = name'
      · subst heq
        exact absurd hblocked (hnot.free st (by simp [hscript]))
      · refine Or.inl (hnot.of_schema_eq (fun _ _ => rfl) hnot.unrecorded fun rest' hrec => ?_)
        exact heq (Runner.recording.inj hrec).1.symm
    · -- A runner that is blocked was bound to nothing.
      refine Or.inr (covered_of_schema_eq h.each rfl (fun script' rest' hr st' hin => ?_) hcov)
      rw [hphase] at hr
      obtain ⟨-, rfl, -⟩ := Runner.applying.inj hr
      exact (mem_unblocked_cons.mp hin).1 hblocked
  | recorded name' rest _ hschema hrecorded hsome =>
    rcases hcovered with hnot | hcov
    · have hne : name ≠ name' := by
        rintro rfl
        exact hnot.unfinished r rest hphase
      refine Or.inl (hnot.of_schema_eq (by simp [hschema]) (fun hin => ?_)
        (next_ne_recording _ name))
      exact ((hrecorded name).mp hin).elim hnot.unrecorded hne
    · exact Or.inr (covered_of_schema_eq h.each hschema (by simp [hphase]) hcov)
  | unselected => exact absurd hmoved id
  | refused => exact absurd hmoved id
  | unrecorded => exact absurd hmoved id

end Step

/-- A migration that becomes recorded is the one of the runner. -/
theorem recording_of_move (hmove : Move dir db runner db' runner') (hnew : name ∈ db'.recorded)
    (hold : name ∉ db.recorded) : ∃ rest, runner = .recording name rest := by
  cases hmove with
  | created _ _ hrecorded => exact absurd (hrecorded ▸ hnew) hold
  | recorded name' rest _ _ hrecorded =>
    obtain rfl := ((hrecorded name).mp hnew).resolve_left hold
    exact ⟨rest, rfl⟩
  | selected | unselected | finished | executed | skipped | refused | unrecorded =>
    exact absurd hnew hold

/-! ## The result -/

theorem runnersOk_of_reachable (hstaged : Staged dir) {start : MysqlDatabase}
    (hprepared : Prepared dir start) {s : Runners} (hs : (mysqlRunners dir start).Reachable s) :
    RunnersOk dir s := by
  refine System.ReachableBy.induct ?_ ?_ hs
  · rintro s rfl
    refine ⟨fun r => trivial, fun name hname _ hrecorded => hprepared.recorded name hname hrecorded,
      fun name hname => ?_⟩
    by_cases hrecorded : name ∈ start.recorded
    · exact Or.inr fun st hst => Or.inl (hprepared.recorded name hname hrecorded st hst)
    · exact Or.inl ⟨hrecorded, by simp, hprepared.free name hname hrecorded⟩
  · intro s r s' _ h _ hstep
    obtain ⟨⟨db', runner'⟩, hresult, rfl⟩ := Option.map_eq_some_iff.mp hstep
    have hmove := move_of_step hresult
    have hkeeps := keeps_of_move (h.each r) hmove
    have hmoved := runnerOk_of_move hstaged h.unblockable (h.each r) hmove
    refine ⟨fun r' => ?_, ?_, fun name hname => covered_of_move h hmove hmoved hname⟩
    · by_cases hr : r' = r
      · rw [hr]
        show RunnerOk dir db' (Function.update s.runners r runner' r)
        rwa [Function.update_self]
      · show RunnerOk dir db' (Function.update s.runners r runner' r')
        rw [Function.update_of_ne hr]
        exact (h.each r').mono hkeeps
    · intro name hname hfree hrecorded st hst
      by_cases hold : name ∈ s.db.recorded
      · exact hkeeps.inEffect name hname st hst (h.unblockable name hname hfree hold st hst)
      · obtain ⟨rest, hrecording⟩ := recording_of_move hmove hrecorded hold
        have hrunner := h.each r
        rw [hrecording] at hrunner
        exact hkeeps.inEffect name hname st hst (hrunner.2.2 hfree st hst)

/-- Any number of runners may work on a database in parallel.  None of them
fails, and one that returns finds all migrations recorded.  The statements of a
recorded migration are in effect, once no runner is in its script. -/
theorem runners_sound (hstaged : Staged dir) {start : MysqlDatabase}
    (hprepared : Prepared dir start) {s : Runners} (hs : (mysqlRunners dir start).Reachable s) :
    (∀ r, s.runners r ≠ .threw) ∧
      ∀ name ∈ dir.getAllMigrationNames,
        ((∃ r, s.runners r = .returned) → name ∈ s.db.recorded) ∧
        (name ∈ s.db.recorded → (∀ r script rest, s.runners r ≠ .applying name script rest) →
          ∀ st ∈ dir.script name, st.InEffect s.db.schema) := by
  have h := runnersOk_of_reachable hstaged hprepared hs
  refine ⟨fun r hthrew => ?_, fun name hname => ⟨?_, fun hrecorded hnobody st hst => ?_⟩⟩
  · have hrunner := h.each r
    rw [hthrew] at hrunner
    exact hrunner
  · rintro ⟨r, hreturned⟩
    have hrunner := h.each r
    rw [hreturned] at hrunner
    exact (hrunner.recorded name hname).resolve_left List.not_mem_nil
  · rcases h.covered name hname with hnot | hcovered
    · exact absurd hrecorded hnot.unrecorded
    · rcases hcovered st hst with heffect | ⟨r, script, rest, hrunner, -⟩
      · exact heffect
      · exact absurd hrunner (hnobody r script rest)

/-! ## One runner alone -/

/-- Runner 0 gets there by steps of its own, while no other one starts. -/
def Reaches (dir : SqlDir MysqlObject MysqlDefinition) (start db : MysqlDatabase)
    (runner : Runner) : Prop :=
  ∃ n, (mysqlRunners dir start).run ⟨start, fun _ => .starting⟩ (List.replicate n 0) =
    some ⟨db, Function.update (fun _ => .starting) 0 runner⟩

theorem reaches_start (dir : SqlDir MysqlObject MysqlDefinition) (start : MysqlDatabase) :
    Reaches dir start start .starting :=
  ⟨0, by rw [Function.update_eq_self_iff.mpr rfl]; rfl⟩

theorem Reaches.step {start db db' : MysqlDatabase} {runner runner' : Runner}
    (h : Reaches dir start db runner) (hstep : runner.step dir db = some (db', runner')) :
    Reaches dir start db' runner' := by
  obtain ⟨n, hrun⟩ := h
  refine ⟨n + 1, ?_⟩
  rw [List.replicate_succ']
  refine System.run_append_eq_some _ hrun ?_
  rw [System.run_singleton]
  show Runners.step dir ⟨db, Function.update (fun _ => .starting) 0 runner⟩ 0 = _
  simp only [Runners.step, Function.update_self, hstep, Option.map_some, Function.update_idem]

/-- A link that does not break, to a database where the runner is. -/
def At (dir : SqlDir MysqlObject MysqlDefinition) (start : MysqlDatabase) (runner : Runner)
    (link : Link MysqlDatabase) : Prop :=
  link.faults = [] ∧ Reaches dir start link.server runner

theorem At.next {start : MysqlDatabase} {link : Link MysqlDatabase} {db : MysqlDatabase}
    {runner : Runner} (hfaults : link.faults = []) (h : Reaches dir start db runner) :
    At dir start runner (link.next db) :=
  ⟨by rw [Link.next_faults, hfaults]; rfl, h⟩

section Alone

variable {start : MysqlDatabase} {name : String} {rest : List String} {link : Link MysqlDatabase}

/-- The statements of a script, one by one. -/
theorem script_reaches {script : List (Statement MysqlObject MysqlDefinition)}
    {db : MysqlDatabase} (h : Reaches dir start db (.applying name script rest)) :
    Ensures ((script.map MysqlStatement.ddl).forM MysqlStatement.execute) db
      (fun _ db' => Reaches dir start db' (.applying name [] rest))
      (fun e db' => Reaches dir start db' (if e = .dupKeyname then .recording name rest
        else .threw)) := by
  refine (ensures_forM (fun items db => ∃ script, items = script.map MysqlStatement.ddl ∧
    Reaches dir start db (.applying name script rest)) ?_ _ ⟨script, rfl, h⟩).mono ?_
    (fun _ _ h => h)
  · rintro item items db ⟨script, hscript, h⟩
    obtain ⟨st, script', rfl, rfl, rfl⟩ := List.map_eq_cons_iff.mp hscript.symm
    cases hrun : (MysqlStatement.ddl st).execute.run db with
    | ok a db' =>
      refine ensures_ok hrun ⟨script', rfl, h.step ?_⟩
      simp only [Runner.step, hrun]
    | error e db' =>
      refine ensures_error hrun (h.step ?_)
      cases e <;> simp [Runner.step, hrun]
  · rintro - db ⟨script, hscript, h⟩
    obtain rfl := List.map_eq_nil_iff.mp hscript.symm
    exact h

/-- One turn of the loop. -/
theorem applyMySQLMigration_reaches (h : At dir start (.next dir (name :: rest)) link) :
    Ensures (applyMySQLMigration dir name) link
      (fun _ link' => At dir start (.next dir rest) link')
      (fun _ link' => At dir start .threw link') := by
  obtain ⟨hfaults, h⟩ := h
  unfold applyMySQLMigration
  cases hread : dir.read? (name ++ ".sql") with
  | none =>
    rw [Runner.next, hread] at h
    exact ensures_throw ⟨hfaults, h⟩
  | some script =>
    rw [Runner.next, hread] at h
    have hrecord : ∀ link : Link MysqlDatabase, At dir start (.recording name rest) link →
        Ensures (query MysqlStatement.execute [.insertIgnore name]) link
          (fun _ link' => At dir start (.next dir rest) link')
          (fun _ link' => At dir start .threw link') := by
      rintro link ⟨hfaults, h⟩
      refine ensures_query_singleton (fun hne => absurd hfaults hne) ?_
      cases hrun : (MysqlStatement.insertIgnore name).execute.run link.server with
      | ok a db' =>
        refine ensures_ok hrun ⟨.next hfaults (h.step ?_), fun hne => absurd hfaults hne⟩
        simp only [Runner.step, hrun]
      | error e db' =>
        refine ensures_error hrun (.next hfaults (h.step ?_))
        simp only [Runner.step, hrun]
    apply ensures_bind
    apply ensures_tryCatch
    refine ensures_query_of_no_fault hfaults ((script_reaches h).mono ?_ ?_)
    · intro _ db' hend
      exact hrecord _ (.next hfaults (hend.step rfl))
    · intro e db' hend
      by_cases he : e = .dupKeyname
      · rw [if_pos he] at hend
        rw [if_neg (by simp [he])]
        exact ensures_pure (hrecord _ (.next hfaults hend))
      · rw [if_neg he] at hend
        rw [if_pos (by simpa using he)]
        exact ensures_throw (.next hfaults hend)

/-- The loop skips the migrations that are recorded. -/
theorem next_of_mem {applied : List String} (hname : name ∈ applied) :
    Runner.next dir ((name :: rest).filter (· ∉ applied)) =
      .next dir (rest.filter (· ∉ applied)) := by
  rw [List.filter_cons_of_neg (by simpa using hname)]

theorem loop_reaches (applied : List String) (names : List String)
    (h : At dir start (.next dir (names.filter (· ∉ applied))) link) :
    Ensures (names.forM fun name => do if name ∉ applied then applyMySQLMigration dir name) link
      (fun _ link' => At dir start .returned link')
      (fun _ link' => At dir start .threw link') := by
  refine (ensures_forM (fun names link => At dir start (.next dir (names.filter (· ∉ applied)))
    link) ?_ names h).mono (fun _ _ h => h) (fun _ _ h => h)
  intro name rest link h
  by_cases hname : name ∈ applied
  · rw [if_neg (by simpa using hname)]
    rw [next_of_mem hname] at h
    exact ensures_pure h
  · rw [if_pos hname]
    rw [List.filter_cons_of_pos (by simpa using hname)] at h
    exact applyMySQLMigration_reaches h

variable (dir) in
/-- A runner that has the database to itself takes it where
`runMySQLMigrations` takes it over a link that does not break. -/
theorem runMySQLMigrations_reaches (start : MysqlDatabase) :
    Ensures (runMySQLMigrations dir) ⟨start, []⟩
      (fun _ link' => At dir start .returned link')
      (fun _ link' => At dir start .threw link') := by
  have hend : ∀ (runner : Runner) (link : Link MysqlDatabase), At dir start runner link →
      Ensures (query MysqlStatement.execute []) link (fun _ link' => At dir start runner link')
        (fun _ link' => At dir start .threw link') := by
    rintro runner link ⟨hfaults, h⟩
    exact ensures_query_of_no_fault hfaults (ensures_pure (.next hfaults h))
  have hstart : At dir start .selecting (Link.next ⟨start, []⟩
      { start with migrations := some start.recorded }) :=
    .next rfl ((reaches_start dir start).step rfl)
  unfold runMySQLMigrations
  apply ensures_tryFinally
  apply ensures_bind
  refine ensures_query_singleton (fun hne => absurd rfl hne) ?_
  refine ensures_ok rfl ⟨?_, fun hne => absurd rfl hne⟩
  apply ensures_bind
  refine ensures_select (fun applied hread => ?_) (fun e hread => ?_) fun hne => absurd rfl hne
  · obtain rfl : start.recorded = applied := Except.ok.inj hread
    refine (loop_reaches start.recorded dir.getAllMigrationNames (.next rfl ?_)).mono
      (fun _ link' h => hend .returned link' h) fun _ link' h => hend .threw link' h
    exact hstart.2.step (by rfl)
  · exact absurd hread (by simp [selectMigrations])

end Alone

end Runners

/-- The migrations under `sql/mysql`: 2 and 4 make the indexes on the tables of
1 and 3. -/
theorem staged_sqlMysql : Staged sqlMysql := by
  constructor <;> decide +kernel

theorem prepared_emptyMysql : Prepared sqlMysql emptyMysql := by
  constructor <;> decide +kernel

/-- The second runner finds an index taken that the first one has made, and
returns while that one is still in the script of migration 2. -/
def Sample.overtaking : List Nat :=
  List.replicate 9 0 ++ List.replicate 13 1

theorem runners_sound_overtaking : ∃ s,
    (mysqlRunners sqlMysql emptyMysql).run ⟨emptyMysql, fun _ => .starting⟩ Sample.overtaking =
        some s ∧
      (s.runners 1 matches .returned) ∧ (s.runners 0 matches .applying _ _ _) ∧
      (∀ r, s.runners r ≠ .threw) ∧
      ∀ name ∈ sqlMysql.getAllMigrationNames, name ∈ s.db.recorded := by
  have hrun : ((mysqlRunners sqlMysql emptyMysql).run ⟨emptyMysql, fun _ => .starting⟩
      Sample.overtaking).any (fun s => (s.runners 1 matches .returned) &&
        (s.runners 0 matches .applying _ _ _)) = true := by
    decide +kernel
  obtain ⟨s, hs, hcheck⟩ := (Option.any_eq_true _ _).mp hrun
  rw [Bool.and_eq_true] at hcheck
  have hinit : (mysqlRunners sqlMysql emptyMysql).Reachable ⟨emptyMysql, fun _ => .starting⟩ :=
    .init rfl
  obtain ⟨hnone, hall⟩ := runners_sound staged_sqlMysql prepared_emptyMysql (hinit.run hs)
  have hreturned : s.runners 1 = .returned := by
    cases h : s.runners 1 <;> simp [h] at hcheck
    rfl
  exact ⟨s, hs, hcheck.1, hcheck.2, hnone, fun name hname => (hall name hname).1 ⟨1, hreturned⟩⟩

end Outboxy.Migrations
