import Mathlib.Data.List.Flatten
import Mathlib.Data.List.Pairwise
import Mathlib.Data.List.Sort
import Mathlib.Data.String.Basic
import Outboxy.Library.Ddl

/-!
# The directory of migration files

`SqlDir` is a directory as `readdirSync` and `readFileSync` see it, with the
statements of each file.  It carries what the files under `sql` have in
common: no name is created twice, and no migration is empty.

`getAllMigrationNames` lists the migrations in file-name order, and `script`
gives the statements of one.  The scripts of all migrations together create
each name once (`nodup_names_scripts`).
-/

namespace Outboxy.Migrations

open Ddl

/-- `MIGRATION_PATTERN`: three digits, an underscore, a name in lower case and
the suffix `.sql`. -/
def migrationPattern (file : String) : Bool :=
  let stem := file.toList.take (file.toList.length - 4)
  ".sql".toList.isSuffixOf file.toList && stem.length > 4 &&
    (stem.take 3).all (·.isDigit) && stem[3]? == some '_' &&
    (stem.drop 4).all fun c => c.isLower || c == '_'

/-- `replace(/\.sql$/, "")` -/
def stripSql (file : String) : String :=
  if ".sql".toList.isSuffixOf file.toList then
    String.ofList (file.toList.take (file.toList.length - 4))
  else file

/-- Without its suffix and with it again, a migration's file name is the same. -/
theorem stripSql_append {file : String} (h : migrationPattern file) :
    stripSql file ++ ".sql" = file := by
  have hsuffix : ".sql".toList.isSuffixOf file.toList := by
    simp only [migrationPattern, Bool.and_eq_true] at h
    exact h.1.1.1.1
  obtain ⟨stem, hstem⟩ := List.isSuffixOf_iff_suffix.mp hsuffix
  rw [stripSql, if_pos hsuffix]
  apply String.toList_inj.mp
  rw [← hstem]
  simp

structure SqlFile (κ δ : Type) where
  name : String
  statements : List (Statement κ δ)

/-- A directory of SQL files. -/
structure SqlDir (κ δ : Type) where
  files : List (SqlFile κ δ)
  nodup_files : (files.map (·.name)).Nodup
  nodup_created : (names (files.flatMap (·.statements))).Nodup
  nonempty : ∀ file ∈ files, migrationPattern file.name → file.statements ≠ []

namespace SqlDir

variable {κ δ : Type} (dir : SqlDir κ δ)

/-- `getAllMigrationNames` -/
def getAllMigrationNames : List String :=
  (((dir.files.map (·.name)).filter migrationPattern).insertionSort (· ≤ ·)).map stripSql

/-- The files that are migrations. -/
def migrationFiles : List (SqlFile κ δ) :=
  dir.files.filter (migrationPattern ∘ (·.name))

/-- `existsSync` and `readFileSync` -/
def read? (file : String) : Option (List (Statement κ δ)) :=
  (dir.files.find? fun f => f.name = file).map (·.statements)

/-- The statements of a migration. -/
def script (migrationName : String) : List (Statement κ δ) :=
  (dir.read? (migrationName ++ ".sql")).getD []

variable {dir}

theorem read?_of_mem {file : SqlFile κ δ} (hfile : file ∈ dir.files) :
    dir.read? file.name = some file.statements := by
  unfold read?
  cases hfind : dir.files.find? fun f => f.name = file.name with
  | none =>
    have hnone := List.find?_eq_none.mp hfind file hfile
    simp at hnone
  | some found =>
    have hname : found.name = file.name := by simpa using List.find?_some hfind
    obtain rfl := List.inj_on_of_nodup_map dir.nodup_files (List.mem_of_find?_eq_some hfind)
      hfile hname
    rfl

theorem mem_getAllMigrationNames {name : String} :
    name ∈ dir.getAllMigrationNames ↔
      ∃ file ∈ dir.files, migrationPattern file.name ∧ stripSql file.name = name := by
  simp only [getAllMigrationNames, List.mem_map, List.mem_insertionSort, List.mem_filter]
  constructor
  · rintro ⟨fileName, ⟨⟨file, hfile, rfl⟩, hpattern⟩, hstrip⟩
    exact ⟨file, hfile, hpattern, hstrip⟩
  · rintro ⟨file, hfile, hpattern, hstrip⟩
    exact ⟨file.name, ⟨⟨file, hfile, rfl⟩, hpattern⟩, hstrip⟩

theorem script_stripSql {file : SqlFile κ δ} (hfile : file ∈ dir.files)
    (hpattern : migrationPattern file.name) :
    dir.script (stripSql file.name) = file.statements := by
  rw [script, stripSql_append hpattern, read?_of_mem hfile]
  rfl

/-- The file of a migration is found. -/
theorem read?_of_mem_getAllMigrationNames {name : String} (h : name ∈ dir.getAllMigrationNames) :
    dir.read? (name ++ ".sql") = some (dir.script name) := by
  obtain ⟨file, hfile, hpattern, rfl⟩ := mem_getAllMigrationNames.mp h
  rw [script_stripSql hfile hpattern, stripSql_append hpattern, read?_of_mem hfile]

theorem nodup_getAllMigrationNames (dir : SqlDir κ δ) : dir.getAllMigrationNames.Nodup := by
  have hsorted := (dir.nodup_files.filter migrationPattern).perm
    (List.perm_insertionSort (· ≤ ·) _).symm
  refine List.Nodup.map_on ?_ hsorted
  intro a ha b hb hab
  have hmem : ∀ file ∈ ((dir.files.map (·.name)).filter migrationPattern).insertionSort (· ≤ ·),
      migrationPattern file := by
    intro file hfile
    exact (List.mem_filter.mp (List.mem_insertionSort _ |>.mp hfile)).2
  rw [← stripSql_append (hmem a ha), ← stripSql_append (hmem b hb), hab]

/-- All migrations together create each name once. -/
theorem nodup_names_scripts (dir : SqlDir κ δ) :
    (names (dir.getAllMigrationNames.flatMap dir.script)).Nodup := by
  have hperm : (dir.getAllMigrationNames.flatMap dir.script).Perm
      (dir.migrationFiles.flatMap (·.statements)) := by
    rw [getAllMigrationNames, List.flatMap_map]
    refine ((List.perm_insertionSort (· ≤ ·) _).flatMap_right _).trans ?_
    rw [List.filter_map, List.flatMap_map]
    refine List.Perm.of_eq (List.flatMap_congr ?_)
    intro file hfile
    obtain ⟨hmem, hpattern⟩ := List.mem_filter.mp hfile
    exact script_stripSql hmem hpattern
  have hsub : (dir.migrationFiles.flatMap (·.statements)).Sublist
      (dir.files.flatMap (·.statements)) :=
    List.filter_sublist.flatMap _
  exact (dir.nodup_created.sublist (hsub.map _)).perm (hperm.map _).symm

theorem nodup_names_script (dir : SqlDir κ δ) {name : String}
    (h : name ∈ dir.getAllMigrationNames) : (names (dir.script name)).Nodup := by
  have hsub : (dir.script name).Sublist (dir.getAllMigrationNames.flatMap dir.script) := by
    simpa using (List.singleton_sublist.mpr h).flatMap dir.script
  exact dir.nodup_names_scripts.sublist (hsub.map _)

/-- A statement belongs to one migration. -/
theorem eq_of_mem_script {name name' : String} {s : Statement κ δ}
    (h : name ∈ dir.getAllMigrationNames) (h' : name' ∈ dir.getAllMigrationNames)
    (hs : s ∈ dir.script name) (hs' : s ∈ dir.script name') : name = name' := by
  have hdisjoint := (List.nodup_flatMap.mp dir.nodup_names_scripts.of_map).2
  have hsymm : Std.Symm (Function.onFun List.Disjoint dir.script) := 
    ⟨fun _ _ hab _ hb ha => hab ha hb⟩
  by_contra hne
  exact hdisjoint.forall h h' hne hs hs'

end SqlDir

end Outboxy.Migrations
