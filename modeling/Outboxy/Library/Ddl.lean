import Mathlib.Data.List.Nodup
import Mathlib.Data.List.TakeWhile
import Mathlib.Logic.Function.Basic

/-!
# Schemas and the statements that build them

A schema gives each name the definition of the object it stands for.  A
`Statement` makes one object, perhaps on another one such as the table of an
index, and its `mode` says what it does when its name is taken.

A statement is `InEffect` in a schema that is as the statement leaves it when
it succeeds.  The results follow a script, a list of statements with different
names, up to the first statement that is refused.

* `applyAll_of_not_mem` and `inEffect_applyAll`: what was executed is in
  effect and all other names are as they were.
* `unblocked_append`: when a taken name ended the script, the statements
  executed are those before the first blocked one.
-/

namespace Ddl

/-- What a statement does when its name is taken. -/
inductive Mode
  | create
  | createIfNotExists
  | replace
  deriving DecidableEq, Repr

/-- A statement makes `name` an object with `definition`, on the object `on`. -/
structure Statement (κ δ : Type) where
  mode : Mode
  name : κ
  definition : δ
  on : Option κ
  deriving DecidableEq, Repr

inductive Refusal (κ : Type)
  | nameTaken (name : κ)
  | noSuchName (name : κ)
  deriving DecidableEq, Repr

abbrev Schema (κ δ : Type) := κ → Option δ

variable {κ δ : Type}

namespace Statement

variable {statement : Statement κ δ} {schema schema' : Schema κ δ}

/-- The object the statement builds on is missing. -/
def dangling (statement : Statement κ δ) (schema : Schema κ δ) : Bool :=
  statement.on.any fun name => (schema name).isNone

/-- A plain create of a name that is taken. -/
def blocked (statement : Statement κ δ) (schema : Schema κ δ) : Bool :=
  statement.mode = .create && (schema statement.name).isSome

theorem blocked_congr (h : schema statement.name = schema' statement.name) :
    statement.blocked schema = statement.blocked schema' := by
  unfold blocked
  rw [h]

/-- The schema is as the statement leaves it when it succeeds. -/
def InEffect (statement : Statement κ δ) (schema : Schema κ δ) : Prop :=
  match statement.mode with
  | .createIfNotExists => (schema statement.name).isSome
  | _ => schema statement.name = some statement.definition

instance [DecidableEq δ] (statement : Statement κ δ) (schema : Schema κ δ) :
    Decidable (statement.InEffect schema) := by
  unfold InEffect
  cases statement.mode <;> infer_instance

theorem inEffect_congr (h : schema statement.name = schema' statement.name) :
    statement.InEffect schema ↔ statement.InEffect schema' := by
  unfold InEffect
  rw [h]

theorem isSome_of_inEffect (h : statement.InEffect schema) : (schema statement.name).isSome := by
  unfold InEffect at h
  cases hmode : statement.mode with
  | createIfNotExists =>
    rw [hmode] at h
    exact h
  | create | replace =>
    rw [hmode] at h
    rw [h]
    rfl

variable [DecidableEq κ]

/-- The schema after the statement succeeded. -/
def apply (statement : Statement κ δ) (schema : Schema κ δ) : Schema κ δ :=
  if statement.mode = .createIfNotExists ∧ (schema statement.name).isSome then schema
  else Function.update schema statement.name (some statement.definition)

/-- Execute a statement against the schema. -/
def execute (statement : Statement κ δ) : EStateM (Refusal κ) (Schema κ δ) PUnit := fun schema =>
  if statement.dangling schema then
    .error (.noSuchName (statement.on.getD statement.name)) schema
  else if statement.blocked schema then .error (.nameTaken statement.name) schema
  else .ok ⟨⟩ (statement.apply schema)

theorem eq_apply_of_execute (h : statement.execute.run schema = .ok ⟨⟩ schema') :
    schema' = statement.apply schema := by
  have hrun : statement.execute schema = .ok ⟨⟩ schema' := h
  unfold execute at hrun
  split_ifs at hrun
  cases hrun
  rfl

theorem inEffect_apply (statement : Statement κ δ) (schema : Schema κ δ) :
    statement.InEffect (statement.apply schema) := by
  unfold InEffect apply
  cases hmode : statement.mode with
  | createIfNotExists =>
    by_cases htaken : (schema statement.name).isSome
    · simp [htaken]
    · simp [htaken]
  | create | replace => simp

theorem apply_of_ne {name : κ} (hne : name ≠ statement.name) :
    statement.apply schema name = schema name := by
  unfold apply
  split
  · rfl
  · exact Function.update_of_ne hne _ _

end Statement

/-! ## Scripts -/

/-- The names a script makes. -/
abbrev names (script : List (Statement κ δ)) : List κ := script.map (·.name)

/-- The statements before the first blocked one. -/
def unblocked (script : List (Statement κ δ)) (schema : Schema κ δ) : List (Statement κ δ) :=
  script.takeWhile fun statement => !statement.blocked schema

variable {script done rest : List (Statement κ δ)} {schema schema' : Schema κ δ}
  {statement : Statement κ δ}

theorem prefix_unblocked (script : List (Statement κ δ)) (schema : Schema κ δ) :
    unblocked script schema <+: script :=
  List.takeWhile_prefix _

/-- The statements executed before a blocked one. -/
theorem unblocked_append (hdone : ∀ s ∈ done, ¬s.blocked schema)
    (hblocked : statement.blocked schema) :
    unblocked (done ++ statement :: rest) schema = done := by
  unfold unblocked
  rw [List.takeWhile_append_of_pos (by simpa using hdone)]
  simp [hblocked]

/-- Nothing from a blocked statement on is executed. -/
theorem prefix_unblocked_of_blocked (hblocked : statement.blocked schema) :
    unblocked (done ++ statement :: rest) schema <+: done := by
  induction done with
  | nil => simp [unblocked, hblocked]
  | cons first done ih =>
    unfold unblocked at ih ⊢
    rw [List.cons_append, List.takeWhile_cons]
    split
    · exact List.cons_prefix_cons.mpr ⟨rfl, ih⟩
    · exact List.nil_prefix

/-- What is not executed comes from a blocked statement on. -/
theorem exists_blocked (hmem : statement ∈ script) (hnot : statement ∉ unblocked script schema) :
    ∃ done s rest, script = done ++ s :: rest ∧ s.blocked schema ∧ statement ∈ s :: rest := by
  have hsplit : unblocked script schema ++
      script.dropWhile (fun s => !s.blocked schema) = script := List.takeWhile_append_dropWhile
  have htail : statement ∈ script.dropWhile (fun s => !s.blocked schema) := by
    rw [← hsplit, List.mem_append] at hmem
    exact hmem.resolve_left hnot
  cases hdrop : script.dropWhile (fun s => !s.blocked schema) with
  | nil =>
    rw [hdrop] at htail
    cases htail
  | cons s rest =>
    have hne : script.dropWhile (fun s => !s.blocked schema) ≠ [] := by simp [hdrop]
    have hhead := List.head_dropWhile_not _ hne
    refine ⟨unblocked script schema, s, rest, ?_, ?_, ?_⟩
    · rw [← hdrop, hsplit]
    · simpa [hdrop] using hhead
    · rwa [← hdrop]

theorem unblocked_of_forall (hdone : ∀ s ∈ script, ¬s.blocked schema) :
    unblocked script schema = script := by
  unfold unblocked
  rw [List.takeWhile_eq_self_iff]
  simpa using hdone

theorem mem_unblocked_cons {first : Statement κ δ} :
    statement ∈ unblocked (first :: rest) schema ↔
      ¬first.blocked schema ∧ (statement = first ∨ statement ∈ unblocked rest schema) := by
  unfold unblocked
  rw [List.takeWhile_cons]
  cases first.blocked schema <;> simp

/-- A statement is reached when nothing before it is blocked. -/
theorem mem_unblocked_append :
    statement ∈ unblocked (done ++ rest) schema ↔
      statement ∈ unblocked done schema ∨
        (∀ s ∈ done, ¬s.blocked schema) ∧ statement ∈ unblocked rest schema := by
  induction done with
  | nil => simp [unblocked]
  | cons first done ih =>
    rw [List.cons_append, mem_unblocked_cons, mem_unblocked_cons, ih]
    simp only [List.forall_mem_cons]
    tauto

/-- Only the names a script makes decide where it is blocked. -/
theorem unblocked_congr (h : ∀ s ∈ script, schema s.name = schema' s.name) :
    unblocked script schema = unblocked script schema' := by
  induction script with
  | nil => rfl
  | cons first rest ih =>
    have hfirst := Statement.blocked_congr (h first List.mem_cons_self)
    have hrest := ih fun s hs => h s (List.mem_cons_of_mem _ hs)
    unfold unblocked at hrest ⊢
    rw [List.takeWhile_cons, List.takeWhile_cons, hfirst, hrest]

variable [DecidableEq κ]

/-- The schema after all statements of a script succeeded. -/
def applyAll (script : List (Statement κ δ)) (schema : Schema κ δ) : Schema κ δ :=
  script.foldl (fun schema statement => statement.apply schema) schema

@[simp] theorem applyAll_nil : applyAll [] schema = schema := rfl

theorem applyAll_cons :
    applyAll (statement :: rest) schema = applyAll rest (statement.apply schema) := rfl

theorem applyAll_append :
    applyAll (done ++ rest) schema = applyAll rest (applyAll done schema) :=
  List.foldl_append

/-- A script leaves the names it does not make as they were. -/
theorem applyAll_of_not_mem {name : κ} (hname : name ∉ names script) :
    applyAll script schema name = schema name := by
  induction script generalizing schema with
  | nil => rfl
  | cons first rest ih =>
    obtain ⟨hne, hrest⟩ := List.ne_and_not_mem_of_not_mem_cons hname
    rw [applyAll_cons, ih hrest, Statement.apply_of_ne hne]

/-- Each statement of a script of different names is in effect at its end. -/
theorem inEffect_applyAll (hnames : (names script).Nodup) (hmem : statement ∈ script) :
    statement.InEffect (applyAll script schema) := by
  induction script generalizing schema with
  | nil => cases hmem
  | cons first rest ih =>
    obtain ⟨hfirst, hrest⟩ := List.nodup_cons.mp hnames
    rw [applyAll_cons]
    rcases List.mem_cons.mp hmem with rfl | hmem
    · rw [Statement.inEffect_congr (applyAll_of_not_mem hfirst)]
      exact Statement.inEffect_apply statement schema
    · exact ih hrest hmem

/-- Of a list of statements with different names a script leaves those that it
does not contain as they were. -/
theorem applyAll_of_not_mem_of_nodup (schema : Schema κ δ) {whole : List (Statement κ δ)}
    (hnames : (names whole).Nodup) (hsub : script ⊆ whole) (hmem : statement ∈ whole)
    (hnot : statement ∉ script) :
    applyAll script schema statement.name = schema statement.name := by
  apply applyAll_of_not_mem
  intro hname
  obtain ⟨other, hother, heq⟩ := List.mem_map.mp hname
  obtain rfl := List.inj_on_of_nodup_map hnames (hsub hother) hmem heq
  exact hnot hother

/-- Whether a statement is blocked does not depend on the statements before it. -/
theorem blocked_apply {first : Statement κ δ} (hnames : (names (first :: rest)).Nodup)
    (hmem : statement ∈ rest) :
    statement.blocked (first.apply schema) = statement.blocked schema := by
  apply Statement.blocked_congr
  apply Statement.apply_of_ne
  intro heq
  have hfirst : first.name ∈ names rest := heq ▸ List.mem_map_of_mem hmem
  exact (List.nodup_cons.mp hnames).1 hfirst

end Ddl
