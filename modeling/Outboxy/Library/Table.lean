import Mathlib.Data.List.Nodup
import Mathlib.Data.List.Basic

/-!
# A relational table with a primary key and a unique index

A `Table pk ix` is a list of rows.  `pk` is the primary key, and `ix` is the
key of a unique index: a row with `ix r = none` is outside the index, which
covers partial indexes and NULL keys.  Both uniqueness constraints are fields
of the structure, so a table that breaks one of them cannot be built, and a
statement that would break the index has no result.

There are five groups.

* Lookup by primary key.
* `Update`, an `UPDATE ... SET ... WHERE`.  `lookup_update` is its meaning
  row by row, and `update_isSome` gives a condition under which the index
  cannot reject it.
* `insert`, which needs a fresh primary key and a free index key, and
  `insertFree`, which skips the rows whose index key is taken;
  `Fresh.induction` is its induction rule.
* `delete`, a `DELETE ... WHERE`.
* `IsSelection`, what a `SELECT ... LIMIT n` may return when the engine is
  free to choose which rows it returns.
-/

/-- Rows with a primary key `pk` and a unique index `ix`. -/
structure Table {ρ κ ι : Type*} (pk : ρ → κ) (ix : ρ → Option ι) where
  rows : List ρ
  pk_nodup : (rows.map pk).Nodup
  ix_nodup : (rows.filterMap ix).Nodup

/-- `UPDATE ... SET assign WHERE guard`.  An assignment keeps the primary
key. -/
structure Update {ρ κ : Type*} (pk : ρ → κ) where
  guard : ρ → Bool
  assign : ρ → ρ
  assign_pk : ∀ r, pk (assign r) = pk r

namespace Update

variable {ρ κ : Type*} {pk : ρ → κ}

/-- What the statement makes of one row. -/
def apply (u : Update pk) (r : ρ) : ρ := if u.guard r then u.assign r else r

theorem apply_of_guard {u : Update pk} {r : ρ} (h : u.guard r = true) :
    u.apply r = u.assign r := if_pos h

theorem apply_of_not_guard {u : Update pk} {r : ρ} (h : u.guard r = false) :
    u.apply r = r := by
  rw [apply, h]
  rfl

theorem pk_apply (u : Update pk) (r : ρ) : pk (u.apply r) = pk r := by
  unfold apply
  split
  · exact u.assign_pk r
  · rfl

/-- A property of rows that the assignment keeps on the rows it touches is
kept by the statement. -/
theorem apply_keeps {u : Update pk} {P : ρ → Prop} {r : ρ}
    (hassign : u.guard r = true → P r → P (u.assign r)) (hr : P r) :
    P (u.apply r) := by
  cases hg : u.guard r with
  | true =>
    rw [apply_of_guard hg]
    exact hassign hg hr
  | false =>
    rw [apply_of_not_guard hg]
    exact hr

end Update

namespace Table

variable {ρ κ ι : Type*} {pk : ρ → κ} {ix : ρ → Option ι}

/-- The table with no rows. -/
def empty : Table pk ix := ⟨[], List.nodup_nil, List.nodup_nil⟩

/-! ## Lookup by primary key -/

section Lookup

variable [DecidableEq κ]

/-- The row with primary key `k`. -/
def lookup (t : Table pk ix) (k : κ) : Option ρ :=
  t.rows.find? fun r => decide (pk r = k)

theorem lookup_eq_some_iff {t : Table pk ix} {k : κ} {r : ρ} :
    t.lookup k = some r ↔ r ∈ t.rows ∧ pk r = k := by
  constructor
  · intro h
    exact ⟨List.mem_of_find?_eq_some h, by simpa using List.find?_some h⟩
  · intro h
    obtain ⟨hr, rfl⟩ := h
    cases hfind : t.lookup (pk r) with
    | none =>
      have hnone := List.find?_eq_none.mp hfind r hr
      simp at hnone
    | some r' =>
      have hr' : r' ∈ t.rows := List.mem_of_find?_eq_some hfind
      have hk : pk r' = pk r := by simpa using List.find?_some hfind
      rw [List.inj_on_of_nodup_map t.pk_nodup hr' hr hk]

theorem mem_of_lookup {t : Table pk ix} {k : κ} {r : ρ}
    (h : t.lookup k = some r) : r ∈ t.rows := (lookup_eq_some_iff.mp h).1

theorem pk_of_lookup {t : Table pk ix} {k : κ} {r : ρ}
    (h : t.lookup k = some r) : pk r = k := (lookup_eq_some_iff.mp h).2

theorem lookup_of_mem {t : Table pk ix} {r : ρ} (h : r ∈ t.rows) :
    t.lookup (pk r) = some r := lookup_eq_some_iff.mpr ⟨h, rfl⟩

theorem lookup_eq_none_iff {t : Table pk ix} {k : κ} :
    t.lookup k = none ↔ ∀ r ∈ t.rows, pk r ≠ k := by
  simp [lookup]

/-- The rows found under a list of keys are the keyed rows themselves. -/
theorem mem_filterMap_lookup {t : Table pk ix} {ks : List κ} {r : ρ}
    (h : r ∈ ks.filterMap t.lookup) : r ∈ t.rows ∧ pk r ∈ ks := by
  obtain ⟨k, hk, hr⟩ := List.mem_filterMap.mp h
  exact ⟨mem_of_lookup hr, pk_of_lookup hr ▸ hk⟩

/-- Looking up a list of keys gives rows with a sublist of these keys. -/
theorem map_pk_filterMap_lookup_sublist (t : Table pk ix) (ks : List κ) :
    ((ks.filterMap t.lookup).map pk).Sublist ks := by
  induction ks with
  | nil => simp
  | cons k ks ih =>
    cases hk : t.lookup k with
    | none =>
      rw [List.filterMap_cons_none hk]
      exact ih.cons k
    | some r =>
      rw [List.filterMap_cons_some hk, List.map_cons, pk_of_lookup hk]
      exact ih.cons_cons k

/-- The rows found under known keys have these keys. -/
theorem map_pk_filterMap_lookup {t : Table pk ix} {ks : List κ}
    (h : ∀ k ∈ ks, (t.lookup k).isSome) : (ks.filterMap t.lookup).map pk = ks := by
  induction ks with
  | nil => rfl
  | cons k ks ih =>
    obtain ⟨r, hr⟩ := Option.isSome_iff_exists.mp (h k List.mem_cons_self)
    rw [List.filterMap_cons_some hr, List.map_cons, pk_of_lookup hr,
      ih fun k' hk' => h k' (List.mem_cons_of_mem _ hk')]

end Lookup

/-- Two rows with the same index key are the same row. -/
theorem eq_of_ix_eq {t : Table pk ix} {r r' : ρ} {i : ι} (hr : r ∈ t.rows) (hr' : r' ∈ t.rows)
    (hi : ix r = some i) (hi' : ix r' = some i) : r = r' := by
  obtain ⟨l₁, l₂, heq⟩ := List.append_of_mem hr
  have hnodup := t.ix_nodup
  rw [heq, List.filterMap_append, List.filterMap_cons_some hi, List.nodup_middle,
    List.nodup_cons] at hnodup
  rw [heq, List.mem_append, List.mem_cons] at hr'
  rcases hr' with hr' | hr' | hr'
  · exact absurd (List.mem_append_left _ (List.mem_filterMap.mpr ⟨r', hr', hi'⟩)) hnodup.1
  · exact hr'.symm
  · exact absurd (List.mem_append_right _ (List.mem_filterMap.mpr ⟨r', hr', hi'⟩)) hnodup.1

/-! ## UPDATE -/

/-- The keys of the rows that the statement touches. -/
def affected (t : Table pk ix) (u : Update pk) : List κ :=
  (t.rows.filter u.guard).map pk

theorem mem_affected {t : Table pk ix} {u : Update pk} {k : κ} :
    k ∈ t.affected u ↔ ∃ r ∈ t.rows, u.guard r = true ∧ pk r = k := by
  simp [affected, and_assoc]

theorem mem_affected_iff_lookup [DecidableEq κ] {t : Table pk ix} {u : Update pk} {k : κ} :
    k ∈ t.affected u ↔ ∃ r, t.lookup k = some r ∧ u.guard r = true := by
  rw [mem_affected]
  constructor
  · intro h
    obtain ⟨r, hr, hg, rfl⟩ := h
    exact ⟨r, lookup_of_mem hr, hg⟩
  · intro h
    obtain ⟨r, hr, hg⟩ := h
    exact ⟨r, mem_of_lookup hr, hg, pk_of_lookup hr⟩

theorem nodup_affected (t : Table pk ix) (u : Update pk) : (t.affected u).Nodup :=
  t.pk_nodup.sublist (List.filter_sublist.map pk)

section Update

variable [DecidableEq ι]

/-- Run the statement.  It has no result when the unique index rejects it. -/
def update (t : Table pk ix) (u : Update pk) : Option (Table pk ix) :=
  if h : ((t.rows.map u.apply).filterMap ix).Nodup then
    some ⟨t.rows.map u.apply, by
      rw [List.map_map, show pk ∘ u.apply = pk from funext u.pk_apply]
      exact t.pk_nodup, h⟩
  else none

theorem rows_update {t t' : Table pk ix} {u : Update pk} (h : t.update u = some t') :
    t'.rows = t.rows.map u.apply := by
  unfold update at h
  split at h
  · obtain rfl := Option.some.inj h
    rfl
  · exact absurd h (by simp)

/-- The meaning of the statement on the row with key `k`. -/
theorem lookup_update [DecidableEq κ] {t t' : Table pk ix} {u : Update pk}
    (h : t.update u = some t') (k : κ) :
    t'.lookup k = (t.lookup k).map u.apply := by
  rw [lookup, rows_update h, List.find?_map]
  simp only [Function.comp_def, Update.pk_apply, lookup]

/-- A statement touches no row with a key outside the affected ones. -/
theorem lookup_update_of_not_mem [DecidableEq κ] {t t' : Table pk ix} {u : Update pk}
    (h : t.update u = some t') {k : κ} (hk : k ∉ t.affected u) :
    t'.lookup k = t.lookup k := by
  rw [lookup_update h]
  cases hr : t.lookup k with
  | none => rfl
  | some r =>
    have hg : u.guard r = false := by
      by_contra hg
      exact hk (mem_affected.mpr ⟨r, mem_of_lookup hr, by simpa using hg, pk_of_lookup hr⟩)
    rw [Option.map_some, Update.apply_of_not_guard hg]

/-- A row that matches the `WHERE` is assigned to. -/
theorem lookup_update_of_guard [DecidableEq κ] {t t' : Table pk ix} {u : Update pk}
    (h : t.update u = some t') {k : κ} {r : ρ} (hk : t.lookup k = some r)
    (hg : u.guard r = true) : t'.lookup k = some (u.assign r) := by
  rw [lookup_update h, hk, Option.map_some, Update.apply_of_guard hg]

/-- A statement that keeps the index key of every row it touches is never
rejected by the index. -/
theorem update_isSome {t : Table pk ix} {u : Update pk}
    (h : ∀ r ∈ t.rows, u.guard r = true → ix (u.assign r) = ix r) :
    (t.update u).isSome := by
  have hsame : (t.rows.map u.apply).filterMap ix = t.rows.filterMap ix := by
    rw [List.filterMap_map]
    refine List.filterMap_congr fun r hr => ?_
    cases hg : u.guard r with
    | true => rw [Function.comp_apply, Update.apply_of_guard hg, h r hr hg]
    | false => rw [Function.comp_apply, Update.apply_of_not_guard hg]
  unfold update
  rw [dif_pos (hsame ▸ t.ix_nodup)]
  rfl

/-- Nor is one that takes rows out of the index. -/
theorem update_isSome_of_or {t : Table pk ix} {u : Update pk}
    (h : ∀ r ∈ t.rows, u.guard r = true → ix (u.assign r) = ix r ∨ ix (u.assign r) = none) :
    (t.update u).isSome := by
  have hrow : ∀ r ∈ t.rows, ix (u.apply r) = ix r ∨ ix (u.apply r) = none := by
    intro r hr
    cases hg : u.guard r with
    | true =>
      rw [Update.apply_of_guard hg]
      exact h r hr hg
    | false =>
      rw [Update.apply_of_not_guard hg]
      exact Or.inl rfl
  have hsub : ∀ rows : List ρ, (∀ r ∈ rows, ix (u.apply r) = ix r ∨ ix (u.apply r) = none) →
      ((rows.map u.apply).filterMap ix).Sublist (rows.filterMap ix) := by
    intro rows
    induction rows with
    | nil => exact fun _ => List.Sublist.refl _
    | cons r rows ih =>
      intro hrows
      have ih := ih fun r' hr' => hrows r' (List.mem_cons_of_mem _ hr')
      rw [List.map_cons]
      cases hi : ix (u.apply r) with
      | none =>
        rw [List.filterMap_cons_none hi]
        exact ih.trans ((List.sublist_cons_self r rows).filterMap ix)
      | some i =>
        have hold : ix r = some i := by
          rcases hrows r List.mem_cons_self with hsame | hnone
          · exact hsame.symm.trans hi
          · exact absurd (hi.symm.trans hnone) (by simp)
        rw [List.filterMap_cons_some hi, List.filterMap_cons_some hold]
        exact ih.cons_cons i
  unfold update
  rw [dif_pos (t.ix_nodup.sublist (hsub t.rows hrow))]
  rfl

/-- A statement that assigns every row to itself changes nothing. -/
theorem update_eq_self {t : Table pk ix} {u : Update pk} (h : ∀ r, u.assign r = r) :
    t.update u = some t := by
  have hrows : t.rows.map u.apply = t.rows := by
    refine List.map_id'' (fun r => ?_) t.rows
    unfold Update.apply
    split
    · exact h r
    · rfl
  obtain ⟨t', ht'⟩ := Option.isSome_iff_exists.mp
    (update_isSome (t := t) (u := u) fun r _ _ => congrArg ix (h r))
  have heq := rows_update ht'
  rw [hrows] at heq
  rw [ht', Option.some.injEq]
  cases t
  cases t'
  cases heq
  rfl

end Update

/-! ## INSERT -/

section Insert

variable [DecidableEq κ] [DecidableEq ι]

/-- Insert a row.  There is no result when its primary key or its index key
is taken. -/
def insert (t : Table pk ix) (r : ρ) : Option (Table pk ix) :=
  if h : pk r ∉ t.rows.map pk ∧ ((t.rows ++ [r]).filterMap ix).Nodup then
    some ⟨t.rows ++ [r], by
      rw [List.map_append, List.map_singleton]
      refine t.pk_nodup.append (List.nodup_singleton _) ?_
      simpa using h.1, h.2⟩
  else none

theorem rows_insert {t t' : Table pk ix} {r : ρ} (h : t.insert r = some t') :
    t'.rows = t.rows ++ [r] := by
  unfold insert at h
  split at h
  · obtain rfl := Option.some.inj h
    rfl
  · exact absurd h (by simp)

theorem pk_fresh_of_insert {t t' : Table pk ix} {r : ρ} (h : t.insert r = some t') :
    t.lookup (pk r) = none := by
  unfold insert at h
  split at h
  · rename_i hfresh
    rw [lookup_eq_none_iff]
    intro r' hr' hk
    exact hfresh.1 (List.mem_map.mpr ⟨r', hr', hk⟩)
  · exact absurd h (by simp)

/-- The meaning of an insert on the row with key `k`. -/
theorem lookup_insert {t t' : Table pk ix} {r : ρ} (h : t.insert r = some t') (k : κ) :
    t'.lookup k = if pk r = k then some r else t.lookup k := by
  have hfresh := pk_fresh_of_insert h
  rw [lookup, rows_insert h, List.find?_append]
  split
  · rename_i hk
    subst hk
    rw [lookup] at hfresh
    rw [hfresh]
    simp
  · rename_i hk
    simp [lookup, hk]

/-- An insert keeps every row that is there. -/
theorem lookup_insert_of_some {t t' : Table pk ix} {r r' : ρ} {k : κ}
    (h : t.insert r = some t') (hk : t.lookup k = some r') : t'.lookup k = some r' := by
  rw [lookup_insert h, if_neg, hk]
  intro heq
  subst heq
  rw [pk_fresh_of_insert h] at hk
  exact absurd hk (by simp)

/-- A key that an insert makes known is that of its row. -/
theorem eq_of_lookup_insert {t t' : Table pk ix} {r r' : ρ} {k : κ}
    (h : t.insert r = some t') (hk : t.lookup k = none) (hk' : t'.lookup k = some r') :
    r' = r ∧ pk r = k := by
  rw [lookup_insert h] at hk'
  split at hk'
  · rename_i hr
    exact ⟨(Option.some.inj hk').symm, hr⟩
  · exact absurd (hk.symm.trans hk') (by simp)

/-- The row that an `INSERT` of `r` collides with in the unique index. -/
def conflict (t : Table pk ix) (r : ρ) : Option ρ :=
  t.rows.find? fun r' => (ix r').isSome && decide (ix r' = ix r)

omit [DecidableEq κ] in
theorem conflict_eq_some_iff {t : Table pk ix} {r r' : ρ} :
    t.conflict r = some r' ↔ r' ∈ t.rows ∧ ix r' = ix r ∧ ∃ i, ix r' = some i := by
  constructor
  · intro h
    have hr' := List.find?_some h
    simp only [Bool.and_eq_true, decide_eq_true_eq] at hr'
    exact ⟨List.mem_of_find?_eq_some h, hr'.2, Option.isSome_iff_exists.mp hr'.1⟩
  · intro h
    obtain ⟨hr', hix, i, hi⟩ := h
    cases hfind : t.conflict r with
    | none =>
      have hnone := List.find?_eq_none.mp hfind r' hr'
      simp [hi, ← hix] at hnone
    | some r'' =>
      have hr'' := List.find?_some hfind
      simp only [Bool.and_eq_true, decide_eq_true_eq] at hr''
      exact congrArg some
        (eq_of_ix_eq (List.mem_of_find?_eq_some hfind) hr' (hr''.2.trans (hix ▸ hi)) hi)

omit [DecidableEq κ] in
theorem conflict_eq_none_iff {t : Table pk ix} {r : ρ} :
    t.conflict r = none ↔ ∀ r' ∈ t.rows, ∀ i, ix r' = some i → ix r ≠ some i := by
  constructor
  · intro h r' hr' i hi hr
    have hnone := List.find?_eq_none.mp h r' hr'
    simp [hi, hr] at hnone
  · intro h
    refine List.find?_eq_none.mpr fun r' hr' => ?_
    cases hi : ix r' with
    | none => simp
    | some i => simpa using fun heq => h r' hr' i hi heq.symm

/-- A row collides with nothing exactly when the index has room for it. -/
theorem insert_isSome_iff {t : Table pk ix} {r : ρ} :
    (t.insert r).isSome ↔ t.lookup (pk r) = none ∧ t.conflict r = none := by
  have hpk : pk r ∉ t.rows.map pk ↔ t.lookup (pk r) = none := by
    rw [lookup_eq_none_iff]
    simp
  have hix : ((t.rows ++ [r]).filterMap ix).Nodup ↔ t.conflict r = none := by
    rw [List.filterMap_append, List.nodup_append', conflict_eq_none_iff]
    cases hr : ix r with
    | none => simp [hr, t.ix_nodup]
    | some i =>
      have hfree : (∀ r' ∈ t.rows, ix r' ≠ some i) ↔
          ∀ r' ∈ t.rows, ∀ j, ix r' = some j → i ≠ j :=
        ⟨fun h r' hr' j hj hij => h r' hr' (hij ▸ hj), fun h r' hr' hi => h r' hr' i hi rfl⟩
      simpa [hr, t.ix_nodup] using hfree
  unfold insert
  split
  · rename_i h
    simpa using ⟨hpk.mp h.1, hix.mp h.2⟩
  · rename_i h
    simpa using fun hlookup hconflict => h ⟨hpk.mpr hlookup, hix.mpr hconflict⟩

/-- An insert with a fresh primary key and a free index key succeeds. -/
theorem exists_insert {t : Table pk ix} {r : ρ} (hpk : t.lookup (pk r) = none)
    (hix : t.conflict r = none) : ∃ t', t.insert r = some t' :=
  Option.isSome_iff_exists.mp (insert_isSome_iff.mpr ⟨hpk, hix⟩)

/-- An insert into the table of a conflicting row fails. -/
theorem insert_of_conflict {t : Table pk ix} {r r' : ρ} (h : t.conflict r = some r') :
    t.insert r = none := by
  rw [← Option.not_isSome_iff_eq_none, insert_isSome_iff, h]
  simp

/-- What a row collides with is the same after an insert of a row with another
index key. -/
theorem conflict_insert_of_ne {t t' : Table pk ix} {r r' : ρ} (h : t.insert r = some t')
    (hne : ix r ≠ ix r') : t'.conflict r' = t.conflict r' := by
  rw [conflict, rows_insert h, List.find?_append]
  simp [conflict, hne]

/-- After an insert, a row with the same index key collides. -/
theorem conflict_insert_of_eq {t t' : Table pk ix} {r r' : ρ} {i : ι} (h : t.insert r = some t')
    (hi : ix r = some i) (hi' : ix r' = some i) : t'.conflict r' = some r := by
  rw [conflict_eq_some_iff, rows_insert h]
  exact ⟨by simp, hi.trans hi'.symm, i, hi⟩

/-- A multi-row `INSERT`: all rows, or no result. -/
def insertAll (t : Table pk ix) (rs : List ρ) : Option (Table pk ix) := rs.foldlM insert t

/-! ### Skipping taken keys -/

/-- A multi-row `INSERT` that skips the rows which the table has no room
for. -/
def insertFree (t : Table pk ix) (rs : List ρ) : Table pk ix :=
  rs.foldl (fun t r => (t.insert r).getD t) t

theorem insertFree_append (t : Table pk ix) (rs rs' : List ρ) :
    t.insertFree (rs ++ rs') = (t.insertFree rs).insertFree rs' := List.foldl_append

theorem insertFree_cons_of_conflict {t : Table pk ix} {r r' : ρ} (h : t.conflict r = some r')
    (rs : List ρ) : t.insertFree (r :: rs) = t.insertFree rs := by
  unfold insertFree
  rw [List.foldl_cons, insert_of_conflict h]
  rfl

theorem insertFree_cons_of_insert {t t' : Table pk ix} {r : ρ} (h : t.insert r = some t')
    (rs : List ρ) : t.insertFree (r :: rs) = t'.insertFree rs := by
  unfold insertFree
  rw [List.foldl_cons, h]
  rfl

/-- Some of the rows are appended, in their order. -/
theorem exists_rows_insertFree (t : Table pk ix) (rs : List ρ) :
    ∃ new, new.Sublist rs ∧ (t.insertFree rs).rows = t.rows ++ new := by
  induction rs generalizing t with
  | nil => exact ⟨[], .slnil, (List.append_nil _).symm⟩
  | cons r rs ih =>
    cases hinsert : t.insert r with
    | none =>
      obtain ⟨new, hsub, hrows⟩ := ih t
      refine ⟨new, hsub.cons r, ?_⟩
      rw [insertFree, List.foldl_cons, hinsert]
      exact hrows
    | some t' =>
      obtain ⟨new, hsub, hrows⟩ := ih t'
      refine ⟨r :: new, hsub.cons_cons r, ?_⟩
      rw [insertFree_cons_of_insert hinsert, hrows, rows_insert hinsert, List.append_assoc]
      rfl

theorem mem_insertFree_of_mem {t : Table pk ix} {r : ρ} (h : r ∈ t.rows) (rs : List ρ) :
    r ∈ (t.insertFree rs).rows := by
  obtain ⟨new, _, hrows⟩ := exists_rows_insertFree t rs
  exact hrows ▸ List.mem_append_left _ h

theorem mem_of_mem_insertFree {t : Table pk ix} {rs : List ρ} {r : ρ}
    (h : r ∈ (t.insertFree rs).rows) : r ∈ t.rows ∨ r ∈ rs := by
  obtain ⟨new, hsub, hrows⟩ := exists_rows_insertFree t rs
  rw [hrows, List.mem_append] at h
  exact h.imp_right fun hr => hsub.subset hr

/-- The row in the way stays there. -/
theorem conflict_insertFree {t : Table pk ix} {r r' : ρ} (h : t.conflict r = some r')
    (rs : List ρ) : (t.insertFree rs).conflict r = some r' := by
  rw [conflict_eq_some_iff] at h ⊢
  exact ⟨mem_insertFree_of_mem h.1 rs, h.2⟩

theorem lookup_insertFree_of_some {t : Table pk ix} {k : κ} {r : ρ} (h : t.lookup k = some r)
    (rs : List ρ) : (t.insertFree rs).lookup k = some r := by
  rw [lookup_eq_some_iff] at h ⊢
  exact ⟨mem_insertFree_of_mem h.1 rs, h.2⟩

/-- Rows with other primary keys make no difference to a lookup. -/
theorem lookup_insertFree_of_not_mem {t : Table pk ix} {rs : List ρ} {k : κ}
    (h : k ∉ rs.map pk) : (t.insertFree rs).lookup k = t.lookup k := by
  cases hlookup : t.lookup k with
  | some r => exact lookup_insertFree_of_some hlookup rs
  | none =>
    rw [lookup_eq_none_iff] at hlookup ⊢
    intro r hr
    rcases mem_of_mem_insertFree hr with hr | hr
    · exact hlookup r hr
    · rintro rfl
      exact h (List.mem_map_of_mem hr)

/-- The primary keys of the rows are new, and differ. -/
structure Fresh (t : Table pk ix) (rs : List ρ) : Prop where
  new : ∀ r ∈ rs, t.lookup (pk r) = none
  distinct : (rs.map pk).Nodup

namespace Fresh

variable {t t' : Table pk ix} {r : ρ} {rs rs' : List ρ}

omit [DecidableEq ι] in
theorem nil (t : Table pk ix) : t.Fresh [] := ⟨by simp, List.nodup_nil⟩

omit [DecidableEq ι] in
theorem tail (h : t.Fresh (r :: rs)) : t.Fresh rs :=
  ⟨fun r' hr' => h.new r' (List.mem_cons_of_mem _ hr'), (List.nodup_cons.mp h.distinct).2⟩

omit [DecidableEq ι] in
theorem left (h : t.Fresh (rs ++ rs')) : t.Fresh rs :=
  ⟨fun r hr => h.new r (List.mem_append_left _ hr),
    h.distinct.sublist ((List.sublist_append_left _ _).map pk)⟩

theorem right (h : t.Fresh (rs ++ rs')) : (t.insertFree rs).Fresh rs' := by
  have hdistinct := h.distinct
  rw [List.map_append, List.nodup_append'] at hdistinct
  refine ⟨fun r hr => ?_, hdistinct.2.1⟩
  rw [lookup_insertFree_of_not_mem fun hmem => hdistinct.2.2 hmem (List.mem_map_of_mem hr)]
  exact h.new r (List.mem_append_right _ hr)

omit [DecidableEq ι] in
theorem head (h : t.Fresh (r :: rs)) : t.Fresh [r] := by
  have happend : t.Fresh ([r] ++ rs) := h
  exact happend.left

theorem rest (h : t.Fresh (r :: rs)) : (t.insertFree [r]).Fresh rs := by
  have happend : t.Fresh ([r] ++ rs) := h
  exact happend.right

theorem insert (h : t.Fresh (r :: rs)) (hinsert : t.insert r = some t') : t'.Fresh rs := by
  have hrest := h.rest
  rwa [insertFree_cons_of_insert hinsert] at hrest

/-- Rows go in one after the other, each unless its index key is taken. -/
@[elab_as_elim]
theorem induction {motive : (t : Table pk ix) → (rs : List ρ) → t.Fresh rs → Prop}
    (nil : ∀ t, motive t [] (.nil t))
    (skip : ∀ t r r' rs (h : t.Fresh (r :: rs)), t.conflict r = some r' → motive t rs h.tail →
      motive t (r :: rs) h)
    (insert : ∀ t t' r rs (h : t.Fresh (r :: rs)) (_ : t.conflict r = none)
      (hinsert : t.insert r = some t'), motive t' rs (h.insert hinsert) → motive t (r :: rs) h)
    (h : t.Fresh rs) : motive t rs h := by
  induction rs generalizing t with
  | nil => exact nil t
  | cons r rs ih =>
    cases hconflict : t.conflict r with
    | some r' => exact skip t r r' rs h hconflict (ih h.tail)
    | none =>
      obtain ⟨t', hinsert⟩ := exists_insert (h.new r List.mem_cons_self) hconflict
      exact insert t t' r rs h hconflict hinsert (ih (h.insert hinsert))

/-- What is found under the primary key of one of the rows is that row. -/
theorem eq_of_lookup (h : t.Fresh rs) {r' : ρ} (hr : r ∈ rs)
    (hlookup : (t.insertFree rs).lookup (pk r) = some r') : r' = r := by
  have hpk := pk_of_lookup hlookup
  rcases mem_of_mem_insertFree (mem_of_lookup hlookup) with hr' | hr'
  · exact absurd hpk (lookup_eq_none_iff.mp (h.new r hr) r' hr')
  · exact List.inj_on_of_nodup_map h.distinct hr' hr hpk

/-- The first row is stored unless its index key is taken. -/
theorem lookup_head (h : t.Fresh (r :: rs)) :
    ((t.insertFree (r :: rs)).lookup (pk r)).isSome = (t.conflict r).isNone := by
  have hnot := (List.nodup_cons.mp h.distinct).1
  cases hconflict : t.conflict r with
  | some r' =>
    rw [insertFree_cons_of_conflict hconflict, lookup_insertFree_of_not_mem hnot,
      h.new r List.mem_cons_self]
    rfl
  | none =>
    obtain ⟨t', hinsert⟩ := exists_insert (h.new r List.mem_cons_self) hconflict
    rw [insertFree_cons_of_insert hinsert, lookup_insertFree_of_not_mem hnot,
      lookup_insert hinsert, if_pos rfl]
    rfl

/-- Afterwards the index key of each row is taken. -/
theorem exists_conflict (h : t.Fresh rs) (hr : r ∈ rs) {i : ι} (hi : ix r = some i) :
    ∃ r', (t.insertFree rs).conflict r = some r' := by
  induction h using Fresh.induction with
  | nil t => exact absurd hr List.not_mem_nil
  | skip t r₁ r' rs _ hconflict ih =>
    rcases List.mem_cons.mp hr with rfl | hr
    · exact ⟨r', conflict_insertFree hconflict _⟩
    · rw [insertFree_cons_of_conflict hconflict]
      exact ih hr
  | insert t t' r₁ rs _ _ hinsert ih =>
    rw [insertFree_cons_of_insert hinsert]
    rcases List.mem_cons.mp hr with rfl | hr
    · exact ⟨r, conflict_insertFree (conflict_insert_of_eq hinsert hi hi) _⟩
    · exact ih hr

end Fresh

end Insert

/-! ## DELETE -/

/-- `DELETE ... WHERE p` -/
def delete (t : Table pk ix) (p : ρ → Bool) : Table pk ix where
  rows := t.rows.filter fun r => !p r
  pk_nodup := t.pk_nodup.sublist (List.filter_sublist.map pk)
  ix_nodup := t.ix_nodup.sublist (List.filter_sublist.filterMap ix)

theorem mem_delete {t : Table pk ix} {p : ρ → Bool} {r : ρ} :
    r ∈ (t.delete p).rows ↔ r ∈ t.rows ∧ p r = false := by
  simp [delete]

/-- Rows that a new row does not collide with can be deleted first. -/
theorem conflict_delete [DecidableEq ι] {t : Table pk ix} {p : ρ → Bool} {r : ρ}
    (h : ∀ r' ∈ t.rows, p r' = true → ix r' ≠ ix r) : (t.delete p).conflict r = t.conflict r := by
  cases hconflict : t.conflict r with
  | none =>
    rw [conflict_eq_none_iff] at hconflict ⊢
    exact fun r' hr' => hconflict r' (mem_delete.mp hr').1
  | some r' =>
    rw [conflict_eq_some_iff] at hconflict ⊢
    obtain ⟨hr', hix, hsome⟩ := hconflict
    exact ⟨mem_delete.mpr ⟨hr', by simpa using fun hp => h r' hr' hp hix⟩, hix, hsome⟩

theorem lookup_delete_of_none [DecidableEq κ] {t : Table pk ix} {p : ρ → Bool} {k : κ}
    (h : t.lookup k = none) : (t.delete p).lookup k = none := by
  rw [lookup_eq_none_iff] at h ⊢
  exact fun r hr => h r (mem_delete.mp hr).1

/-- A row that the statement does not match stays. -/
theorem lookup_delete_of_some [DecidableEq κ] {t : Table pk ix} {p : ρ → Bool} {k : κ} {r : ρ}
    (h : t.lookup k = some r) (hp : p r = false) : (t.delete p).lookup k = some r := by
  rw [lookup_eq_some_iff] at h ⊢
  exact ⟨mem_delete.mpr ⟨h.1, hp⟩, h.2⟩

/-- What is left was there, and is not matched. -/
theorem of_lookup_delete [DecidableEq κ] {t : Table pk ix} {p : ρ → Bool} {k : κ} {r : ρ}
    (h : (t.delete p).lookup k = some r) : t.lookup k = some r ∧ p r = false := by
  rw [lookup_eq_some_iff, mem_delete] at h
  exact ⟨lookup_eq_some_iff.mpr ⟨h.1.1, h.2⟩, h.1.2⟩

/-! ## SELECT with a limit -/

section Selection

/-- `ks` are the keys that a `SELECT ... WHERE p LIMIT limit` may return: keys
of distinct matching rows, and as many of them as there are within the limit. -/
def IsSelection (t : Table pk ix) (p : ρ → Bool) (limit : Nat) (ks : List κ) : Prop :=
  ks.Nodup ∧ (∀ k ∈ ks, ∃ r ∈ t.rows, pk r = k ∧ p r = true) ∧
    ks.length = min limit (t.rows.countP p)

instance [DecidableEq κ] (t : Table pk ix) (p : ρ → Bool) (limit : Nat) (ks : List κ) :
    Decidable (t.IsSelection p limit ks) := by
  unfold IsSelection
  infer_instance

theorem IsSelection.length_le {t : Table pk ix} {p : ρ → Bool} {limit : Nat} {ks : List κ}
    (h : t.IsSelection p limit ks) : ks.length ≤ limit := by
  rw [h.2.2]
  exact Nat.min_le_left _ _

/-- Each selected key belongs to a matching row. -/
theorem IsSelection.lookup [DecidableEq κ] {t : Table pk ix} {p : ρ → Bool} {limit : Nat}
    {ks : List κ} (h : t.IsSelection p limit ks) {k : κ} (hk : k ∈ ks) :
    ∃ r, t.lookup k = some r ∧ p r = true := by
  obtain ⟨r, hr, rfl, hp⟩ := h.2.1 k hk
  exact ⟨r, lookup_of_mem hr, hp⟩

/-- Without an effective limit, a selection takes every matching row. -/
theorem IsSelection.length_of_countP_le {t : Table pk ix} {p : ρ → Bool} {limit : Nat}
    {ks : List κ} (h : t.IsSelection p limit ks) (hlimit : t.rows.countP p ≤ limit) :
    ks.length = t.rows.countP p := by
  rw [h.2.2]
  exact Nat.min_eq_right hlimit

/-- Without an effective limit, the keys of all matching rows are a
selection. -/
theorem isSelection_filter {t : Table pk ix} {p : ρ → Bool} {limit : Nat}
    (hlimit : t.rows.countP p ≤ limit) : t.IsSelection p limit ((t.rows.filter p).map pk) := by
  refine ⟨t.pk_nodup.sublist (List.filter_sublist.map pk), fun k hk => ?_, ?_⟩
  · obtain ⟨r, hr, rfl⟩ := List.mem_map.mp hk
    obtain ⟨hr, hp⟩ := List.mem_filter.mp hr
    exact ⟨r, hr, rfl, hp⟩
  · rw [List.length_map, ← List.countP_eq_length_filter, Nat.min_eq_right hlimit]

/-- There is a selection of the first matching rows in an order. -/
theorem exists_isSelection_first (t : Table pk ix) (p : ρ → Bool) (limit : Nat)
    (le : ρ → ρ → Bool) (htrans : ∀ r r' r'', le r r' = true → le r' r'' = true → le r r'' = true)
    (htotal : ∀ r r', (le r r' || le r' r) = true) :
    ∃ ks, t.IsSelection p limit ks ∧ ∀ r ∈ t.rows, pk r ∈ ks →
      ∀ other ∈ t.rows, p other = true → pk other ∉ ks → le r other = true := by
  let sorted := (t.rows.filter p).mergeSort le
  have hperm : sorted.Perm (t.rows.filter p) := List.mergeSort_perm _ _
  have hmem : ∀ r, r ∈ sorted ↔ r ∈ t.rows ∧ p r = true := fun r =>
    hperm.mem_iff.trans List.mem_filter
  have hnodup : (sorted.map pk).Nodup :=
    (hperm.map pk).nodup_iff.mpr (t.pk_nodup.sublist (List.filter_sublist.map pk))
  have hordered : sorted.Pairwise fun r r' => le r r' = true :=
    List.pairwise_mergeSort htrans htotal _
  rw [← List.take_append_drop limit sorted, List.pairwise_append] at hordered
  refine ⟨(sorted.take limit).map pk, ⟨hnodup.sublist ((List.take_sublist _ _).map pk), ?_, ?_⟩, ?_⟩
  · intro k hk
    obtain ⟨r, hr, rfl⟩ := List.mem_map.mp hk
    obtain ⟨hrow, hp⟩ := (hmem r).mp (List.mem_of_mem_take hr)
    exact ⟨r, hrow, rfl, hp⟩
  · rw [List.length_map, List.length_take, hperm.length_eq, ← List.countP_eq_length_filter]
  · intro r hr hk other hother hp hnot
    obtain ⟨r', hr', hpk⟩ := List.mem_map.mp hk
    have hrow' : r' ∈ t.rows := ((hmem r').mp (List.mem_of_mem_take hr')).1
    obtain rfl := List.inj_on_of_nodup_map t.pk_nodup hrow' hr hpk
    have hin : other ∈ sorted.take limit ++ sorted.drop limit := by
      rw [List.take_append_drop]
      exact (hmem other).mpr ⟨hother, hp⟩
    rcases List.mem_append.mp hin with htake | hdrop
    · exact absurd (List.mem_map_of_mem htake) hnot
    · exact hordered.2.2 r' hr' other hdrop

end Selection

end Table
