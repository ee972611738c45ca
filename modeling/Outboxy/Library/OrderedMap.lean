import Mathlib.Data.List.Nodup
import Mathlib.Data.List.Basic
import Mathlib.Data.List.Induction

/-!
# Insertion-ordered maps

`OrderedMap κ ν` is a finite map whose iteration order is the order in which
its keys were first set.  Setting a key that is present replaces its value in
place.  This is the behaviour of a JavaScript `Map`.

`entries_ofList` is the lemma that loops over distinct keys use: a map that
was filled key by key holds exactly the pairs, in that order.  `setAll` sets
pairs in a map that need not be empty, and `groupBy` collects the elements of a
list under their keys.  `filterKeys` leaves out keys, also while a map is
filled.
-/

/-- A finite map that iterates in insertion order. -/
structure OrderedMap (κ ν : Type*) where
  entries : List (κ × ν)

namespace OrderedMap

variable {κ ν : Type*}

def empty : OrderedMap κ ν := ⟨[]⟩

@[simp] theorem entries_empty : (empty : OrderedMap κ ν).entries = [] := rfl

variable [DecidableEq κ]

/-- The value under `k`, if any. -/
def get? (m : OrderedMap κ ν) (k : κ) : Option ν := m.entries.lookup k

/-- Set `k` to `v`: in place when `k` is present, at the end otherwise. -/
def set (m : OrderedMap κ ν) (k : κ) (v : ν) : OrderedMap κ ν :=
  if k ∈ m.entries.map Prod.fst then
    ⟨m.entries.map fun e => if e.1 = k then (k, v) else e⟩
  else ⟨m.entries ++ [(k, v)]⟩

/-- Setting a key replaces what was under it. -/
theorem mem_entries_set_iff {m : OrderedMap κ ν} {k : κ} {v : ν} {e : κ × ν} :
    e ∈ (m.set k v).entries ↔ e = (k, v) ∨ e ∈ m.entries ∧ e.1 ≠ k := by
  unfold set
  split
  · rename_i hk
    show e ∈ m.entries.map _ ↔ _
    rw [List.mem_map]
    constructor
    · rintro ⟨a, ha, rfl⟩
      by_cases hak : a.1 = k
      · exact Or.inl (if_pos hak)
      · rw [if_neg hak]
        exact Or.inr ⟨ha, hak⟩
    · intro h
      rcases h with rfl | ⟨he, hne⟩
      · obtain ⟨a, ha, hak⟩ := List.mem_map.mp hk
        exact ⟨a, ha, if_pos hak⟩
      · exact ⟨e, he, if_neg hne⟩
  · rename_i hk
    rw [List.mem_append, List.mem_singleton]
    constructor
    · intro h
      rcases h with he | rfl
      · exact Or.inr ⟨he, fun hek => hk (hek ▸ List.mem_map_of_mem he)⟩
      · exact Or.inl rfl
    · intro h
      rcases h with rfl | ⟨he, _⟩
      · exact Or.inr rfl
      · exact Or.inl he

/-- Setting a key keeps the keys distinct. -/
theorem nodup_keys_set {m : OrderedMap κ ν} (k : κ) (v : ν)
    (h : (m.entries.map Prod.fst).Nodup) : ((m.set k v).entries.map Prod.fst).Nodup := by
  unfold set
  split
  · have hkeys : (m.entries.map fun e => if e.1 = k then (k, v) else e).map Prod.fst =
        m.entries.map Prod.fst := by
      rw [List.map_map]
      refine List.map_congr_left fun e _ => ?_
      by_cases hek : e.1 = k
      · simp [hek]
      · simp [hek]
    exact hkeys ▸ h
  · rename_i hk
    rw [List.map_append, List.map_singleton]
    exact h.append (List.nodup_singleton k) (by simpa using hk)

theorem entries_set_of_not_mem {m : OrderedMap κ ν} {k : κ} (v : ν)
    (h : k ∉ m.entries.map Prod.fst) : (m.set k v).entries = m.entries ++ [(k, v)] := by
  rw [set, if_neg h]

/-- With distinct keys, an entry of the map is what lookup finds. -/
theorem get?_of_mem_entries {m : OrderedMap κ ν} {k : κ} {v : ν}
    (hnodup : (m.entries.map Prod.fst).Nodup) (h : (k, v) ∈ m.entries) :
    m.get? k = some v := by
  obtain ⟨l₁, l₂, heq⟩ := List.append_of_mem h
  unfold get?
  rw [List.lookup_eq_some_iff]
  refine ⟨l₁, l₂, heq, fun e he => ?_⟩
  rw [heq, List.map_append, List.map_cons, List.nodup_append] at hnodup
  have hne := hnodup.2.2 e.1 (List.mem_map_of_mem he) k (by simp)
  simpa using fun hk => hne hk.symm

/-- Fill a map from the front of a list. -/
def ofList {α : Type*} (key : α → κ) (value : α → ν) (xs : List α) : OrderedMap κ ν :=
  xs.foldl (fun m x => m.set (key x) (value x)) empty

theorem entries_foldl_set {α : Type*} (key : α → κ) (value : α → ν) (xs : List α) :
    ∀ m : OrderedMap κ ν, (xs.map key).Nodup →
      (∀ x ∈ xs, key x ∉ m.entries.map Prod.fst) →
      (xs.foldl (fun m x => m.set (key x) (value x)) m).entries =
        m.entries ++ xs.map fun x => (key x, value x) := by
  induction xs with
  | nil =>
    intro m _ _
    simp
  | cons x xs ih =>
    intro m hnodup hfresh
    rw [List.map_cons, List.nodup_cons] at hnodup
    have hx := entries_set_of_not_mem (value x) (hfresh x List.mem_cons_self)
    rw [List.foldl_cons, ih _ hnodup.2, hx]
    · simp
    · intro y hy
      rw [hx, List.map_append, List.mem_append]
      intro h
      rcases h with h | h
      · exact hfresh y (List.mem_cons_of_mem x hy) h
      · have hkey : key y = key x := by simpa using h
        exact hnodup.1 (hkey ▸ List.mem_map_of_mem hy)

/-- A map filled with distinct keys holds the pairs in their order. -/
theorem entries_ofList {α : Type*} {key : α → κ} (value : α → ν) {xs : List α}
    (h : (xs.map key).Nodup) :
    (ofList key value xs).entries = xs.map fun x => (key x, value x) := by
  rw [ofList, entries_foldl_set key value xs empty h (by simp)]
  rfl

theorem entries_set_ne_nil (m : OrderedMap κ ν) (k : κ) (v : ν) : (m.set k v).entries ≠ [] := by
  unfold set
  split
  · rename_i hk
    intro hnil
    simp [List.map_eq_nil_iff.mp hnil] at hk
  · simp

/-- A map filled from an element has an entry. -/
theorem entries_ofList_ne_nil {α : Type*} (key : α → κ) (value : α → ν) {xs : List α}
    (h : xs ≠ []) : (ofList key value xs).entries ≠ [] := by
  rw [ofList, ← List.dropLast_append_getLast h, List.foldl_append]
  exact entries_set_ne_nil _ _ _

/-- The value a filled map holds under the key of one of its elements. -/
theorem get?_ofList {α : Type*} {key : α → κ} (value : α → ν) {xs : List α}
    (h : (xs.map key).Nodup) {x : α} (hx : x ∈ xs) :
    (ofList key value xs).get? (key x) = some (value x) := by
  have hentries := entries_ofList value h
  refine get?_of_mem_entries ?_ ?_
  · rw [hentries, List.map_map]
    exact h
  · rw [hentries]
    exact List.mem_map.mpr ⟨x, hx, rfl⟩

/-- A filled map has no value under a key of none of its elements. -/
theorem get?_ofList_of_not_mem {α : Type*} {key : α → κ} (value : α → ν) {xs : List α}
    (h : (xs.map key).Nodup) {k : κ} (hk : k ∉ xs.map key) :
    (ofList key value xs).get? k = none := by
  rw [get?, entries_ofList value h, List.lookup_eq_none_iff]
  intro e he
  obtain ⟨x, hx, rfl⟩ := List.mem_map.mp he
  simpa using fun heq : k = key x => hk (heq ▸ List.mem_map_of_mem hx)

/-- The keys of a map that is filled further stay distinct. -/
theorem nodup_keys_foldl_set {α : Type*} (key : α → κ) (value : α → ν) (xs : List α) :
    ∀ m : OrderedMap κ ν, (m.entries.map Prod.fst).Nodup →
      ((xs.foldl (fun m x => m.set (key x) (value x)) m).entries.map Prod.fst).Nodup := by
  induction xs with
  | nil => exact fun m h => h
  | cons x xs ih => exact fun m h => ih _ (nodup_keys_set _ _ h)

/-- An entry of a filled map is the pair of one of its elements. -/
theorem mem_of_mem_entries_ofList {α : Type*} {key : α → κ} {value : α → ν} {xs : List α}
    {e : κ × ν} (h : e ∈ (ofList key value xs).entries) : ∃ x ∈ xs, (key x, value x) = e := by
  induction xs using List.reverseRecOn with
  | nil => cases h
  | append_singleton xs x ih =>
    rw [ofList, List.foldl_append] at h
    rcases mem_entries_set_iff.mp h with rfl | ⟨h, -⟩
    · exact ⟨x, List.mem_append_right _ (List.mem_singleton_self x), rfl⟩
    · obtain ⟨y, hy, heq⟩ := ih h
      exact ⟨y, List.mem_append_left _ hy, heq⟩

/-- A filled map has an entry under the key of each of its elements. -/
theorem exists_mem_entries_ofList {α : Type*} (key : α → κ) (value : α → ν) {xs : List α} {x : α}
    (hx : x ∈ xs) : ∃ v, (key x, v) ∈ (ofList key value xs).entries := by
  induction xs using List.reverseRecOn with
  | nil => cases hx
  | append_singleton xs y ih =>
    rw [ofList, List.foldl_append]
    by_cases hkey : key x = key y
    · exact ⟨value y, mem_entries_set_iff.mpr (Or.inl (by rw [hkey]))⟩
    · rcases List.mem_append.mp hx with hx | hx
      · obtain ⟨v, hv⟩ := ih hx
        exact ⟨v, mem_entries_set_iff.mpr (Or.inr ⟨hv, hkey⟩)⟩
      · exact absurd (congrArg key (List.mem_singleton.mp hx)) hkey

/-! ## Several pairs -/

omit [DecidableEq κ] in
/-- A loop that pairs the elements with what it computes for them. -/
theorem keys_of_mapM {f : κ → Option ν} {xs : List κ} {pairs : List (κ × ν)}
    (h : (xs.mapM fun x => (f x).map fun value => (x, value)) = some pairs) :
    pairs.map Prod.fst = xs := by
  induction xs generalizing pairs with
  | nil =>
    obtain rfl := Option.some.inj h
    rfl
  | cons x xs ih =>
    rw [List.mapM_cons] at h
    obtain ⟨pair, hpair, h⟩ := Option.bind_eq_some_iff.mp h
    obtain ⟨value, -, rfl⟩ := Option.map_eq_some_iff.mp hpair
    obtain ⟨rest, hrest, h⟩ := Option.bind_eq_some_iff.mp h
    obtain rfl := Option.some.inj h
    rw [List.map_cons, ih hrest]

omit [DecidableEq κ] in
/-- The loop has a pair for each element. -/
theorem mem_of_mapM {f : κ → Option ν} {xs : List κ} {pairs : List (κ × ν)}
    (h : (xs.mapM fun x => (f x).map fun value => (x, value)) = some pairs) {x : κ}
    (hx : x ∈ xs) : ∃ value, f x = some value ∧ (x, value) ∈ pairs := by
  induction xs generalizing pairs with
  | nil => cases hx
  | cons y xs ih =>
    rw [List.mapM_cons] at h
    obtain ⟨pair, hpair, h⟩ := Option.bind_eq_some_iff.mp h
    obtain ⟨value, hvalue, rfl⟩ := Option.map_eq_some_iff.mp hpair
    obtain ⟨rest, hrest, h⟩ := Option.bind_eq_some_iff.mp h
    obtain rfl := Option.some.inj h
    rcases List.mem_cons.mp hx with rfl | hx
    · exact ⟨value, hvalue, List.mem_cons_self⟩
    · obtain ⟨value', hvalue', hmem⟩ := ih hrest hx
      exact ⟨value', hvalue', List.mem_cons_of_mem _ hmem⟩

omit [DecidableEq κ] in
/-- The loop ends early when one of the elements has nothing. -/
theorem mapM_eq_none_iff {f : κ → Option ν} {xs : List κ} :
    (xs.mapM fun x => (f x).map fun value => (x, value)) = none ↔ ∃ x ∈ xs, f x = none := by
  constructor
  · intro h
    by_contra hnone
    have hall : ∀ x ∈ xs, ∃ value, f x = some value := fun x hx =>
      Option.ne_none_iff_exists'.mp fun hx' => hnone ⟨x, hx, hx'⟩
    clear hnone
    induction xs with
    | nil => cases h
    | cons x xs ih =>
      obtain ⟨value, hvalue⟩ := hall x List.mem_cons_self
      rw [List.mapM_cons, hvalue] at h
      refine ih ?_ fun y hy => hall y (List.mem_cons_of_mem x hy)
      cases hrest : xs.mapM fun x => (f x).map fun value => (x, value) with
      | none => rfl
      | some rest =>
        rw [hrest] at h
        cases h
  · intro h
    obtain ⟨x, hx, hnone⟩ := h
    cases hpairs : xs.mapM fun x => (f x).map fun value => (x, value) with
    | none => rfl
    | some pairs =>
      obtain ⟨value, hvalue, -⟩ := mem_of_mapM hpairs hx
      rw [hnone] at hvalue
      cases hvalue

/-- Set the pairs in their order. -/
def setAll (m : OrderedMap κ ν) (pairs : List (κ × ν)) : OrderedMap κ ν :=
  pairs.foldl (fun m e => m.set e.1 e.2) m

/-- Pairs with new, distinct keys come after the entries that are there. -/
theorem entries_setAll_of_fresh {m : OrderedMap κ ν} {pairs : List (κ × ν)}
    (hnodup : (pairs.map Prod.fst).Nodup)
    (hfresh : ∀ k ∈ pairs.map Prod.fst, k ∉ m.entries.map Prod.fst) :
    (m.setAll pairs).entries = m.entries ++ pairs := by
  have hentries := entries_foldl_set Prod.fst Prod.snd pairs m hnodup
    fun e he => hfresh e.1 (List.mem_map_of_mem he)
  rw [setAll, hentries, List.map_id']

/-- What pairs with distinct keys leave of a map. -/
theorem mem_entries_setAll_iff {pairs : List (κ × ν)} (hnodup : (pairs.map Prod.fst).Nodup)
    {m : OrderedMap κ ν} {e : κ × ν} :
    e ∈ (m.setAll pairs).entries ↔
      e ∈ pairs ∨ e ∈ m.entries ∧ e.1 ∉ pairs.map Prod.fst := by
  induction pairs generalizing m with
  | nil => simp [setAll]
  | cons pair pairs ih =>
    rw [List.map_cons, List.nodup_cons] at hnodup
    show e ∈ ((m.set pair.1 pair.2).setAll pairs).entries ↔ _
    rw [ih hnodup.2, mem_entries_set_iff, List.mem_cons, List.map_cons, List.mem_cons, not_or]
    constructor
    · intro h
      rcases h with he | ⟨rfl | ⟨he, hne⟩, hnot⟩
      · exact Or.inl (Or.inr he)
      · exact Or.inl (Or.inl rfl)
      · exact Or.inr ⟨he, hne, hnot⟩
    · intro h
      rcases h with (rfl | he) | ⟨he, hne, hnot⟩
      · exact Or.inr ⟨Or.inl rfl, hnodup.1⟩
      · exact Or.inl he
      · exact Or.inr ⟨Or.inr ⟨he, hne⟩, hnot⟩

theorem nodup_keys_setAll {m : OrderedMap κ ν} (pairs : List (κ × ν))
    (h : (m.entries.map Prod.fst).Nodup) : ((m.setAll pairs).entries.map Prod.fst).Nodup :=
  nodup_keys_foldl_set Prod.fst Prod.snd pairs m h

omit [DecidableEq κ] in
/-- One entry alone passes a test. -/
theorem filter_entries_eq_singleton_iff {m : OrderedMap κ ν}
    (hnodup : (m.entries.map Prod.fst).Nodup) {p : κ × ν → Bool} {e : κ × ν} :
    m.entries.filter p = [e] ↔
      e ∈ m.entries ∧ p e = true ∧ ∀ e' ∈ m.entries, p e' = true → e' = e := by
  have hfiltered : (m.entries.filter p).Nodup := (List.Nodup.of_map _ hnodup).filter p
  constructor
  · intro h
    have hmem : ∀ e', (e' ∈ m.entries ∧ p e' = true) ↔ e' = e := fun e' => by
      rw [← List.mem_filter, h, List.mem_singleton]
    exact ⟨((hmem e).mpr rfl).1, ((hmem e).mpr rfl).2, fun e' he' hp => (hmem e').mp ⟨he', hp⟩⟩
  · intro h
    obtain ⟨he, hp, hall⟩ := h
    refine List.perm_singleton.mp ((List.perm_ext_iff_of_nodup hfiltered
      (List.nodup_singleton e)).mpr fun e' => ?_)
    rw [List.mem_filter, List.mem_singleton]
    constructor
    · exact fun h => hall e' h.1 h.2
    · rintro rfl
      exact ⟨he, hp⟩

/-! ## Some of the keys -/

/-- The entries whose keys are kept. -/
def filterKeys (p : κ → Bool) (m : OrderedMap κ ν) : OrderedMap κ ν :=
  ⟨m.entries.filter fun e => p e.1⟩

theorem filterKeys_set_of_pos {p : κ → Bool} {k : κ} (hk : p k = true) (m : OrderedMap κ ν)
    (v : ν) : (m.set k v).filterKeys p = (m.filterKeys p).set k v := by
  have hkeys : k ∈ (m.entries.filter fun e => p e.1).map Prod.fst ↔ k ∈ m.entries.map Prod.fst := by
    simp only [List.mem_map, List.mem_filter]
    constructor
    · rintro ⟨e, ⟨he, _⟩, rfl⟩
      exact ⟨e, he, rfl⟩
    · rintro ⟨e, he, rfl⟩
      exact ⟨e, ⟨he, hk⟩, rfl⟩
  unfold filterKeys set
  dsimp only
  by_cases hmem : k ∈ m.entries.map Prod.fst
  · rw [if_pos hmem, if_pos (hkeys.mpr hmem)]
    dsimp only
    rw [List.filter_map]
    congr 2
    refine List.filter_congr fun e _ => ?_
    by_cases he : e.1 = k
    · simp [he, hk]
    · simp [he]
  · rw [if_neg hmem, if_neg fun h => hmem (hkeys.mp h)]
    dsimp only
    rw [List.filter_append, List.filter_singleton]
    simp [hk]

theorem filterKeys_set_of_neg {p : κ → Bool} {k : κ} (hk : p k = false) (m : OrderedMap κ ν)
    (v : ν) : (m.set k v).filterKeys p = m.filterKeys p := by
  unfold filterKeys set
  split
  · dsimp only
    rw [List.filter_map]
    refine congrArg OrderedMap.mk ?_
    have hsame : (m.entries.filter ((fun e : κ × ν => p e.1) ∘
        fun e => if e.1 = k then (k, v) else e)) = m.entries.filter fun e => p e.1 := by
      refine List.filter_congr fun e _ => ?_
      by_cases he : e.1 = k
      · simp [he, hk]
      · simp [he]
    rw [hsame]
    refine (List.map_congr_left fun e he => ?_).trans (List.map_id' _)
    refine if_neg fun heq => ?_
    rw [List.mem_filter, heq, hk] at he
    exact absurd he.2 (by simp)
  · dsimp only
    rw [List.filter_append, List.filter_singleton]
    simp [hk]

/-- Leaving out keys while a map is filled. -/
theorem filterKeys_ofList {α : Type*} {p : κ → Bool} (key : α → κ) (value : α → ν) (xs : List α) :
    (ofList key value xs).filterKeys p = ofList key value (xs.filter fun x => p (key x)) := by
  induction xs using List.reverseRecOn with
  | nil => rfl
  | append_singleton xs x ih =>
    rw [List.filter_append, List.filter_singleton]
    unfold ofList at ih ⊢
    rw [List.foldl_append]
    show ((xs.foldl _ empty).set (key x) (value x)).filterKeys p = _
    cases hx : p (key x) with
    | true =>
      rw [filterKeys_set_of_pos hx, ih, cond_true, List.foldl_append]
      rfl
    | false => rw [filterKeys_set_of_neg hx, ih, cond_false, List.append_nil]

/-- Pairs that are all kept may be set later. -/
theorem filterKeys_setAll {p : κ → Bool} {pairs : List (κ × ν)} (h : ∀ e ∈ pairs, p e.1 = true)
    (m : OrderedMap κ ν) : (m.setAll pairs).filterKeys p = (m.filterKeys p).setAll pairs := by
  induction pairs generalizing m with
  | nil => rfl
  | cons e pairs ih =>
    show ((m.set e.1 e.2).setAll pairs).filterKeys p = ((m.filterKeys p).set e.1 e.2).setAll pairs
    rw [ih (fun e' he' => h e' (List.mem_cons_of_mem _ he')),
      filterKeys_set_of_pos (h e List.mem_cons_self)]

/-! ## Groups -/

section GroupBy

variable {α : Type*} (key : α → κ)

/-- Collect the elements under their keys. -/
def groupBy (xs : List α) : OrderedMap κ (List α) :=
  xs.foldl (fun m x => m.set (key x) ((m.get? (key x)).getD [] ++ [x])) empty

theorem groupBy_append_singleton (xs : List α) (x : α) :
    groupBy key (xs ++ [x]) =
      (groupBy key xs).set (key x) (((groupBy key xs).get? (key x)).getD [] ++ [x]) := by
  rw [groupBy, List.foldl_append]
  rfl

theorem nodup_keys_groupBy (xs : List α) : ((groupBy key xs).entries.map Prod.fst).Nodup := by
  induction xs using List.reverseRecOn with
  | nil => exact List.nodup_nil
  | append_singleton xs x ih =>
    rw [groupBy_append_singleton]
    exact nodup_keys_set _ _ ih

/-- The group under a key holds the elements with that key, in their order. -/
theorem mem_entries_groupBy_iff {xs : List α} {k : κ} {group : List α} :
    (k, group) ∈ (groupBy key xs).entries ↔
      k ∈ xs.map key ∧ group = xs.filter fun x => key x = k := by
  induction xs using List.reverseRecOn generalizing k group with
  | nil => simp [groupBy]
  | append_singleton xs x ih =>
    have hold : ((groupBy key xs).get? (key x)).getD [] = xs.filter fun y => key y = key x := by
      by_cases hmem : key x ∈ xs.map key
      · rw [get?_of_mem_entries (nodup_keys_groupBy key xs) (ih.mpr ⟨hmem, rfl⟩)]
        rfl
      · have hnone : (groupBy key xs).get? (key x) = none := by
          rw [get?, List.lookup_eq_none_iff]
          intro e he
          have hne : key x ≠ e.1 := fun heq => hmem (heq ▸ (ih.mp he).1)
          simpa using hne
        rw [hnone, eq_comm]
        refine List.filter_eq_nil_iff.mpr fun y hy heq => hmem ?_
        exact of_decide_eq_true heq ▸ List.mem_map_of_mem hy
    rw [groupBy_append_singleton, mem_entries_set_iff, ih, hold]
    by_cases hk : k = key x
    · subst hk
      simp
    · simp [hk, Ne.symm hk]

/-- The groups of distinct keys hold each element with one of the keys once. -/
theorem flatMap_filter_perm (xs : List α) {keys : List κ} (h : keys.Nodup) :
    (keys.flatMap fun k => xs.filter fun x => key x = k).Perm
      (xs.filter fun x => key x ∈ keys) := by
  induction keys with
  | nil => simp
  | cons k keys ih =>
    rw [List.nodup_cons] at h
    rw [List.flatMap_cons]
    refine ((ih h.2).append_left _).trans ?_
    have hsplit := List.filter_append_perm (fun x => decide (key x = k))
      (xs.filter fun x => key x ∈ k :: keys)
    rw [List.filter_filter, List.filter_filter] at hsplit
    refine List.Perm.trans (List.Perm.of_eq ?_) hsplit
    congr 1
    · refine List.filter_congr fun x _ => ?_
      by_cases hx : key x = k
      · simp [hx]
      · simp [hx]
    · refine List.filter_congr fun x _ => ?_
      by_cases hx : key x = k
      · simp [hx, h.1]
      · simp [hx]

end GroupBy

/-! ## Maps of the values -/

theorem get?_map {ν' : Type*} {m : OrderedMap κ ν} {m' : OrderedMap κ ν'} {f : ν → ν'}
    (h : m'.entries = m.entries.map fun e => (e.1, f e.2)) (k : κ) :
    m'.get? k = (m.get? k).map f := by
  rw [get?, h, get?]
  induction m.entries with
  | nil => rfl
  | cons e entries ih =>
    rw [List.map_cons, List.lookup_cons, List.lookup_cons, ih]
    cases k == e.1 <;> rfl

/-- The map with each value replaced by its image. -/
def mapValues {ν' : Type*} (f : ν → ν') (m : OrderedMap κ ν) : OrderedMap κ ν' :=
  ⟨m.entries.map fun e => (e.1, f e.2)⟩

@[simp] theorem get?_mapValues {ν' : Type*} (f : ν → ν') (m : OrderedMap κ ν) (k : κ) :
    (m.mapValues f).get? k = (m.get? k).map f := get?_map rfl k

theorem entries_set_map {ν' : Type*} {m : OrderedMap κ ν} {m' : OrderedMap κ ν'} {f : ν → ν'}
    (h : m'.entries = m.entries.map fun e => (e.1, f e.2)) (k : κ) (v : ν) :
    (m'.set k (f v)).entries = (m.set k v).entries.map fun e => (e.1, f e.2) := by
  have hkeys : m'.entries.map Prod.fst = m.entries.map Prod.fst := by
    rw [h, List.map_map]
    rfl
  unfold set
  rw [hkeys, h]
  split
  · dsimp only
    rw [List.map_map, List.map_map]
    refine List.map_congr_left fun e _ => ?_
    by_cases he : e.1 = k
    · simp [he]
    · simp [he]
  · dsimp only
    rw [List.map_append, List.map_singleton]

/-- A map of the elements that keeps their keys is a map of the groups. -/
theorem entries_groupBy_map {α : Type*} {key : α → κ} {f : α → α} (hf : ∀ x, key (f x) = key x)
    (xs : List α) : (groupBy key (xs.map f)).entries =
      (groupBy key xs).entries.map fun group => (group.1, group.2.map f) := by
  induction xs using List.reverseRecOn with
  | nil => rfl
  | append_singleton xs x ih =>
    have hgroup : ((groupBy key (xs.map f)).get? (key x)).getD [] ++ [f x] =
        (((groupBy key xs).get? (key x)).getD [] ++ [x]).map f := by
      rw [get?_map ih]
      cases (groupBy key xs).get? (key x) with
      | none => rfl
      | some group => simp
    rw [List.map_append, List.map_singleton, groupBy_append_singleton, groupBy_append_singleton,
      hf, hgroup]
    exact entries_set_map ih (key x) _

end OrderedMap
