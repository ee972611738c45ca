import Outboxy.Library.OrderedMap
import Outboxy.Library.Transition

/-!
# One request for each group

A call groups its elements by a key, makes one request for each group, and
merges what the requests lead to into one map.  All requests are made before
the first of them settles, and they settle in any order.

`SettledSoFar` is the state of the call after some requests have settled, and
`SettledSoFar.settle` the step that keeps it.  `exists_gather` is the result:
the call returns when each request has settled, its map has the keys of the
elements, and the value of an element comes from the request for its group.
-/

open Transition

/-- A call in progress: the groups whose requests have not settled, and the
results so far. -/
structure Fanout (κ α ι ν : Type*) where
  inFlight : List (κ × List α)
  results : OrderedMap ι ν

namespace Fanout

variable {κ α ι ν ω : Type*} [DecidableEq κ] [DecidableEq ι]

/-! ## Calls -/

section Calls

variable (key : α → κ) (resultsOf : List α → ω → OrderedMap ι ν)

/-- The call with all its requests made. -/
def start (xs : List α) : Fanout κ α ι ν where
  inFlight := (OrderedMap.groupBy key xs).entries
  results := .empty

/-- The request for a group settles. -/
def settle (s : Fanout κ α ι ν) (settled : κ × ω) : Option (Fanout κ α ι ν) :=
  (s.inFlight.lookup settled.1).map fun group =>
    { inFlight := s.inFlight.filter fun group => group.1 ≠ settled.1
      results := s.results.setAll (resultsOf group settled.2).entries }

/-- The call while its requests settle. -/
def calling (xs : List α) : System (Fanout κ α ι ν) (κ × ω) where
  init s := s = .start key xs
  step := settle resultsOf

/-- What the call returns when its requests have settled in this order. -/
def gather (xs : List α) (settled : List (κ × ω)) : Option (OrderedMap ι ν) :=
  ((calling key resultsOf xs).run (.start key xs) settled).bind fun s =>
    if s.inFlight.isEmpty then some s.results else none

/-- The request of each group settles once. -/
structure Settles (xs : List α) (settled : List (κ × ω)) : Prop where
  nodup : (settled.map Prod.fst).Nodup
  covers : ∀ k, k ∈ settled.map Prod.fst ↔ k ∈ xs.map key

/-- The elements of a group. -/
def groupOf (xs : List α) (k : κ) : List α := xs.filter fun x => key x = k

/-- A request leads to one result for each element of its group. -/
def KeyedBy (ident : α → ι) : Prop :=
  ∀ group outcome, (group.map ident).Nodup →
    (resultsOf group outcome).entries.map Prod.fst = group.map ident

/-- The map has the keys of the elements, and the value of an element is the
one that the request for its group leads to. -/
structure Gathered (ident : α → ι) (xs : List α) (settled : List (κ × ω))
    (results : OrderedMap ι ν) : Prop where
  keys : (results.entries.map Prod.fst).Perm (xs.map ident)
  get? : ∀ x ∈ xs, ∀ outcome, (key x, outcome) ∈ settled →
    results.get? (ident x) = (resultsOf (groupOf key xs (key x)) outcome).get? (ident x)

/-- A call whose requests have settled in this order so far. -/
structure SettledSoFar (xs : List α) (settled : List (κ × ω)) (s : Fanout κ α ι ν) :
    Prop where
  inFlight : s.inFlight =
    (OrderedMap.groupBy key xs).entries.filter fun group => group.1 ∉ settled.map Prod.fst
  results : s.results.entries =
    settled.flatMap fun a => (resultsOf (groupOf key xs a.1) a.2).entries

end Calls

/-! ## Groups -/

variable {key : α → κ} {ident : α → ι} {resultsOf : List α → ω → OrderedMap ι ν} {xs : List α}
  {settled : List (κ × ω)} {s : Fanout κ α ι ν}

omit [DecidableEq ι] in
theorem mem_groupOf_iff {x : α} {k : κ} : x ∈ groupOf key xs k ↔ x ∈ xs ∧ key x = k := by
  rw [groupOf, List.mem_filter, decide_eq_true_eq]

omit [DecidableEq ι] in
theorem nodup_groupOf (key : α → κ) (hids : (xs.map ident).Nodup) (k : κ) :
    ((groupOf key xs k).map ident).Nodup :=
  hids.sublist (List.filter_sublist.map _)

/-! ## Requests that settle -/

omit [DecidableEq ι] in
/-- The keys of the results are those of the groups that have settled. -/
theorem SettledSoFar.keys (h : SettledSoFar key resultsOf xs settled s)
    (hids : (xs.map ident).Nodup) (hkeys : KeyedBy resultsOf ident) :
    s.results.entries.map Prod.fst =
      ((settled.map Prod.fst).flatMap (groupOf key xs)).map ident := by
  rw [h.results, List.map_flatMap, List.map_flatMap, List.flatMap_map]
  refine List.flatMap_congr fun a _ => ?_
  exact hkeys _ _ (nodup_groupOf key hids a.1)

/-- A request that is in flight settles, and leaves the other results as they
are. -/
theorem SettledSoFar.settle (h : SettledSoFar key resultsOf xs settled s)
    (hids : (xs.map ident).Nodup) (hkeys : KeyedBy resultsOf ident)
    {a : κ × ω} (hkey : a.1 ∈ xs.map key) (hnew : a.1 ∉ settled.map Prod.fst) :
    ∃ t, s.settle resultsOf a = some t ∧ SettledSoFar key resultsOf xs (settled ++ [a]) t := by
  have hgroup : s.inFlight.lookup a.1 = some (groupOf key xs a.1) := by
    refine OrderedMap.get?_of_mem_entries (m := ⟨s.inFlight⟩) ?_ ?_
    · show (s.inFlight.map Prod.fst).Nodup
      rw [h.inFlight]
      exact (OrderedMap.nodup_keys_groupBy _ xs).sublist (List.filter_sublist.map _)
    · show (a.1, groupOf key xs a.1) ∈ s.inFlight
      rw [h.inFlight, List.mem_filter]
      exact ⟨(OrderedMap.mem_entries_groupBy_iff _).mpr ⟨hkey, rfl⟩, decide_eq_true hnew⟩
  refine ⟨_, by rw [Fanout.settle, hgroup]; rfl, ?_, ?_⟩
  · show s.inFlight.filter _ = _
    rw [h.inFlight, List.filter_filter]
    refine List.filter_congr fun group _ => ?_
    rw [Bool.eq_iff_iff, Bool.and_eq_true, decide_eq_true_eq, decide_eq_true_eq,
      decide_eq_true_eq, List.map_append, List.mem_append, List.map_singleton,
      List.mem_singleton, not_or]
    exact and_comm
  · show (s.results.setAll _).entries = _
    have hnodup := nodup_groupOf key hids a.1
    rw [OrderedMap.entries_setAll_of_fresh, h.results, List.flatMap_append, List.flatMap_singleton]
    · rw [hkeys _ _ hnodup]
      exact hnodup
    · intro k hk hold
      rw [hkeys _ _ hnodup, List.mem_map] at hk
      rw [h.keys hids hkeys, List.mem_map] at hold
      obtain ⟨x, hx, rfl⟩ := hk
      obtain ⟨found, hfound, hid⟩ := hold
      obtain ⟨k, hsettled, hfound⟩ := List.mem_flatMap.mp hfound
      obtain ⟨hmem, hkey⟩ := mem_groupOf_iff.mp hx
      obtain ⟨hmem', rfl⟩ := mem_groupOf_iff.mp hfound
      rw [List.inj_on_of_nodup_map hids hmem' hmem hid, hkey] at hsettled
      exact hnew hsettled

/-- Requests of different groups settle in any order. -/
theorem exists_run_settledSoFar (hids : (xs.map ident).Nodup) (hkeys : KeyedBy resultsOf ident)
    (hnodup : (settled.map Prod.fst).Nodup)
    (hgroups : ∀ k ∈ settled.map Prod.fst, k ∈ xs.map key) :
    ∃ s, (calling key resultsOf xs).run (.start key xs) settled = some s ∧
      SettledSoFar key resultsOf xs settled s := by
  induction settled using List.reverseRecOn with
  | nil =>
    refine ⟨_, rfl, ?_, rfl⟩
    exact (List.filter_eq_self.mpr fun _ _ => by simp).symm
  | append_singleton settled a ih =>
    rw [List.map_append, List.map_singleton] at hnodup hgroups
    obtain ⟨hnodup, -, hnew⟩ := List.nodup_append.mp hnodup
    obtain ⟨s, hrun, hs⟩ := ih hnodup fun k hk => hgroups k (List.mem_append_left _ hk)
    obtain ⟨t, hstep, ht⟩ := hs.settle hids hkeys
      (hgroups a.1 (List.mem_append_right _ (List.mem_singleton_self _)))
      fun hmem => hnew a.1 hmem a.1 (List.mem_singleton_self _) rfl
    refine ⟨t, System.run_append_eq_some _ hrun ?_, ht⟩
    rw [System.run_singleton]
    exact hstep

/-! ## The result of the call -/

/-- What is left when each request has settled. -/
theorem SettledSoFar.gathered (hs : SettledSoFar key resultsOf xs settled s)
    (hids : (xs.map ident).Nodup) (hkeys : KeyedBy resultsOf ident)
    (h : Settles key xs settled) : Gathered key resultsOf ident xs settled s.results := by
  have hperm : (s.results.entries.map Prod.fst).Perm (xs.map ident) := by
    have hgroups := OrderedMap.flatMap_filter_perm key xs h.nodup
    rw [List.filter_eq_self.mpr fun x hx => decide_eq_true
      ((h.covers (key x)).mpr (List.mem_map_of_mem hx))] at hgroups
    rw [hs.keys hids hkeys]
    exact hgroups.map ident
  refine ⟨hperm, fun x hx outcome hsettled => ?_⟩
  have hgroup := nodup_groupOf key hids (key x)
  have hentries := hkeys _ outcome hgroup
  have hmem : ident x ∈ (resultsOf (groupOf key xs (key x)) outcome).entries.map Prod.fst := by
    rw [hentries]
    exact List.mem_map_of_mem (mem_groupOf_iff.mpr ⟨hx, rfl⟩)
  obtain ⟨entry, hentry, hid⟩ := List.mem_map.mp hmem
  have hpair : (ident x, entry.2) ∈ (resultsOf (groupOf key xs (key x)) outcome).entries :=
    hid ▸ hentry
  rw [OrderedMap.get?_of_mem_entries (hentries.symm ▸ hgroup) hpair]
  refine OrderedMap.get?_of_mem_entries (hperm.nodup_iff.mpr hids) ?_
  rw [hs.results, List.mem_flatMap]
  exact ⟨_, hsettled, hpair⟩

/-- The call returns when each request has settled. -/
theorem exists_gather (hids : (xs.map ident).Nodup) (hkeys : KeyedBy resultsOf ident)
    (h : Settles key xs settled) :
    ∃ results, gather key resultsOf xs settled = some results ∧
      Gathered key resultsOf ident xs settled results := by
  obtain ⟨s, hrun, hs⟩ := exists_run_settledSoFar hids hkeys h.nodup fun k hk =>
    (h.covers k).mp hk
  have hdone : s.inFlight = [] := by
    rw [hs.inFlight, List.filter_eq_nil_iff]
    intro group hgroup hnot
    exact of_decide_eq_true hnot
      ((h.covers group.1).mpr ((OrderedMap.mem_entries_groupBy_iff _).mp hgroup).1)
  refine ⟨s.results, ?_, hs.gathered hids hkeys h⟩
  rw [gather, hrun]
  simp [hdone]

/-! ## Other elements -/

/-- Elements with the same keys and results make no difference to the call. -/
theorem gather_map {f : α → α} (hf : ∀ x, key (f x) = key x)
    (hresults : ∀ group outcome, resultsOf (group.map f) outcome = resultsOf group outcome)
    (xs : List α) (settled : List (κ × ω)) :
    gather key resultsOf (xs.map f) settled = gather key resultsOf xs settled := by
  let relabel (s : Fanout κ α ι ν) : Fanout κ α ι ν :=
    ⟨s.inFlight.map fun group => (group.1, group.2.map f), s.results⟩
  have hstep : ∀ s a, ((calling key resultsOf xs).step s a).map relabel =
      (calling key resultsOf (xs.map f)).step (relabel s) a := by
    intro s a
    have hlookup := OrderedMap.get?_map (m := ⟨s.inFlight⟩) (f := List.map f) rfl a.1
    show (s.settle resultsOf a).map relabel = (relabel s).settle resultsOf a
    unfold settle
    rw [Option.map_map]
    change (relabel s).inFlight.lookup a.1 = (s.inFlight.lookup a.1).map (List.map f) at hlookup
    rw [hlookup, Option.map_map]
    refine Option.map_congr fun group _ => ?_
    show Fanout.mk _ _ = Fanout.mk _ _
    rw [hresults, List.filter_map]
    rfl
  have hstart : relabel (start key xs) = start key (xs.map f) := by
    show Fanout.mk _ _ = Fanout.mk _ _
    rw [OrderedMap.entries_groupBy_map hf]
    rfl
  have hrun := (calling key resultsOf xs).run_map _ relabel hstep (start key xs) settled
  rw [hstart] at hrun
  rw [gather, ← hrun, gather, Option.bind_map]
  refine congrArg _ (funext fun s => ?_)
  show (if ((s.inFlight.map fun group => (group.1, group.2.map f)).isEmpty) = true
    then _ else _) = _
  rw [List.isEmpty_map]

end Fanout
