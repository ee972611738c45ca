import Mathlib.Data.List.Basic

/-!
# Reading a list at positions

A list that is put together of items, of pairs or of rows is read at computed
positions.  What is read there is what was put in.

* `map_getD_range`, `map_getD_range_pairs` and `map_getD_cells` for items,
  pairs and rows behind a first part.
* `flatten_cells` and `flatMap_pair_range`: the positions are all there, in
  order.
-/

namespace Positions

/-- The positions of the cells of a matrix, row by row. -/
def cells (columns rows : Nat) : List (List Nat) :=
  (List.range rows).map fun row => (List.range columns).map fun column => row * columns + column

theorem map_zipIdx_snd {α β : Type} (f : Nat → β) (items : List α) :
    items.zipIdx.map (fun item => f item.2) = (List.range items.length).map f := by
  rw [List.range_eq_range', ← List.zipIdx_map_snd 0 items, List.map_map]
  rfl

theorem length_flatMap_pair {α : Type} (pairs : List (α × α)) :
    (pairs.flatMap fun pair => [pair.1, pair.2]).length = 2 * pairs.length := by
  induction pairs with
  | nil => rfl
  | cons pair pairs ih =>
    rw [List.flatMap_cons, List.length_append, ih]
    show 2 + 2 * pairs.length = 2 * (pairs.length + 1)
    omega

theorem flatMap_pair_range (start n : Nat) :
    ((List.range n).flatMap fun i => [start + 2 * i, start + 2 * i + 1]) =
      List.range' start (2 * n) := by
  induction n with
  | zero => rfl
  | succ n ih =>
    rw [List.range_succ, List.flatMap_append, ih, Nat.mul_succ, ← List.range'_append_1]
    rfl

theorem length_flatten {α : Type} {columns : Nat} {rows : List (List α)}
    (h : ∀ row ∈ rows, row.length = columns) : rows.flatten.length = rows.length * columns := by
  induction rows with
  | nil => rw [List.length_nil, Nat.zero_mul]; rfl
  | cons row rows ih =>
    rw [List.flatten_cons, List.length_append, h row List.mem_cons_self,
      ih fun r hr => h r (List.mem_cons_of_mem row hr), List.length_cons, Nat.succ_mul,
      Nat.add_comm]

theorem flatten_cells (columns rows : Nat) :
    (cells columns rows).flatten = List.range (rows * columns) := by
  induction rows with
  | zero =>
    rw [Nat.zero_mul]
    rfl
  | succ rows ih =>
    unfold cells at ih ⊢
    rw [List.range_succ, List.map_append, List.flatten_append, ih, Nat.succ_mul, List.range_add]
    simp

/-- The values at the positions behind a part of a list. -/
theorem map_getD_range {α : Type} (front items back : List α) (default : α) :
    ((List.range items.length).map fun i =>
      (front ++ (items ++ back)).getD (front.length + i) default) = items := by
  refine List.ext_getElem (by simp) fun i hi hi' => ?_
  rw [List.getElem_map, List.getElem_range, List.getD_eq_getElem?_getD,
    List.getElem?_append_right (Nat.le_add_right _ _), Nat.add_sub_cancel_left,
    List.getElem?_append_left hi', List.getElem?_eq_getElem hi']
  rfl

/-- The same for rows. -/
theorem map_getD_cells {α : Type} {columns : Nat} {rows : List (List α)}
    (h : ∀ row ∈ rows, row.length = columns) (front : List α) (default : α) :
    ((cells columns rows.length).map (List.map fun i =>
      (front ++ rows.flatten).getD (front.length + i) default)) = rows := by
  induction rows generalizing front with
  | nil => rfl
  | cons row rows ih =>
    have hrow : row.length = columns := h row List.mem_cons_self
    have hrest := ih (fun r hr => h r (List.mem_cons_of_mem row hr)) (front ++ row)
    have hfirst := map_getD_range front row rows.flatten default
    rw [hrow] at hfirst
    unfold cells at hrest ⊢
    rw [List.length_cons, List.range_succ_eq_map, List.map_cons, List.map_cons, List.map_map,
      List.flatten_cons]
    refine congrArg₂ List.cons ?_ ?_
    · refine Eq.trans (List.map_congr_left fun column _ => ?_) hfirst
      rw [Function.comp_apply, Nat.zero_mul, Nat.zero_add]
    · simp only [List.map_map] at hrest ⊢
      refine Eq.trans (List.map_congr_left fun i _ => ?_) hrest
      rw [Function.comp_apply, Function.comp_apply, Function.comp_apply, List.map_map, List.map_map]
      refine List.map_congr_left fun column _ => ?_
      have hindex : front.length + ((i + 1) * columns + column) =
          (front ++ row).length + (i * columns + column) := by
        rw [List.length_append, hrow, Nat.succ_mul]
        omega
      rw [Function.comp_apply, Function.comp_apply, Nat.succ_eq_add_one, hindex, List.append_assoc]

/-- The same, two by two. -/
theorem map_getD_range_pairs {α : Type} (front : List α) (pairs : List (α × α)) (back : List α)
    (default : α) :
    ((List.range pairs.length).map fun i =>
      ((front ++ ((pairs.flatMap fun pair => [pair.1, pair.2]) ++ back)).getD
          (front.length + 2 * i) default,
        (front ++ ((pairs.flatMap fun pair => [pair.1, pair.2]) ++ back)).getD
          (front.length + 2 * i + 1) default)) = pairs := by
  induction pairs generalizing front with
  | nil => rfl
  | cons pair pairs ih =>
    have hrest := ih (front ++ [pair.1, pair.2])
    rw [List.length_cons, List.range_succ_eq_map, List.map_cons, List.map_map]
    have hlist : front ++ (((pair :: pairs).flatMap fun pair => [pair.1, pair.2]) ++ back) =
        front ++ [pair.1, pair.2] ++ ((pairs.flatMap fun pair => [pair.1, pair.2]) ++ back) := by
      simp
    rw [hlist]
    refine congrArg₂ List.cons ?_ ?_
    · simp [List.getD_eq_getElem?_getD]
    · refine Eq.trans (List.map_congr_left fun i _ => ?_) hrest
      have hindex : front.length + 2 * (i + 1) = (front ++ [pair.1, pair.2]).length + 2 * i := by
        rw [List.length_append, List.length_cons, List.length_singleton]
        omega
      rw [Function.comp_apply, hindex]

end Positions
