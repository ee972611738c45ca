import Mathlib.Data.List.Forall2

/-!
# Loops over slices of a list

`slices n xs` cuts `xs` into pieces of at most `n` elements, the loop
`for (i = 0; i < xs.length; i += n) xs.slice(i, i + n)`.

The loops run in `StateT σ (Except ε)`.  `run_mapM_append` puts two loops
that return one behind the other.  `slices_simulate` is the rule for a loop
that handles a whole piece at a time: if handling a piece corresponds to
handling its elements one by one, with results and states related, then so
does the loop over all pieces.

`inChunks` is a recursion that cuts a long list and calls itself with each
piece; `inChunks_eq` says that it is one level deep.
-/

universe u v w

namespace List

variable {α : Type u}

/-- The pieces of at most `n` elements, in order. -/
def slices (n : Nat) (hn : 0 < n) : List α → List (List α)
  | [] => []
  | x :: xs => (x :: xs).take n :: slices n hn ((x :: xs).drop n)
termination_by xs => xs.length
decreasing_by
  rw [length_drop, length_cons]
  omega

theorem sublist_of_mem_slices {n : Nat} {hn : 0 < n} {xs piece : List α}
    (h : piece ∈ slices n hn xs) : piece.Sublist xs := by
  induction xs using slices.induct n hn with
  | case1 =>
    rw [slices] at h
    exact absurd h not_mem_nil
  | case2 x xs ih =>
    rw [slices] at h
    rcases mem_cons.mp h with rfl | h
    · exact take_sublist _ _
    · exact (ih h).trans (drop_sublist _ _)

theorem ne_nil_of_mem_slices {n : Nat} {hn : 0 < n} {xs piece : List α}
    (h : piece ∈ slices n hn xs) : piece ≠ [] := by
  induction xs using slices.induct n hn with
  | case1 =>
    rw [slices] at h
    exact absurd h not_mem_nil
  | case2 x xs ih =>
    rw [slices] at h
    rcases mem_cons.mp h with rfl | h
    · rw [Ne, take_eq_nil_iff]
      simp [Nat.ne_of_gt hn]
    · exact ih h

/-- The pieces make up the list. -/
theorem flatten_slices {n : Nat} {hn : 0 < n} (xs : List α) : (slices n hn xs).flatten = xs := by
  induction xs using slices.induct n hn with
  | case1 =>
    rw [slices]
    rfl
  | case2 x xs ih => rw [slices, flatten_cons, ih, take_append_drop]

/-- What holds of all elements of the pieces holds of all elements. -/
theorem forall_mem_slices_iff (n : Nat) (hn : 0 < n) {xs : List α} {P : α → Prop} :
    (∀ piece ∈ slices n hn xs, ∀ x ∈ piece, P x) ↔ ∀ x ∈ xs, P x := by
  rw [← forall_mem_flatten, flatten_slices]

theorem eq_take_of_mem_head?_slices {n : Nat} {hn : 0 < n} {xs piece : List α}
    (h : piece ∈ (slices n hn xs).head?) : piece = xs.take n := by
  cases xs with
  | nil =>
    rw [slices] at h
    cases h
  | cons x xs =>
    rw [slices] at h
    exact (Option.some.inj h).symm

theorem length_le_of_mem_slices {n : Nat} {hn : 0 < n} {xs piece : List α}
    (h : piece ∈ slices n hn xs) : piece.length ≤ n := by
  induction xs using slices.induct n hn with
  | case1 =>
    rw [slices] at h
    exact absurd h not_mem_nil
  | case2 x xs ih =>
    rw [slices] at h
    rcases mem_cons.mp h with rfl | h
    · exact length_take_le _ _
    · exact ih h

/-! ## Lists side by side -/

/-- What holds of each pair is a matter of its second element. -/
theorem forall₂_iff_forall {β : Type v} {R P : α → β → Prop} {Q : β → Prop} {xs : List α}
    {ys : List β} (h : Forall₂ R xs ys)
    (hpair : ∀ x y, R x y → y ∈ ys → (P x y ↔ Q y)) : Forall₂ P xs ys ↔ ∀ y ∈ ys, Q y := by
  induction h with
  | nil => simp
  | cons hxy _ ih =>
    rw [forall₂_cons, forall_mem_cons, hpair _ _ hxy mem_cons_self,
      ih fun x y hR hy => hpair x y hR (mem_cons_of_mem _ hy)]

theorem exists_of_forall₂_of_mem {β : Type v} {R : α → β → Prop} {xs : List α} {ys : List β}
    (h : Forall₂ R xs ys) {x : α} (hx : x ∈ xs) : ∃ y ∈ ys, R x y := by
  induction h with
  | nil => exact absurd hx not_mem_nil
  | cons hxy _ ih =>
    rcases mem_cons.mp hx with rfl | hx
    · exact ⟨_, mem_cons_self, hxy⟩
    · obtain ⟨y, hy, hR⟩ := ih hx
      exact ⟨y, mem_cons_of_mem _ hy, hR⟩

/-! ## Loops that return -/

section Loop

variable {σ β : Type v} {ε : Type w}

theorem run_mapM_cons {f : α → StateT σ (Except ε) β} {x : α} {xs : List α} {s s₁ s₂ : σ} {b : β}
    {bs : List β} (hx : (f x).run s = .ok (b, s₁)) (hxs : (xs.mapM f).run s₁ = .ok (bs, s₂)) :
    ((x :: xs).mapM f).run s = .ok (b :: bs, s₂) := by
  rw [mapM_cons, StateT.run_bind, hx]
  show ((xs.mapM f >>= fun bs => pure (b :: bs)).run s₁) = _
  rw [StateT.run_bind, hxs]
  rfl

theorem run_mapM_append {f : α → StateT σ (Except ε) β} {xs ys : List α} {s s₁ s₂ : σ}
    {bs cs : List β} (hxs : (xs.mapM f).run s = .ok (bs, s₁))
    (hys : (ys.mapM f).run s₁ = .ok (cs, s₂)) :
    ((xs ++ ys).mapM f).run s = .ok (bs ++ cs, s₂) := by
  rw [mapM_append, StateT.run_bind, hxs]
  show ((ys.mapM f >>= fun cs => pure (bs ++ cs)).run s₁) = _
  rw [StateT.run_bind, hys]
  rfl

/-- A loop that returns has returned from its first element. -/
theorem run_mapM_cons_eq_ok {f : α → StateT σ (Except ε) β} {x : α} {xs : List α} {s s₂ : σ}
    {cs : List β} (h : ((x :: xs).mapM f).run s = .ok (cs, s₂)) :
    ∃ b s₁ bs, (f x).run s = .ok (b, s₁) ∧ (xs.mapM f).run s₁ = .ok (bs, s₂) ∧ cs = b :: bs := by
  rw [mapM_cons, StateT.run_bind] at h
  cases hx : (f x).run s with
  | error e =>
    rw [hx] at h
    exact absurd h (by simp [bind, Except.bind])
  | ok r =>
    rw [hx] at h
    change ((xs.mapM f >>= fun bs => pure (r.1 :: bs)).run r.2) = _ at h
    rw [StateT.run_bind] at h
    cases hxs : (xs.mapM f).run r.2 with
    | error e =>
      rw [hxs] at h
      exact absurd h (by simp [bind, Except.bind])
    | ok r' =>
      rw [hxs] at h
      obtain ⟨rfl, rfl⟩ := Prod.mk.inj (Except.ok.inj h)
      exact ⟨r.1, r.2, r'.1, rfl, hxs, rfl⟩

/-- Two loops with the same bodies. -/
theorem mapM_eq_of_forall₂ {m : Type v → Type w} [Monad m] [LawfulMonad m] {α' : Type u}
    {f : α → m β} {g : α' → m β} {xs : List α} {ys : List α'}
    (h : Forall₂ (fun x y => f x = g y) xs ys) : xs.mapM f = ys.mapM g := by
  induction h with
  | nil => rfl
  | cons hxy _ ih => rw [mapM_cons, mapM_cons, hxy, ih]

/-- A loop that returns has returned from every element. -/
theorem mapM_eq_ok_iff {f : α → Except ε β} {xs : List α} {ys : List β} :
    xs.mapM f = .ok ys ↔ Forall₂ (fun x y => f x = .ok y) xs ys := by
  constructor
  · intro h
    induction xs generalizing ys with
    | nil =>
      obtain rfl := Except.ok.inj h
      exact .nil
    | cons x xs ih =>
      rw [mapM_cons] at h
      cases hx : f x with
      | error e =>
        rw [hx] at h
        exact absurd h (by simp [bind, Except.bind])
      | ok y =>
        cases hxs : xs.mapM f with
        | error e =>
          rw [hx, hxs] at h
          exact absurd h (by simp [bind, Except.bind])
        | ok ys' =>
          rw [hx, hxs] at h
          obtain rfl := Except.ok.inj h
          exact .cons hx (ih hxs)
  · intro h
    induction h with
    | nil => rfl
    | cons hx _ ih =>
      rw [mapM_cons, hx, ih]
      rfl

/-- A loop that throws has thrown at one of its elements. -/
theorem exists_of_mapM_eq_error {f : α → Except ε β} {xs : List α} {e : ε}
    (h : xs.mapM f = .error e) : ∃ x ∈ xs, f x = .error e := by
  induction xs with
  | nil => exact absurd h (by simp [pure, Except.pure])
  | cons x xs ih =>
    rw [mapM_cons] at h
    cases hx : f x with
    | error e' =>
      rw [hx] at h
      obtain rfl := Except.error.inj h
      exact ⟨x, mem_cons_self, hx⟩
    | ok y =>
      cases hxs : xs.mapM f with
      | error e' =>
        rw [hx, hxs] at h
        obtain rfl := Except.error.inj h
        obtain ⟨x', hx', herror⟩ := ih hxs
        exact ⟨x', mem_cons_of_mem _ hx', herror⟩
      | ok ys =>
        rw [hx, hxs] at h
        exact absurd h (by simp [bind, Except.bind, pure, Except.pure])

end Loop

/-! ## A recursion over slices -/

section InChunks

variable {β : Type v} {m : Type v → Type w} [Monad m]

/-- `body` on a list of at most `n` elements.  A longer list is cut, and the
recursion goes on with each piece in turn. -/
def inChunks (n : Nat) (hn : 0 < n) (body : List α → m (List β)) (xs : List α) : m (List β) :=
  if _h : xs.length > n then do
    let results ← (xs.slices n hn).attach.mapM fun piece => inChunks n hn body piece.1
    return results.flatten
  else body xs
termination_by xs.length
decreasing_by exact Nat.lt_of_le_of_lt (length_le_of_mem_slices piece.2) _h

/-- The recursion is one level deep. -/
theorem inChunks_eq [LawfulMonad m] {n : Nat} {hn : 0 < n} (body : List α → m (List β))
    (xs : List α) :
    inChunks n hn body xs =
      if xs.length > n then do
        let results ← (xs.slices n hn).mapM body
        return results.flatten
      else body xs := by
  have hpiece : ∀ piece : List α, piece.length ≤ n → inChunks n hn body piece = body piece := by
    intro piece hle
    rw [inChunks, dif_neg (Nat.not_lt.mpr hle)]
  have hloop : (xs.slices n hn).attach.mapM (fun piece => inChunks n hn body piece.1) =
      (xs.slices n hn).mapM body := by
    have hsame : Forall₂
        (fun piece piece' => inChunks n hn body (Subtype.val piece) = body piece')
        (xs.slices n hn).attach ((xs.slices n hn).attach.map Subtype.val) := by
      rw [forall₂_map_right_iff, forall₂_same]
      exact fun piece _ => hpiece piece.1 (length_le_of_mem_slices piece.2)
    rw [attach_map_subtype_val] at hsame
    exact mapM_eq_of_forall₂ hsame
  rw [inChunks]
  split
  · rw [hloop]
  · rfl

end InChunks

/-! ## Loops over pieces -/

section Simulation

variable {σ τ β γ : Type v} {ε : Type w}

/-- `R rest s t` relates the two states when `rest` is still to be handled,
and `Q` relates the results. -/
theorem slices_simulate {n : Nat} {hn : 0 < n} {R : List α → σ → τ → Prop} {Q : β → γ → Prop}
    {g : List α → StateT σ (Except ε) (List β)} {f : α → StateT τ (Except ε) γ}
    (hpiece : ∀ piece rest s t, piece ≠ [] → R (piece ++ rest) s t →
      ∃ bs s' cs t', (g piece).run s = .ok (bs, s') ∧ (piece.mapM f).run t = .ok (cs, t') ∧
        Forall₂ Q bs cs ∧ R rest s' t')
    {xs : List α} {s : σ} {t : τ} (h : R xs s t) :
    ∃ bss s' cs t', ((slices n hn xs).mapM g).run s = .ok (bss, s') ∧
      (xs.mapM f).run t = .ok (cs, t') ∧ Forall₂ Q bss.flatten cs ∧ R [] s' t' := by
  induction xs using slices.induct n hn generalizing s t with
  | case1 =>
    rw [slices]
    exact ⟨[], s, [], t, rfl, rfl, .nil, h⟩
  | case2 x xs ih =>
    rw [← take_append_drop n (x :: xs)] at h
    have hne : (x :: xs).take n ≠ [] := by
      rw [Ne, take_eq_nil_iff]
      simp [Nat.ne_of_gt hn]
    obtain ⟨bs, s₁, cs, t₁, hg, hf, hQ, hR⟩ := hpiece _ _ s t hne h
    obtain ⟨bss, s₂, cs', t₂, hgs, hfs, hQs, hR'⟩ := ih hR
    refine ⟨bs :: bss, s₂, cs ++ cs', t₂, ?_, ?_, rel_append hQ hQs, hR'⟩
    · rw [slices]
      exact run_mapM_cons hg hgs
    · have happend := run_mapM_append hf hfs
      rwa [take_append_drop] at happend

end Simulation

end List
