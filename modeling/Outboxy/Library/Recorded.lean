import Outboxy.Library.Session

/-!
# Computations that record their statements

A client that executes statements one at a time may fail, and what it executed
before it failed has been executed.  `record` runs a statement against an
executor and keeps it in the state, also when the executor fails.

* `ensures_record` is the rule of `Ensures` for it.
* `Erases` relates a recording computation to the one that keeps no record and
  whose failure has no state.  Its rules follow the program.
-/

namespace Session

variable {ε σ α β ι : Type}

/-- A state with the statements that were executed. -/
structure Recorded (σ ι : Type) where
  state : σ
  statements : List ι

/-- Execute a statement and record it. -/
def record (execute : ι → StateT σ (Except ε) α) (statement : ι) :
    EStateM ε (Recorded σ ι) α := fun s =>
  match (execute statement).run s.state with
  | .ok result => .ok result.1 ⟨result.2, s.statements ++ [statement]⟩
  | .error e => .error e ⟨s.state, s.statements ++ [statement]⟩

theorem ensures_record {execute : ι → StateT σ (Except ε) α} {statement : ι} {s : Recorded σ ι}
    {Q : α → Recorded σ ι → Prop} {E : ε → Recorded σ ι → Prop}
    (hok : ∀ a state, (execute statement).run s.state = .ok (a, state) →
      Q a ⟨state, s.statements ++ [statement]⟩)
    (herror : ∀ e, (execute statement).run s.state = .error e →
      E e ⟨s.state, s.statements ++ [statement]⟩) :
    Ensures (record execute statement) s Q E := by
  cases hrun : (execute statement).run s.state with
  | ok result =>
    have hres : (record execute statement).run s =
        .ok result.1 ⟨result.2, s.statements ++ [statement]⟩ := by
      show record execute statement s = _
      rw [record, hrun]
    exact ensures_ok hres (hok _ _ hrun)
  | error e =>
    have hres : (record execute statement).run s =
        .error e ⟨s.state, s.statements ++ [statement]⟩ := by
      show record execute statement s = _
      rw [record, hrun]
    exact ensures_error hres (herror e hrun)

/-! ## Without the record -/

/-- Without its record, `x` is `m`. -/
def Erases (x : EStateM ε (Recorded σ ι) α) (m : StateT σ (Except ε) α) : Prop :=
  ∀ s, Ensures x s (fun a s' => m.run s.state = .ok (a, s'.state))
    (fun e _ => m.run s.state = .error e)

theorem erases_pure (a : α) : Erases (pure a : EStateM ε (Recorded σ ι) α) (pure a) :=
  fun _ => ensures_pure rfl

theorem erases_ofExcept (x : Except ε α) :
    Erases (ofExcept x : EStateM ε (Recorded σ ι) α) (liftM x) := by
  intro s
  apply ensures_ofExcept
  · rintro a rfl
    rfl
  · rintro e rfl
    rfl

theorem erases_record (execute : ι → StateT σ (Except ε) α) (statement : ι) :
    Erases (record execute statement) (execute statement) :=
  fun _ => ensures_record (fun _ _ hrun => hrun) (fun _ hrun => hrun)

theorem erases_bind {x : EStateM ε (Recorded σ ι) α} {m : StateT σ (Except ε) α}
    {f : α → EStateM ε (Recorded σ ι) β} {g : α → StateT σ (Except ε) β} (hx : Erases x m)
    (hf : ∀ a, Erases (f a) (g a)) : Erases (x >>= f) (m >>= g) := by
  intro s
  apply ensures_bind
  refine (hx s).mono (fun a s' hm => ?_) (fun e s' hm => ?_)
  · have hrun : (m >>= g).run s.state = (g a).run s'.state := by
      rw [StateT.run_bind, hm]
      rfl
    exact (hf a s').mono (fun _ _ h => hrun.trans h) (fun _ _ h => hrun.trans h)
  · rw [StateT.run_bind, hm]
    rfl

theorem erases_mapM {body : ι → EStateM ε (Recorded σ α) β} {body' : ι → StateT σ (Except ε) β}
    (h : ∀ i, Erases (body i) (body' i)) (items : List ι) :
    Erases (items.mapM body) (items.mapM body') := by
  induction items with
  | nil => exact erases_pure []
  | cons i rest ih =>
    rw [List.mapM_cons, List.mapM_cons]
    exact erases_bind (h i) fun b => erases_bind ih fun bs => erases_pure (b :: bs)

theorem erases_ite {c : Prop} [Decidable c] {x y : EStateM ε (Recorded σ ι) α}
    {m n : StateT σ (Except ε) α} (hx : Erases x m) (hy : Erases y n) :
    Erases (if c then x else y) (if c then m else n) := by
  split
  · exact hx
  · exact hy

end Session
