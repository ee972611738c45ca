import Mathlib.Data.List.Basic
import Mathlib.Logic.Function.Basic

/-!
# Runs of a partial step function

A `System` is a set of initial states and a partial step function.  An
action that is not enabled in a state has no successor there.  The step
function is executable, so a concrete run is evaluated by `System.run`.

There are four groups.

* Runs.  `System.run` performs a list of actions, and `run_append` cuts a
  run in two.
* Reachability.  `System.ReachableBy allowed` is reachability by steps that
  `allowed` admits, and `ReachableBy.induct` is the rule that carries an
  invariant to every such state.
* Properties of one run.  `TakesStep` names the steps of a run and `Visits` its
  states.  `ReachableBy.forall_visits_iff` tells the runs with a property by
  their steps, and `staysAlong_iff` reduces "once `P`, always `P`" to them.
  `run_add_le` adds up what the steps pay for.
* Continuations.  `LeadsTo` says that some actions of a kind lead from one
  state to another.

The end has lemmas for the fields of a state that are maps, such as one from
the numbers of the calls to what each call awaits.
-/

namespace Transition

/-- Initial states and a partial step function. -/
structure System (σ α : Type*) where
  init : σ → Prop
  step : σ → α → Option σ

namespace System

variable {σ α : Type*} (sys : System σ α)

/-! ## Runs -/

/-- Perform the actions in order.  The result is `none` as soon as one of
them is not enabled. -/
def run : σ → List α → Option σ
  | s, [] => some s
  | s, a :: as => (sys.step s a).bind fun t => run t as

@[simp] theorem run_nil (s : σ) : sys.run s [] = some s := rfl

theorem run_cons (s : σ) (a : α) (as : List α) :
    sys.run s (a :: as) = (sys.step s a).bind fun t => sys.run t as := rfl

@[simp] theorem run_singleton (s : σ) (a : α) : sys.run s [a] = sys.step s a :=
  Option.bind_fun_some _

/-- A run of `as ++ bs` is a run of `as` and then one of `bs`. -/
theorem run_append (s : σ) (as bs : List α) :
    sys.run s (as ++ bs) = (sys.run s as).bind fun t => sys.run t bs := by
  induction as generalizing s with
  | nil => rfl
  | cons a as ih =>
    rw [List.cons_append, run_cons, run_cons]
    cases hstep : sys.step s a with
    | none => rfl
    | some t => exact ih t

theorem run_append_eq_some {s t u : σ} {as bs : List α}
    (has : sys.run s as = some t) (hbs : sys.run t bs = some u) :
    sys.run s (as ++ bs) = some u := by
  rw [run_append, has]
  exact hbs

theorem run_cons_eq_some {s t u : σ} {a : α} {as : List α} (hstep : sys.step s a = some t)
    (hrun : sys.run t as = some u) : sys.run s (a :: as) = some u := by
  rw [run_cons, hstep]
  exact hrun

/-- A map of the states that the steps respect carries runs along. -/
theorem run_map {τ : Type*} (other : System τ α) (f : σ → τ)
    (hstep : ∀ s a, (sys.step s a).map f = other.step (f s) a) (s : σ) (as : List α) :
    (sys.run s as).map f = other.run (f s) as := by
  induction as generalizing s with
  | nil => rfl
  | cons a as ih =>
    rw [run_cons, run_cons, ← hstep]
    cases sys.step s a with
    | none => rfl
    | some t => exact ih t

/-! ## Reachability -/

/-- States that steps admitted by `allowed` reach from an initial state. -/
inductive ReachableBy (allowed : σ → α → Prop) : σ → Prop
  | init {s : σ} (hinit : sys.init s) : ReachableBy allowed s
  | step {s s' : σ} {a : α} (hs : ReachableBy allowed s) (hallowed : allowed s a)
      (hstep : sys.step s a = some s') : ReachableBy allowed s'

/-- States that any steps reach from an initial state. -/
abbrev Reachable : σ → Prop := sys.ReachableBy fun _ _ => True

variable {sys}

/-- What holds initially and is kept by every admitted step holds in every
state those steps reach.  The step may use that its source is reachable, so
an invariant can rest on the ones proved before it. -/
theorem ReachableBy.induct {allowed : σ → α → Prop} {P : σ → Prop}
    (hinit : ∀ s, sys.init s → P s)
    (hstep : ∀ s a s', sys.ReachableBy allowed s → P s → allowed s a →
      sys.step s a = some s' → P s')
    {s : σ} (hs : sys.ReachableBy allowed s) : P s := by
  induction hs with
  | init h => exact hinit _ h
  | step hs hallowed hstep' ih => exact hstep _ _ _ hs ih hallowed hstep'

theorem ReachableBy.mono {allowed allowed' : σ → α → Prop}
    (himp : ∀ s a, allowed s a → allowed' s a) {s : σ}
    (hs : sys.ReachableBy allowed s) : sys.ReachableBy allowed' s := by
  induction hs with
  | init h => exact .init h
  | step _ hallowed hstep ih => exact .step ih (himp _ _ hallowed) hstep

/-- Restricted reachability is reachability. -/
theorem ReachableBy.reachable {allowed : σ → α → Prop} {s : σ}
    (hs : sys.ReachableBy allowed s) : sys.Reachable s :=
  hs.mono fun _ _ _ => trivial

/-! ## The steps of one run -/

variable (sys)

/-- The run of `as` from `s` does `a` in `t` and moves on to `t'`. -/
def TakesStep (s : σ) (as : List α) (t : σ) (a : α) (t' : σ) : Prop :=
  ∃ pre post, as = pre ++ a :: post ∧ sys.run s pre = some t ∧
    sys.step t a = some t'

/-- The run of `as` from `s` passes through `t`. -/
def Visits (s : σ) (as : List α) (t : σ) : Prop :=
  ∃ pre post, as = pre ++ post ∧ sys.run s pre = some t

/-- Along the run of `as` from `s`, a state with `P` is followed only by
states with `P`. -/
def StaysAlong (P : σ → Prop) (s : σ) (as : List α) : Prop :=
  ∀ pre mid post t t', as = pre ++ mid ++ post → sys.run s pre = some t →
    sys.run t mid = some t' → P t → P t'

/-- The last step of a run that was evaluated. -/
theorem exists_takesStep_of_any (s : σ) (as : List α) (a : α) (p : σ → σ → Bool)
    (h : ((sys.run s as).any fun t => (sys.step t a).any (p t)) = true) :
    ∃ t t', sys.TakesStep s (as ++ [a]) t a t' ∧ p t t' = true := by
  obtain ⟨t, hrun, ht⟩ := (Option.any_eq_true _ _).mp h
  obtain ⟨t', hstep, hp⟩ := (Option.any_eq_true _ _).mp ht
  exact ⟨t, t', ⟨as, [], rfl, hrun, hstep⟩, hp⟩

variable {sys}

theorem TakesStep.cons {s t t' u : σ} {a b : α} {as : List α}
    (hstep : sys.step s a = some t) (h : sys.TakesStep t as t' b u) :
    sys.TakesStep s (a :: as) t' b u := by
  obtain ⟨pre, post, rfl, hrun, hb⟩ := h
  refine ⟨a :: pre, post, rfl, ?_, hb⟩
  rw [run_cons, hstep]
  exact hrun

theorem TakesStep.head {s t : σ} {a : α} {as : List α}
    (hstep : sys.step s a = some t) : sys.TakesStep s (a :: as) s a t :=
  ⟨[], as, rfl, rfl, hstep⟩

theorem TakesStep.step_eq {s t t' : σ} {a : α} {as : List α} (h : sys.TakesStep s as t a t') :
    sys.step t a = some t' := by
  obtain ⟨_, _, _, _, hstep⟩ := h
  exact hstep

/-- A step of a run is its first one or a step of the rest. -/
theorem takesStep_cons {s t u : σ} {a b : α} {as : List α} (h : sys.TakesStep s (a :: as) t b u) :
    (t = s ∧ b = a) ∨ ∃ s', sys.step s a = some s' ∧ sys.TakesStep s' as t b u := by
  obtain ⟨pre, post, heq, hrun, hstep⟩ := h
  cases pre with
  | nil =>
    obtain ⟨rfl, rfl⟩ := List.cons.inj heq
    exact Or.inl ⟨(Option.some.inj hrun).symm, rfl⟩
  | cons c pre =>
    obtain ⟨rfl, rfl⟩ := List.cons.inj heq
    rw [run_cons] at hrun
    obtain ⟨s', hs', hrun⟩ := Option.bind_eq_some_iff.mp hrun
    exact Or.inr ⟨s', hs', pre, post, rfl, hrun, hstep⟩

/-- What does not hold at the start of a run and holds at its end is
established by one of its steps. -/
theorem exists_step_establishing {Q : σ → Prop} {s t : σ} {as : List α}
    (hrun : sys.run s as = some t) (hs : ¬ Q s) (ht : Q t) :
    ∃ pre a post u u', as = pre ++ a :: post ∧ sys.run s pre = some u ∧
      sys.step u a = some u' ∧ ¬ Q u ∧ Q u' ∧ sys.run u' post = some t := by
  induction as generalizing s with
  | nil =>
    obtain rfl : s = t := Option.some.inj hrun
    exact absurd ht hs
  | cons a as ih =>
    rw [run_cons] at hrun
    obtain ⟨s', hs', hrun⟩ := Option.bind_eq_some_iff.mp hrun
    by_cases hQ : Q s'
    · exact ⟨[], a, as, s, s', rfl, rfl, hs', hs, hQ, hrun⟩
    · obtain ⟨pre, b, post, u, u', rfl, hpre, hrest⟩ := ih hrun hQ
      refine ⟨a :: pre, b, post, u, u', rfl, ?_, hrest⟩
      rw [run_cons, hs']
      exact hpre

variable (sys) in
/-- Evaluate `p` at all steps of a run. -/
def checkSteps (p : σ → α → Bool) : σ → List α → Bool
  | _, [] => true
  | s, a :: as => p s a && (sys.step s a).all fun t => checkSteps p t as

theorem of_checkSteps {p : σ → α → Bool} {s t t' : σ} {a : α} {as : List α}
    (hcheck : sys.checkSteps p s as = true) (h : sys.TakesStep s as t a t') : p t a = true := by
  induction as generalizing s with
  | nil =>
    obtain ⟨pre, post, heq, _⟩ := h
    simp at heq
  | cons b as ih =>
    rw [checkSteps, Bool.and_eq_true] at hcheck
    rcases takesStep_cons h with ⟨rfl, rfl⟩ | ⟨u, hstep, h⟩
    · exact hcheck.1
    · rw [hstep] at hcheck
      exact ih hcheck.2 h

/-- The source of a step of the run is visited by the run. -/
theorem TakesStep.visits {s t t' : σ} {a : α} {as : List α}
    (h : sys.TakesStep s as t a t') : sys.Visits s as t := by
  obtain ⟨pre, post, rfl, hrun, _⟩ := h
  exact ⟨pre, a :: post, rfl, hrun⟩

/-- If every step of a run from a reachable state is admitted, then the run
only visits states that admitted steps reach. -/
theorem ReachableBy.visits {allowed : σ → α → Prop} {s t : σ} {as : List α}
    (hs : sys.ReachableBy allowed s)
    (hall : ∀ u a u', sys.TakesStep s as u a u' → allowed u a)
    (ht : sys.Visits s as t) : sys.ReachableBy allowed t := by
  obtain ⟨pre, post, rfl, hrun⟩ := ht
  induction pre generalizing s with
  | nil =>
    obtain rfl : s = t := by simpa using hrun
    exact hs
  | cons a pre ih =>
    rw [run_cons] at hrun
    obtain ⟨u, hstep, hrun'⟩ := Option.bind_eq_some_iff.mp hrun
    have hu : sys.ReachableBy allowed u :=
      .step hs (hall _ _ _ (TakesStep.head hstep)) hstep
    exact ih hu hrun' (fun v b v' hv => hall v b v' (TakesStep.cons hstep hv))

/-- A run of admitted actions ends in a state that admitted steps reach. -/
theorem ReachableBy.run {allowed : σ → α → Prop} {s t : σ} {as : List α}
    (hs : sys.ReachableBy allowed s) (hall : ∀ u, ∀ a ∈ as, allowed u a)
    (hrun : sys.run s as = some t) : sys.ReachableBy allowed t := by
  refine hs.visits (fun u a u' hstep => hall u a ?_) ⟨as, [], (List.append_nil as).symm, hrun⟩
  obtain ⟨pre, post, rfl, _⟩ := hstep
  simp

/-- Every state that a run visits is reachable. -/
theorem Reachable.visits {s t : σ} {as : List α} (hs : sys.Reachable s)
    (ht : sys.Visits s as t) : sys.Reachable t :=
  ReachableBy.visits hs (fun _ _ _ _ => trivial) ht

/-- The source of a step of a run from a reachable state is reachable. -/
theorem Reachable.takesStep {s t t' : σ} {a : α} {as : List α} (hs : sys.Reachable s)
    (h : sys.TakesStep s as t a t') : sys.Reachable t :=
  Reachable.visits hs h.visits

/-- The end of a run from a reachable state is reachable. -/
theorem Reachable.run {s t : σ} {as : List α} (hs : sys.Reachable s)
    (hrun : sys.run s as = some t) : sys.Reachable t :=
  Reachable.visits hs ⟨as, [], (List.append_nil as).symm, hrun⟩

theorem Visits.cons {s t u : σ} {a : α} {as : List α}
    (hstep : sys.step s a = some t) (h : sys.Visits t as u) : sys.Visits s (a :: as) u := by
  obtain ⟨pre, post, rfl, hrun⟩ := h
  refine ⟨a :: pre, post, rfl, ?_⟩
  rw [run_cons, hstep]
  exact hrun

theorem Visits.head (s : σ) (as : List α) : sys.Visits s as s :=
  ⟨[], as, rfl, rfl⟩

/-- Suppose that admitted steps only reach states with `P`, and that every
other step from such a state ends in one without.  Then a run visits only
states with `P` just when all its steps are admitted.  Both need only be known
of the steps that are `given`, when all those of the run are. -/
theorem ReachableBy.forall_visits_iff {given allowed : σ → α → Prop} {P : σ → Prop}
    (hgood : ∀ t, sys.ReachableBy (fun s a => given s a ∧ allowed s a) t → P t)
    (hbad : ∀ t a t', sys.ReachableBy (fun s a => given s a ∧ allowed s a) t →
      sys.step t a = some t' → given t a → ¬ allowed t a → ¬ P t')
    {s : σ} {as : List α} (hs : sys.ReachableBy (fun s a => given s a ∧ allowed s a) s)
    (hgiven : ∀ t a t', sys.TakesStep s as t a t' → given t a) :
    (∀ t, sys.Visits s as t → P t) ↔ ∀ t a t', sys.TakesStep s as t a t' → allowed t a := by
  constructor
  · intro hP
    induction as generalizing s with
    | nil =>
      intro t a t' htakes
      obtain ⟨pre, post, heq, _⟩ := htakes
      simp at heq
    | cons b as ih =>
      intro t a t' htakes
      have hfirst : ∀ u, sys.step s b = some u → given s b ∧ allowed s b := by
        intro u hstep
        have hb : given s b := hgiven s b u (TakesStep.head hstep)
        refine ⟨hb, ?_⟩
        by_contra hnot
        exact hbad s b u hs hstep hb hnot (hP u (Visits.cons hstep (Visits.head u as)))
      rcases takesStep_cons htakes with ⟨rfl, rfl⟩ | ⟨u, hstep, htakes'⟩
      · exact (hfirst t' htakes.step_eq).2
      · exact ih (.step hs (hfirst u hstep) hstep)
          (fun v c v' hv => hgiven v c v' (TakesStep.cons hstep hv))
          (fun v hv => hP v (Visits.cons hstep hv)) t a t' htakes'
  · intro hall t ht
    exact hgood t (hs.visits (fun u a u' hu => ⟨hgiven u a u' hu, hall u a u' hu⟩) ht)

/-- A run keeps `P` if each of its steps does. -/
theorem run_keeps {P : σ → Prop} {s t : σ} {as : List α}
    (hkeep : ∀ u a u', sys.TakesStep s as u a u' → P u → P u')
    (hrun : sys.run s as = some t) (hs : P s) : P t := by
  induction as generalizing s with
  | nil =>
    obtain rfl : s = t := by simpa using hrun
    exact hs
  | cons a as ih =>
    rw [run_cons] at hrun
    obtain ⟨u, hstep, hrun'⟩ := Option.bind_eq_some_iff.mp hrun
    exact ih (fun v b v' hv => hkeep v b v' (TakesStep.cons hstep hv)) hrun'
      (hkeep _ _ _ (TakesStep.head hstep) hs)

/-- What each step pays for, a run pays for: `f` grows by no more than `g`. -/
theorem run_add_le {f g : σ → Nat} {s t : σ} {as : List α}
    (hstep : ∀ u a u', sys.TakesStep s as u a u' → f u' + g u ≤ f u + g u')
    (hrun : sys.run s as = some t) : f t + g s ≤ f s + g t := by
  refine run_keeps (P := fun u => f u + g s ≤ f s + g u) (fun u a u' htakes hu => ?_) hrun
    (Nat.le_refl _)
  have hpays := hstep u a u' htakes
  omega

/-- A run adds to `P` what its steps add, if they take nothing away. -/
theorem run_adds_iff {P : σ → Prop} {Q : σ → α → Prop} {s t : σ} {as : List α}
    (hadds : ∀ u a u', sys.TakesStep s as u a u' → (P u' ↔ P u ∨ Q u a))
    (hrun : sys.run s as = some t) :
    P t ↔ P s ∨ ∃ u a u', sys.TakesStep s as u a u' ∧ Q u a := by
  induction as generalizing s with
  | nil =>
    obtain rfl : s = t := by simpa using hrun
    refine (or_iff_left ?_).symm
    rintro ⟨u, a, u', ⟨pre, post, heq, _⟩, _⟩
    simp at heq
  | cons a as ih =>
    rw [run_cons] at hrun
    obtain ⟨u, hstep, hrun'⟩ := Option.bind_eq_some_iff.mp hrun
    rw [ih (fun v b v' hv => hadds v b v' (TakesStep.cons hstep hv)) hrun',
      hadds s a u (TakesStep.head hstep), or_assoc]
    refine or_congr_right ⟨?_, ?_⟩
    · rintro (hfirst | ⟨v, b, v', hv, hlater⟩)
      · exact ⟨s, a, u, TakesStep.head hstep, hfirst⟩
      · exact ⟨v, b, v', TakesStep.cons hstep hv, hlater⟩
    · rintro ⟨v, b, v', hv, hadded⟩
      rcases takesStep_cons hv with ⟨rfl, rfl⟩ | ⟨w, hw, hv'⟩
      · exact .inl hadded
      · obtain rfl := Option.some.inj (hstep.symm.trans hw)
        exact .inr ⟨v, b, v', hv', hadded⟩

/-- "Once `P`, always `P`" along a run is a property of its steps. -/
theorem staysAlong_iff {P : σ → Prop} {s : σ} {as : List α} :
    sys.StaysAlong P s as ↔
      ∀ t a t', sys.TakesStep s as t a t' → P t → P t' := by
  constructor
  · intro hstays t a t' htakes ht
    obtain ⟨pre, post, rfl, hrun, hstep⟩ := htakes
    refine hstays pre [a] post t t' (by simp) hrun ?_ ht
    rw [run_cons, hstep]
    rfl
  · intro hsteps pre mid post t t' heq hrun hmid ht
    subst heq
    refine run_keeps (fun u a u' hu => hsteps u a u' ?_) hmid ht
    obtain ⟨mpre, mpost, rfl, hu, hstep⟩ := hu
    exact ⟨pre ++ mpre, mpost ++ post, by simp, run_append_eq_some sys hrun hu, hstep⟩

/-! ## Continuations -/

variable (sys) in
/-- Some actions that `allowed` admits lead from `s` to `t`. -/
def LeadsTo (allowed : α → Prop) (s t : σ) : Prop :=
  ∃ as, sys.run s as = some t ∧ ∀ a ∈ as, allowed a

namespace LeadsTo

variable {allowed : α → Prop} {s t u : σ}

theorem refl (s : σ) : sys.LeadsTo allowed s s := ⟨[], rfl, by simp⟩

theorem step {a : α} (hstep : sys.step s a = some t) (ha : allowed a) :
    sys.LeadsTo allowed s t :=
  ⟨[a], by rwa [run_singleton], by simpa using ha⟩

theorem trans (hst : sys.LeadsTo allowed s t) (htu : sys.LeadsTo allowed t u) :
    sys.LeadsTo allowed s u := by
  obtain ⟨as, has, hallowed⟩ := hst
  obtain ⟨bs, hbs, hallowed'⟩ := htu
  refine ⟨as ++ bs, run_append_eq_some sys has hbs, fun a ha => ?_⟩
  rcases List.mem_append.mp ha with ha | ha
  · exact hallowed a ha
  · exact hallowed' a ha

theorem reachable (hst : sys.LeadsTo allowed s t) (hs : sys.Reachable s) : sys.Reachable t := by
  obtain ⟨as, has, _⟩ := hst
  exact Reachable.run hs has

end LeadsTo

end System

/-! ## Fields that are maps -/

section Update

variable {ι β : Type*} [DecidableEq ι] {f : ι → β} {i j : ι} {b : β}

/-- What holds of an entry after an update held before, unless the entry is
the new one. -/
theorem update_cases {P : β → Prop} (h : P (Function.update f i b j)) :
    (j = i ∧ P b) ∨ (j ≠ i ∧ P (f j)) := by
  by_cases hj : j = i
  · subst hj
    rw [Function.update_self] at h
    exact .inl ⟨rfl, h⟩
  · rw [Function.update_of_ne hj] at h
    exact .inr ⟨hj, h⟩

theorem update_eq_cases {c : β} (h : Function.update f i b j = c) :
    (j = i ∧ b = c) ∨ (j ≠ i ∧ f j = c) :=
  update_cases (P := fun entry => entry = c) h

/-- An update adds one entry of a list at most. -/
theorem countP_update_le {is : List ι} (hnodup : is.Nodup) (p : β → Bool) :
    is.countP (fun j => p (Function.update f i b j)) ≤ is.countP (fun j => p (f j)) + 1 := by
  induction is with
  | nil => simp
  | cons j is ih =>
    obtain ⟨hj, hnodup⟩ := List.nodup_cons.mp hnodup
    rw [List.countP_cons, List.countP_cons]
    by_cases hji : j = i
    · subst hji
      have hrest : is.countP (fun k => p (Function.update f j b k)) =
          is.countP (fun k => p (f k)) := by
        refine List.countP_congr fun k hk => ?_
        have hkj : k ≠ j := fun heq => hj (heq ▸ hk)
        rw [Function.update_of_ne hkj]
      rw [hrest]
      split <;> split <;> omega
    · rw [Function.update_of_ne hji]
      have hrest := ih hnodup
      omega

/-- The new entry counts only if the old one did. -/
theorem countP_update_le_of_imp (is : List ι) {p : β → Bool} (h : p b = true → p (f i) = true) :
    is.countP (fun j => p (Function.update f i b j)) ≤ is.countP (fun j => p (f j)) := by
  refine List.countP_mono_left fun j _ hj => ?_
  rcases update_cases (P := fun entry => p entry = true) hj with ⟨rfl, hb⟩ | ⟨_, hother⟩
  · exact h hb
  · exact hother

end Update

end Transition
