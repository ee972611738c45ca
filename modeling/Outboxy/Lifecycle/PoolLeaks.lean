import Outboxy.Lifecycle.DatabaseAdapter

/-!
# Who ends the pools

A pool that was created has to be ended by somebody: the adapter that has it in
its field, or the call of `createPool` that tries to connect it.  A pool that
neither has is leaked, and nothing gets hold of it again.

* `leaked_iff_of_run` says which pools leak: those that an adapter replaces or
  gives up while they are not ended, which takes calls that overlap, and on
  MySQL those of the failed attempts.
* `unended_of_sequential` is what is left of it when no call starts before the
  last one has returned.
* `stuck_of_shutdown_failed` is about a `shutdown` that fails.  The adapter
  stays initialized on a pool that is ended, for good.
-/

namespace Outboxy.Lifecycle

open Transition

/-! ## Ownership -/

/-- The pool that a call may still end, or hand to the adapter. -/
def CallState.held (a : Adapter) : CallState → Option PoolId
  | .connecting c => some c.pool
  | .sleeping c =>
    match a with
    | .postgres => some c.pool
    | .mysql => none
  | _ => none

/-- Nobody can end the pool any more. -/
structure Leaked (a : Adapter) (s : AdapterState) (pool : PoolId) : Prop where
  created : pool < s.created
  unended : pool ∉ s.ended
  dropped : s.pool ≠ some pool
  unheld : ∀ call, (s.calls call).held a ≠ some pool

/-- The step lets go of the pool.  The pool of the adapter is replaced or given
up, or the pool of a failed attempt is forgotten. -/
def Drops (a : Adapter) (s : AdapterState) : AdapterEvent → PoolId → Prop
  | .connected _, pool => s.pool = some pool ∧ pool ∉ s.ended
  | .endResolves _, pool => s.pool = some pool ∧ pool ∉ s.ended
  | .connectFails call _, pool => a = .mysql ∧ (s.calls call).held a = some pool
  | _, _ => False

theorem not_drops {a : Adapter} {s : AdapterState} {event : AdapterEvent}
    (h : event.movesPool = false) (pool : PoolId) : ¬ Drops a s event pool := by
  cases event with
  | connected => exact absurd h (by simp [AdapterEvent.movesPool])
  | connectFails => exact absurd h (by simp [AdapterEvent.movesPool])
  | endResolves => exact absurd h (by simp [AdapterEvent.movesPool])
  | _ => exact id

/-- Each pool has at most one owner. -/
structure Pools (a : Adapter) (s : AdapterState) : Prop where
  ended : ∀ pool ∈ s.ended, pool < s.created
  pool : ∀ pool, s.pool = some pool → pool < s.created
  held : ∀ call pool, (s.calls call).held a = some pool →
    pool < s.created ∧ pool ∉ s.ended ∧ s.pool ≠ some pool
  unique : ∀ call call' pool, (s.calls call).held a = some pool →
    (s.calls call').held a = some pool → call = call'

section Steps

variable {a : Adapter} {config : ConnectionConfig} {s s' : AdapterState} {event : AdapterEvent}
  {call : CallId} {state : CallState}

/-- One call moves on, with the pool that it had, with a new one or without. -/
theorem Pools.move (h : Pools a s) (hcalls : s'.calls = Function.update s.calls call state)
    (hcreated : s.created ≤ s'.created) (hended : ∀ pool ∈ s'.ended, pool < s'.created)
    (hpool : ∀ pool, s'.pool = some pool → pool < s'.created)
    (hstate : ∀ pool, state.held a = some pool →
      (pool < s'.created ∧ pool ∉ s'.ended ∧ s'.pool ≠ some pool) ∧
        ((s.calls call).held a = some pool ∨ s.created ≤ pool))
    (hothers : ∀ other pool, other ≠ call → (s.calls other).held a = some pool →
      pool ∉ s'.ended ∧ s'.pool ≠ some pool) : Pools a s' := by
  have hcases : ∀ other pool, (s'.calls other).held a = some pool →
      (other = call ∧ state.held a = some pool) ∨
        (other ≠ call ∧ (s.calls other).held a = some pool) := by
    intro other pool hheld
    rw [hcalls] at hheld
    exact update_cases (P := fun entry : CallState => entry.held a = some pool) hheld
  have hnew : ∀ other pool, other ≠ call → (s.calls other).held a = some pool →
      state.held a ≠ some pool := by
    intro other pool hne hheld hstate'
    rcases (hstate pool hstate').2 with hold | hfresh
    · exact hne (h.unique _ _ pool hheld hold)
    · exact absurd (h.held other pool hheld).1 (Nat.not_lt.mpr hfresh)
  refine ⟨hended, hpool, fun other pool hheld => ?_, fun other other' pool hheld hheld' => ?_⟩
  · rcases hcases other pool hheld with ⟨_, hheld⟩ | ⟨hne, hheld⟩
    · exact (hstate pool hheld).1
    · exact ⟨(h.held other pool hheld).1.trans_le hcreated, hothers other pool hne hheld⟩
  · rcases hcases other pool hheld with ⟨rfl, hheld⟩ | ⟨hne, hheld⟩ <;>
      rcases hcases other' pool hheld' with ⟨rfl, hheld'⟩ | ⟨hne', hheld'⟩
    · rfl
    · exact absurd hheld (hnew other' pool hne' hheld')
    · exact absurd hheld' (hnew other pool hne hheld)
    · exact h.unique _ _ pool hheld hheld'

/-- The leaked pools after a call has moved on. -/
theorem leaked_move_iff (hcalls : s'.calls = Function.update s.calls call state) {pool : PoolId} :
    Leaked a s' pool ↔ pool < s'.created ∧ pool ∉ s'.ended ∧ s'.pool ≠ some pool ∧
      state.held a ≠ some pool ∧ ∀ other, other ≠ call → (s.calls other).held a ≠ some pool := by
  constructor
  · rintro ⟨hcreated, hunended, hdropped, hunheld⟩
    rw [hcalls] at hunheld
    refine ⟨hcreated, hunended, hdropped, ?_, fun other hne => ?_⟩
    · simpa using hunheld call
    · simpa [Function.update_of_ne hne] using hunheld other
  · rintro ⟨hcreated, hunended, hdropped, hstate, hothers⟩
    refine ⟨hcreated, hunended, hdropped, fun other => ?_⟩
    rw [hcalls]
    by_cases hne : other = call
    · rw [hne, Function.update_self]
      exact hstate
    · rw [Function.update_of_ne hne]
      exact hothers other hne

/-- The leaked pools before it. -/
theorem leaked_iff (call : CallId) {pool : PoolId} :
    Leaked a s pool ↔ pool < s.created ∧ pool ∉ s.ended ∧ s.pool ≠ some pool ∧
      (s.calls call).held a ≠ some pool ∧
      ∀ other, other ≠ call → (s.calls other).held a ≠ some pool :=
  leaked_move_iff (Function.update_eq_self call s.calls).symm

/-- A call that keeps its pool, or does without one. -/
theorem Pools.setCall (h : Pools a s)
    (hstate : ∀ pool, state.held a = some pool → (s.calls call).held a = some pool) :
    Pools a (s.setCall call state) :=
  h.move rfl le_rfl h.ended h.pool
    (fun pool hheld => ⟨h.held call pool (hstate pool hheld), .inl (hstate pool hheld)⟩)
    fun other pool _ hheld => (h.held other pool hheld).2

/-- A call that creates its pool. -/
theorem Pools.opened (h : Pools a s)
    (hstate : ∀ pool, state.held a = some pool → pool = s.created) :
    Pools a ({ s with created := s.created + 1 }.setCall call state) := by
  refine h.move rfl (Nat.le_succ _) (fun pool hpool => Nat.lt_succ_of_lt (h.ended pool hpool))
    (fun pool hpool => Nat.lt_succ_of_lt (h.pool pool hpool)) (fun pool hheld => ?_)
    fun other pool _ hheld => (h.held other pool hheld).2
  obtain rfl := hstate pool hheld
  refine ⟨⟨Nat.lt_succ_self _, fun hended => ?_, fun hpool => ?_⟩, .inr le_rfl⟩
  · exact absurd (h.ended _ hended) (Nat.lt_irrefl _)
  · exact absurd (h.pool _ hpool) (Nat.lt_irrefl _)

/-- A call that ends a pool. -/
theorem Pools.endPool (h : Pools a s) {pool : PoolId} (hpool : pool < s.created)
    (hothers : ∀ other, other ≠ call → (s.calls other).held a ≠ some pool)
    (hstate : state.held a = none) : Pools a ((s.endPool pool).setCall call state) := by
  refine h.move rfl le_rfl (fun p hp => ?_) h.pool (fun p hheld => ?_) fun other p hne hheld => ?_
  · rcases List.mem_cons.mp hp with rfl | hp
    · exact hpool
    · exact h.ended p hp
  · exact absurd (hstate.symm.trans hheld) (by simp)
  · obtain ⟨_, hunended, hdropped⟩ := h.held other p hheld
    refine ⟨fun hmem => ?_, hdropped⟩
    rcases List.mem_cons.mp hmem with rfl | hmem
    · exact hothers other hne hheld
    · exact hunended hmem

/-- The pool of a call is nobody else's. -/
theorem Pools.others (h : Pools a s) {pool : PoolId} (hheld : (s.calls call).held a = some pool)
    (other : CallId) (hne : other ≠ call) : (s.calls other).held a ≠ some pool :=
  fun hother => hne (h.unique _ _ pool hother hheld)

/-- The pool of the adapter is nobody else's. -/
theorem Pools.apart (h : Pools a s) {pool : PoolId} (hpool : s.pool = some pool) (other : CallId) :
    (s.calls other).held a ≠ some pool :=
  fun hother => (h.held other pool hother).2.2 hpool

theorem pools_of_change (h : Change a config s event s') (hs : Pools a s) : Pools a s' := by
  cases h with
  | returned => exact hs.setCall fun pool hheld => absurd hheld (by simp [CallState.held])
  | thrown => exact hs.setCall fun pool hheld => absurd hheld (by simp [CallState.held])
  | opened call => exact hs.opened fun pool hheld => (Option.some.inj hheld).symm
  | skipped call =>
    refine hs.move rfl (Nat.le_succ _) (fun pool hpool => ?_)
      (fun pool hpool => Nat.lt_succ_of_lt (hs.pool pool hpool))
      (fun pool hheld => absurd hheld (by simp [CallState.held])) fun other pool _ hheld => ?_
    · rcases List.mem_cons.mp hpool with rfl | hpool
      · exact Nat.lt_succ_self _
      · exact Nat.lt_succ_of_lt (hs.ended pool hpool)
    · obtain ⟨hcreated, hunended, hdropped⟩ := hs.held other pool hheld
      refine ⟨fun hmem => ?_, hdropped⟩
      rcases List.mem_cons.mp hmem with rfl | hmem
      · exact Nat.lt_irrefl _ hcreated
      · exact hunended hmem
  | connected call c hcall =>
    have hheld : (s.calls call).held a = some c.pool := by rw [hcall]; rfl
    refine hs.move rfl le_rfl hs.ended (fun pool hpool => ?_)
      (fun pool hnone => absurd hnone (by simp [CallState.held])) fun other pool hne hother => ?_
    · obtain rfl := Option.some.inj hpool
      exact (hs.held call _ hheld).1
    · refine ⟨(hs.held other pool hother).2.1, fun hpool => ?_⟩
      obtain rfl := Option.some.inj hpool
      exact hs.others hheld other hne hother
  | slept call c error hcall =>
    refine hs.setCall fun pool hheld => ?_
    rw [hcall]
    cases a with
    | postgres => exact hheld
    | mysql => exact absurd hheld (by simp [CallState.held])
  | gaveUp call c error s' hcall _ hends =>
    have hheld : (s.calls call).held a = some c.pool := by rw [hcall]; rfl
    cases hends with
    | ending => exact hs.endPool (hs.held call _ hheld).1 (hs.others hheld) rfl
    | failed => exact hs.setCall fun pool hheld => absurd hheld (by simp [CallState.held])
  | retried call c hpostgres hcall =>
    subst hpostgres
    refine hs.setCall fun pool hheld => ?_
    rw [hcall]
    exact hheld
  | reopened call => exact hs.opened fun pool hheld => (Option.some.inj hheld).symm
  | failed => exact hs.setCall fun pool hheld => absurd hheld (by simp [CallState.held])
  | shuttingDown call timeoutMs pool _ _ hpool =>
    exact hs.endPool (hs.pool pool hpool) (fun other _ => hs.apart hpool other) rfl
  | shutDown call =>
    refine hs.move rfl le_rfl hs.ended
      (fun pool hpool => absurd hpool.symm (Option.some_ne_none pool))
      (fun pool hnone => absurd hnone (by simp [CallState.held])) fun other pool _ hheld => ?_
    exact ⟨(hs.held other pool hheld).2.1, fun hpool => Option.some_ne_none pool hpool.symm⟩

theorem pools_of_reachable (hs : (databaseAdapter a config).Reachable s) : Pools a s := by
  refine hs.induct ?_ ?_
  · rintro s rfl
    exact ⟨by simp [AdapterState.initial], by simp [AdapterState.initial],
      by simp [AdapterState.initial, CallState.held],
      by simp [AdapterState.initial, CallState.held]⟩
  · intro s event s' _ hpools _ hstep
    have hchange : Change a config s event s' := change_of_step hstep
    exact pools_of_change hchange hpools

/-! ## What a step leaks -/

variable {pool : PoolId}

theorem leaked_setCall_iff (hstate : state.held a = (s.calls call).held a) :
    Leaked a (s.setCall call state) pool ↔ Leaked a s pool := by
  rw [leaked_move_iff rfl, leaked_iff call, hstate]
  rfl

/-- A call that forgets its pool. -/
theorem leaked_forget_iff (h : Pools a s) {c : Connection}
    (hheld : (s.calls call).held a = some c.pool) (hstate : state.held a = none) :
    Leaked a (s.setCall call state) pool ↔ Leaked a s pool ∨ (s.calls call).held a = some pool := by
  rw [leaked_move_iff rfl, leaked_iff call, hstate, hheld]
  constructor
  · rintro ⟨hcreated, hunended, hdropped, _, hothers⟩
    by_cases heq : c.pool = pool
    · exact .inr (congrArg some heq)
    · exact .inl ⟨hcreated, hunended, hdropped, fun hsome => heq (Option.some.inj hsome), hothers⟩
  · rintro (⟨hcreated, hunended, hdropped, _, hothers⟩ | hsome)
    · exact ⟨hcreated, hunended, hdropped, by simp, hothers⟩
    · obtain rfl := Option.some.inj hsome
      obtain ⟨hcreated, hunended, hdropped⟩ := h.held call _ hheld
      exact ⟨hcreated, hunended, hdropped, by simp, h.others hheld⟩

/-- A call that creates its pool. -/
theorem leaked_opened_iff (hstate : state.held a = some s.created)
    (hheld : (s.calls call).held a = none) :
    Leaked a ({ s with created := s.created + 1 }.setCall call state) pool ↔ Leaked a s pool := by
  rw [leaked_move_iff rfl, leaked_iff call, hstate, hheld]
  constructor
  · rintro ⟨hcreated, hunended, hdropped, hfresh, hothers⟩
    have hne : pool ≠ s.created := fun heq => hfresh (congrArg some heq.symm)
    exact ⟨Nat.lt_of_le_of_ne (Nat.le_of_lt_succ hcreated) hne, hunended, hdropped, by simp,
      hothers⟩
  · rintro ⟨hcreated, hunended, hdropped, _, hothers⟩
    refine ⟨Nat.lt_succ_of_lt hcreated, hunended, hdropped, fun hsome => ?_, hothers⟩
    obtain rfl := Option.some.inj hsome
    exact Nat.lt_irrefl _ hcreated

/-- A call that ends a pool of its own or of the adapter. -/
theorem leaked_endPool_iff {ended : PoolId} (hstate : state.held a = none)
    (howner : (s.calls call).held a = some ended ∨
      s.pool = some ended ∧ (s.calls call).held a = none) :
    Leaked a ((s.endPool ended).setCall call state) pool ↔ Leaked a s pool := by
  rw [leaked_move_iff rfl, leaked_iff call, hstate]
  constructor
  · rintro ⟨hcreated, hunended, hdropped, _, hothers⟩
    obtain ⟨hne, hunended⟩ := not_or.mp (mt List.mem_cons.mpr hunended)
    refine ⟨hcreated, hunended, hdropped, fun hsome => ?_, hothers⟩
    rcases howner with hheld | ⟨_, hnone⟩
    · exact hne (Option.some.inj (hsome.symm.trans hheld))
    · exact Option.some_ne_none pool (hsome.symm.trans hnone)
  · rintro ⟨hcreated, hunended, hdropped, hunheld, hothers⟩
    refine ⟨hcreated, fun hmem => ?_, hdropped, by simp, hothers⟩
    rcases List.mem_cons.mp hmem with rfl | hmem
    · rcases howner with hheld | ⟨hpool, _⟩
      · exact hunheld hheld
      · exact hdropped hpool
    · exact hunended hmem

/-- Another pool, or none, takes the place of that of the adapter. -/
theorem leaked_replace_iff (h : Pools a s) (hcalls : s'.calls = Function.update s.calls call state)
    (hcreated : s'.created = s.created) (hended : s'.ended = s.ended) (hstate : state.held a = none)
    (hpool : s'.pool = (s.calls call).held a) :
    Leaked a s' pool ↔ Leaked a s pool ∨ s.pool = some pool ∧ pool ∉ s.ended := by
  rw [leaked_move_iff hcalls, leaked_iff call, hcreated, hended, hstate, hpool]
  constructor
  · rintro ⟨hcreated, hunended, hunheld, _, hothers⟩
    by_cases hdropped : s.pool = some pool
    · exact .inr ⟨hdropped, hunended⟩
    · exact .inl ⟨hcreated, hunended, hdropped, hunheld, hothers⟩
  · rintro (⟨hcreated, hunended, _, hunheld, hothers⟩ | ⟨hdropped, hunended⟩)
    · exact ⟨hcreated, hunended, hunheld, by simp, hothers⟩
    · exact ⟨h.pool pool hdropped, hunended, h.apart hdropped call, by simp,
        fun other _ => h.apart hdropped other⟩

/-- A step leaks what it drops, and nothing that is leaked is found again. -/
theorem leaked_iff_of_change (h : Change a config s event s') (hs : Pools a s) :
    Leaked a s' pool ↔ Leaked a s pool ∨ Drops a s event pool := by
  cases h with
  | returned event call hevent hunused =>
    rw [leaked_setCall_iff (by rw [hunused]; rfl), or_iff_left (not_drops hevent pool)]
  | thrown event call message hevent hlive =>
    have hheld : (s.calls call).held a = none := by
      rcases hlive with hunused | ⟨_, _, _, hdown⟩
      · rw [hunused]
        rfl
      · rw [hdown]
        rfl
    rw [leaked_setCall_iff (by rw [hheld]; rfl), or_iff_left (not_drops hevent pool)]
  | opened call hunused =>
    rw [leaked_opened_iff rfl (by rw [hunused]; rfl), or_iff_left (not_drops rfl pool)]
  | skipped call hunused =>
    have hnone : (s.calls call).held a = none := by rw [hunused]; rfl
    rw [or_iff_left (not_drops rfl pool), leaked_move_iff rfl, leaked_iff call, hnone]
    constructor
    · rintro ⟨hcreated, hunended, hdropped, _, hothers⟩
      obtain ⟨hne, hunended⟩ := not_or.mp (mt List.mem_cons.mpr hunended)
      exact ⟨Nat.lt_of_le_of_ne (Nat.le_of_lt_succ hcreated) hne, hunended, hdropped, by simp,
        hothers⟩
    · rintro ⟨hcreated, hunended, hdropped, _, hothers⟩
      refine ⟨Nat.lt_succ_of_lt hcreated, fun hmem => ?_, hdropped, by simp [CallState.held],
        hothers⟩
      rcases List.mem_cons.mp hmem with rfl | hmem
      · exact Nat.lt_irrefl _ hcreated
      · exact hunended hmem
  | connected call c hcall =>
    exact leaked_replace_iff hs rfl rfl rfl rfl (by rw [hcall]; rfl)
  | slept call c error hcall hmore =>
    cases a with
    | postgres =>
      have hkept : ¬ Drops .postgres s (.connectFails call error) pool :=
        fun hdrops => absurd hdrops.1 (by simp)
      rw [leaked_setCall_iff (by rw [hcall]; rfl), or_iff_left hkept]
    | mysql =>
      rw [leaked_forget_iff hs (by rw [hcall]; rfl) rfl]
      exact or_congr_right (and_iff_right rfl).symm
  | gaveUp call c error s' hcall _ hends =>
    have hheld : (s.calls call).held a = some c.pool := by rw [hcall]; rfl
    cases hends with
    | ending hpostgres =>
      have hkept : ¬ Drops a s (.connectFails call error) pool :=
        fun hdrops => absurd (hpostgres.symm.trans hdrops.1) (by simp)
      rw [leaked_endPool_iff rfl (.inl hheld), or_iff_left hkept]
    | failed hmysql =>
      rw [leaked_forget_iff hs hheld rfl]
      exact or_congr_right (and_iff_right hmysql).symm
  | retried call c hpostgres hcall =>
    subst hpostgres
    rw [leaked_setCall_iff (by rw [hcall]; rfl), or_iff_left (not_drops rfl pool)]
  | reopened call c hmysql hcall =>
    subst hmysql
    rw [leaked_opened_iff rfl (by rw [hcall]; rfl), or_iff_left (not_drops rfl pool)]
  | failed call c hcall =>
    rw [leaked_setCall_iff (by rw [hcall]; rfl), or_iff_left (not_drops rfl pool)]
  | shuttingDown call timeoutMs ended hunused _ hpool =>
    rw [leaked_endPool_iff rfl (.inr ⟨hpool, by rw [hunused]; rfl⟩),
      or_iff_left (not_drops rfl pool)]
  | shutDown call _ _ _ hcall =>
    exact leaked_replace_iff hs rfl rfl rfl rfl (by rw [hcall]; rfl)

/-- The pools that leak in a run are those that its steps drop. -/
theorem leaked_iff_of_run {events : List AdapterEvent}
    (hs : (databaseAdapter a config).Reachable s)
    (hrun : (databaseAdapter a config).run s events = some s') :
    Leaked a s' pool ↔ Leaked a s pool ∨
      ∃ t event t', (databaseAdapter a config).TakesStep s events t event t' ∧
        Drops a t event pool := by
  refine System.run_adds_iff (P := fun t => Leaked a t pool)
    (Q := fun t event => Drops a t event pool) ?_ hrun
  intro t event t' htakes
  have hchange : Change a config t event t' := change_of_step htakes.step_eq
  exact leaked_iff_of_change hchange (pools_of_reachable (hs.takesStep htakes))

/-- Two calls of `initialize` overlap, and the second one replaces the pool of
the first. -/
theorem leaked_iff_of_run_overlapping :
    ∃ s, (databaseAdapter .postgres Sample.oneRetry).run .initial
        [.initializeCalled 0, .initializeCalled 1, .connected 0, .connected 1] = some s ∧
      Leaked .postgres s 0 := by
  obtain ⟨t, s, hrun, hstep⟩ : ∃ t s, (databaseAdapter .postgres Sample.oneRetry).run .initial
        [.initializeCalled 0, .initializeCalled 1, .connected 0] = some t ∧
      t.pool = some 0 ∧ 0 ∉ t.ended ∧
      (databaseAdapter .postgres Sample.oneRetry).step t (.connected 1) = some s :=
    ⟨_, _, rfl, rfl, by decide, rfl⟩
  have hwhole : (databaseAdapter .postgres Sample.oneRetry).run .initial
      [.initializeCalled 0, .initializeCalled 1, .connected 0, .connected 1] = some s :=
    System.run_append_eq_some _ hrun ((System.run_singleton _ _ _).trans hstep.2.2)
  exact ⟨s, hwhole, (leaked_iff_of_run (.init rfl) hwhole).mpr
    (.inr ⟨t, .connected 1, s, ⟨_, [], rfl, hrun, hstep.2.2⟩, hstep.1, hstep.2.1⟩)⟩

/-! ## One call at a time -/

/-- A call starts when no other one is in flight. -/
def Sequential (s : AdapterState) : AdapterEvent → Prop
  | .initializeCalled _ | .shutdownCalled .. => ∀ call, (s.calls call).inFlight = false
  | _ => True

/-- The call is one of `createPool`. -/
def CallState.opens : CallState → Bool
  | .connecting _ | .sleeping _ | .ending _ => true
  | _ => false

/-- The call in flight connects an adapter without a pool, or ends the pool of
the adapter. -/
structure OneCall (s : AdapterState) : Prop where
  one : ∀ call call', (s.calls call).inFlight = true → (s.calls call').inFlight = true →
    call = call'
  opens : ∀ call, (s.calls call).opens = true → s.pool = none
  closes : ∀ call pool timeoutMs again, s.calls call = .shuttingDown pool timeoutMs again →
    s.pool = some pool ∧ pool ∈ s.ended

/-- Beside a call in flight there is no other. -/
theorem OneCall.alone (h : OneCall s) (hlive : (s.calls call).inFlight = true) (other : CallId)
    (hne : other ≠ call) : (s.calls other).inFlight = false := by
  rw [Bool.eq_false_iff]
  exact fun hother => hne (h.one other call hother hlive)

theorem OneCall.move (h : OneCall s) (hcalls : s'.calls = Function.update s.calls call state)
    (hothers : (state.inFlight = false ∧ s'.pool = s.pool ∧ s'.ended = s.ended) ∨
      ∀ other, other ≠ call → (s.calls other).inFlight = false)
    (hopens : state.opens = true → s'.pool = none)
    (hcloses : ∀ pool timeoutMs again, state = .shuttingDown pool timeoutMs again →
      s'.pool = some pool ∧ pool ∈ s'.ended) : OneCall s' := by
  have hold : ∀ other, other ≠ call → s'.calls other = s.calls other := by
    intro other hne
    rw [hcalls, Function.update_of_ne hne]
  have hnew : s'.calls call = state := by rw [hcalls, Function.update_self]
  -- A call in flight is this one, or the step is none of its business.
  have hcases : ∀ other, (s'.calls other).inFlight = true → other = call ∨
      (s'.calls other = s.calls other ∧ state.inFlight = false ∧ s'.pool = s.pool ∧
        s'.ended = s.ended) := by
    intro other hlive
    by_cases hne : other = call
    · exact .inl hne
    · rw [hold other hne] at hlive ⊢
      rcases hothers with hidle | hidle
      · exact .inr ⟨rfl, hidle⟩
      · exact absurd (hlive.symm.trans (hidle other hne)) (by simp)
  refine ⟨fun other other' hlive hlive' => ?_, fun other hstate => ?_,
    fun other pool timeoutMs again hstate => ?_⟩
  · rcases hcases other hlive with rfl | ⟨heq, hidle, _⟩ <;>
      rcases hcases other' hlive' with rfl | ⟨heq', hidle', _⟩
    · rfl
    · rw [hnew, hidle'] at hlive
      exact absurd hlive (by simp)
    · rw [hnew, hidle] at hlive'
      exact absurd hlive' (by simp)
    · rw [heq] at hlive
      rw [heq'] at hlive'
      exact h.one other other' hlive hlive'
  · have hlive : (s'.calls other).inFlight = true := by
      cases hcall : s'.calls other <;> simp [hcall, CallState.opens, CallState.inFlight] at hstate ⊢
    rcases hcases other hlive with rfl | ⟨heq, _, hpool, _⟩
    · exact hopens (hnew ▸ hstate)
    · rw [hpool]
      exact h.opens other (heq ▸ hstate)
  · have hlive : (s'.calls other).inFlight = true := by rw [hstate]; rfl
    rcases hcases other hlive with rfl | ⟨heq, _, hpool, hended⟩
    · exact hcloses pool timeoutMs again (hnew.symm.trans hstate)
    · rw [hpool, hended]
      exact h.closes other pool timeoutMs again (heq.symm.trans hstate)

theorem oneCall_of_change (h : Change a config s event s') (hsequential : Sequential s event)
    (hcoherent : Coherent s) (hs : OneCall s) : OneCall s' := by
  cases h with
  | returned => exact hs.move rfl (.inl ⟨rfl, rfl, rfl⟩) (by simp [CallState.opens]) (by simp)
  | thrown => exact hs.move rfl (.inl ⟨rfl, rfl, rfl⟩) (by simp [CallState.opens]) (by simp)
  | opened call _ hclosed =>
    have hnone : s.pool = none := by simpa [hclosed] using hcoherent.initialized.symm
    exact hs.move rfl (.inr fun other _ => hsequential other) (fun _ => hnone) (by simp)
  | skipped call _ hclosed =>
    have hnone : s.pool = none := by simpa [hclosed] using hcoherent.initialized.symm
    exact hs.move rfl (.inr fun other _ => hsequential other) (fun _ => hnone) (by simp)
  | connected call c hcall =>
    have hlive : (s.calls call).inFlight = true := by rw [hcall]; rfl
    exact hs.move rfl (.inr (hs.alone hlive)) (by simp [CallState.opens]) (by simp)
  | slept call c error hcall =>
    have hlive : (s.calls call).inFlight = true := by rw [hcall]; rfl
    have hnone : s.pool = none := hs.opens call (by rw [hcall]; rfl)
    exact hs.move rfl (.inr (hs.alone hlive)) (fun _ => hnone) (by simp)
  | gaveUp call c error s' hcall _ hends =>
    have hlive : (s.calls call).inFlight = true := by rw [hcall]; rfl
    have hnone : s.pool = none := hs.opens call (by rw [hcall]; rfl)
    cases hends with
    | ending => exact hs.move rfl (.inr (hs.alone hlive)) (fun _ => hnone) (by simp)
    | failed => exact hs.move rfl (.inr (hs.alone hlive)) (fun _ => hnone) (by simp)
  | retried call c _ hcall =>
    have hlive : (s.calls call).inFlight = true := by rw [hcall]; rfl
    have hnone : s.pool = none := hs.opens call (by rw [hcall]; rfl)
    exact hs.move rfl (.inr (hs.alone hlive)) (fun _ => hnone) (by simp)
  | reopened call c _ hcall =>
    have hlive : (s.calls call).inFlight = true := by rw [hcall]; rfl
    have hnone : s.pool = none := hs.opens call (by rw [hcall]; rfl)
    exact hs.move rfl (.inr (hs.alone hlive)) (fun _ => hnone) (by simp)
  | failed => exact hs.move rfl (.inl ⟨rfl, rfl, rfl⟩) (by simp [CallState.opens]) (by simp)
  | shuttingDown call timeoutMs pool _ _ hpool =>
    refine hs.move rfl (.inr fun other _ => hsequential other) (by simp [CallState.opens])
      fun pool' _ _ heq => ?_
    obtain ⟨rfl, _⟩ := CallState.shuttingDown.inj heq
    exact ⟨hpool, List.mem_cons_self⟩
  | shutDown call pool _ _ hcall =>
    have hlive : (s.calls call).inFlight = true := by rw [hcall]; rfl
    exact hs.move rfl (.inr (hs.alone hlive)) (by simp [CallState.opens]) (by simp)

theorem oneCall_of_sequential (hs : (databaseAdapter a config).ReachableBy Sequential s) :
    OneCall s := by
  refine hs.induct ?_ ?_
  · rintro s rfl
    exact ⟨by simp [AdapterState.initial, CallState.inFlight],
      by simp [AdapterState.initial, CallState.opens], by simp [AdapterState.initial]⟩
  · intro s event s' hs hone hsequential hstep
    have hchange : Change a config s event s' := change_of_step hstep
    exact oneCall_of_change hchange hsequential (coherent_of_reachable hs.reachable) hone

/-- Without overlapping calls, only a failed attempt of MySQL drops a pool. -/
theorem mysql_of_drops (hs : OneCall s) (h : Change a config s event s')
    (hdrops : Drops a s event pool) : a = .mysql := by
  cases h with
  | returned event call hevent => exact absurd hdrops (not_drops hevent pool)
  | thrown event call message hevent => exact absurd hdrops (not_drops hevent pool)
  | connected call c hcall =>
    have hnone : s.pool = none := hs.opens call (by rw [hcall]; rfl)
    exact absurd (hnone.symm.trans hdrops.1) (by simp)
  | slept => exact hdrops.1
  | gaveUp => exact hdrops.1
  | shutDown call ended timeoutMs again hcall =>
    obtain ⟨hpool, hended⟩ := hs.closes call ended timeoutMs again hcall
    obtain rfl := Option.some.inj (hpool.symm.trans hdrops.1)
    exact absurd hended hdrops.2
  | opened => exact absurd hdrops (not_drops rfl pool)
  | skipped => exact absurd hdrops (not_drops rfl pool)
  | retried => exact absurd hdrops (not_drops rfl pool)
  | reopened => exact absurd hdrops (not_drops rfl pool)
  | failed => exact absurd hdrops (not_drops rfl pool)
  | shuttingDown => exact absurd hdrops (not_drops rfl pool)

theorem not_leaked_of_sequential
    (hs : (databaseAdapter .postgres config).ReachableBy Sequential s) :
    ¬ Leaked .postgres s pool := by
  refine hs.induct (P := fun s => ¬ Leaked .postgres s pool) ?_ ?_
  · rintro s rfl hleaked
    exact absurd hleaked.created (Nat.not_lt_zero pool)
  · intro s event s' hs hnot _ hstep
    have hchange : Change .postgres config s event s' := change_of_step hstep
    rw [leaked_iff_of_change hchange (pools_of_reachable hs.reachable)]
    refine not_or.mpr ⟨hnot, fun hdrops => ?_⟩
    exact absurd (mysql_of_drops (oneCall_of_sequential hs) hchange hdrops) (by simp)

/-- Without overlapping calls, an adapter of PostgreSQL has at most one pool
that is not ended.  It is in its field, or the call in flight has it. -/
theorem unended_of_sequential
    (hs : (databaseAdapter .postgres config).ReachableBy Sequential s)
    (hcreated : pool < s.created) (hunended : pool ∉ s.ended) :
    (s.pool = some pool ∨ ∃ call, (s.calls call).held .postgres = some pool) ∧
      ∀ other, other < s.created → other ∉ s.ended → other = pool := by
  have hone := oneCall_of_sequential hs
  have howned : ∀ p, p < s.created → p ∉ s.ended →
      s.pool = some p ∨ ∃ call, (s.calls call).held .postgres = some p := by
    intro p hcreated hunended
    by_contra hnot
    obtain ⟨hdropped, hunheld⟩ := not_or.mp hnot
    exact not_leaked_of_sequential hs ⟨hcreated, hunended, hdropped, not_exists.mp hunheld⟩
  have hopens : ∀ call p, (s.calls call).held .postgres = some p →
      (s.calls call).opens = true ∧ (s.calls call).inFlight = true := by
    intro call p hheld
    cases hcall : s.calls call <;>
      simp [hcall, CallState.held, CallState.opens, CallState.inFlight] at hheld ⊢
  refine ⟨howned pool hcreated hunended, fun other hcreated' hunended' => ?_⟩
  rcases howned pool hcreated hunended with hpool | ⟨call, hheld⟩ <;>
    rcases howned other hcreated' hunended' with hpool' | ⟨call', hheld'⟩
  · exact Option.some.inj (hpool'.symm.trans hpool)
  · have hnone := hone.opens call' (hopens call' other hheld').1
    exact absurd (hnone.symm.trans hpool) (by simp)
  · have hnone := hone.opens call (hopens call pool hheld).1
    exact absurd (hnone.symm.trans hpool') (by simp)
  · obtain rfl := hone.one call call' (hopens call pool hheld).2 (hopens call' other hheld').2
    exact Option.some.inj (hheld'.symm.trans hheld)

/-- The pool of an adapter that was connected is the only one. -/
theorem unended_of_sequential_connected :
    ∃ s, (databaseAdapter .postgres Sample.oneRetry).run .initial
        [.initializeCalled 0, .connected 0] = some s ∧
      (s.pool = some 0 ∨ ∃ call, (s.calls call).held .postgres = some 0) ∧
      ∀ other, other < s.created → other ∉ s.ended → other = 0 := by
  obtain ⟨t, s, hopened, hconnected, hcreated, hended⟩ : ∃ t s,
      (databaseAdapter .postgres Sample.oneRetry).step .initial (.initializeCalled 0) = some t ∧
      (databaseAdapter .postgres Sample.oneRetry).step t (.connected 0) = some s ∧
      0 < s.created ∧ 0 ∉ s.ended := ⟨_, _, rfl, rfl, by decide, by decide⟩
  have ht : (databaseAdapter .postgres Sample.oneRetry).ReachableBy Sequential t :=
    .step (a := .initializeCalled 0) (.init rfl) (fun _ => rfl) hopened
  refine ⟨s, System.run_cons_eq_some _ hopened ((System.run_singleton _ _ _).trans hconnected),
    unended_of_sequential (.step (a := .connected 0) ht trivial hconnected) hcreated hended⟩

/-! ## A failed shutdown -/

/-- `end` does not resolve on a pool on which it was called before. -/
def EndsOnce (s : AdapterState) : AdapterEvent → Prop
  | .endResolves call => ∀ pool timeoutMs, s.calls call ≠ .shuttingDown pool timeoutMs true
  | _ => True

/-- The adapter keeps a pool that is ended, and all that it still awaits is to
end it again. -/
structure Stuck (s : AdapterState) (pool : PoolId) : Prop where
  kept : s.pool = some pool
  initialized : s.initialized = true
  ended : pool ∈ s.ended
  calls : ∀ call, (s.calls call).inFlight = true →
    ∃ timeoutMs, s.calls call = .shuttingDown pool timeoutMs true

theorem Stuck.move (h : Stuck s pool) (hcalls : s'.calls = Function.update s.calls call state)
    (hfields : s'.pool = s.pool ∧ s'.initialized = s.initialized) (hended : s.ended ⊆ s'.ended)
    (hstate : state.inFlight = true → ∃ timeoutMs, state = .shuttingDown pool timeoutMs true) :
    Stuck s' pool := by
  refine ⟨hfields.1.trans h.kept, hfields.2.trans h.initialized, hended h.ended,
    fun other hlive => ?_⟩
  rw [hcalls] at hlive ⊢
  by_cases hne : other = call
  · rw [hne, Function.update_self] at hlive ⊢
    exact hstate hlive
  · rw [Function.update_of_ne hne] at hlive ⊢
    exact h.calls other hlive

/-- No call of `createPool` is in flight. -/
theorem Stuck.not_opens (h : Stuck s pool) (hopens : (s.calls call).opens = true) : False := by
  have hlive : (s.calls call).inFlight = true := by
    cases hcall : s.calls call <;> simp [hcall, CallState.opens, CallState.inFlight] at hopens ⊢
  obtain ⟨timeoutMs, hcall⟩ := h.calls call hlive
  rw [hcall] at hopens
  exact absurd hopens (by simp [CallState.opens])

theorem stuck_of_change (h : Change a config s event s') (honce : EndsOnce s event)
    (hs : Stuck s pool) : Stuck s' pool ∧ s'.created = s.created := by
  cases h with
  | returned =>
    exact ⟨hs.move rfl ⟨rfl, rfl⟩ (List.Subset.refl _) (by simp [CallState.inFlight]), rfl⟩
  | thrown =>
    exact ⟨hs.move rfl ⟨rfl, rfl⟩ (List.Subset.refl _) (by simp [CallState.inFlight]), rfl⟩
  | opened call _ hclosed => exact absurd (hclosed.symm.trans hs.initialized) (by simp)
  | skipped call _ hclosed => exact absurd (hclosed.symm.trans hs.initialized) (by simp)
  | connected call c hcall => exact (hs.not_opens (by rw [hcall]; rfl)).elim
  | slept call c error hcall => exact (hs.not_opens (by rw [hcall]; rfl)).elim
  | gaveUp call c error s' hcall => exact (hs.not_opens (by rw [hcall]; rfl)).elim
  | retried call c _ hcall => exact (hs.not_opens (by rw [hcall]; rfl)).elim
  | reopened call c _ hcall => exact (hs.not_opens (by rw [hcall]; rfl)).elim
  | failed call c hcall => exact (hs.not_opens (by rw [hcall]; rfl)).elim
  | shuttingDown call timeoutMs ended _ _ hpool =>
    obtain rfl := Option.some.inj (hs.kept.symm.trans hpool)
    have hagain : decide (pool ∈ s.ended) = true := decide_eq_true hs.ended
    exact ⟨hs.move rfl ⟨rfl, rfl⟩ (List.subset_cons_self _ _) fun _ => ⟨timeoutMs, by rw [hagain]⟩,
      rfl⟩
  | shutDown call ended timeoutMs again hcall =>
    obtain ⟨timeoutMs', hcall'⟩ := hs.calls call (by rw [hcall]; rfl)
    exact absurd hcall' (honce pool timeoutMs')

/-- A `shutdown` that fails leaves the adapter without another call. -/
theorem stuck_of_thrown {message : String} (hone : OneCall s) (hcoherent : Coherent s)
    {ended : PoolId} {timeoutMs : Nat} {again : Bool}
    (hcall : s.calls call = .shuttingDown ended timeoutMs again) :
    Stuck (s.setCall call (.rejected message)) ended := by
  obtain ⟨hpool, hended⟩ := hone.closes call ended timeoutMs again hcall
  refine ⟨hpool, ?_, hended, fun other hlive => ?_⟩
  · show s.initialized = true
    rw [hcoherent.initialized, hpool]
    rfl
  · rw [AdapterState.setCall_calls] at hlive
    by_cases hne : other = call
    · rw [hne, Function.update_self] at hlive
      exact absurd hlive (by simp [CallState.inFlight])
    · rw [Function.update_of_ne hne, hone.alone (by rw [hcall]; rfl) other hne] at hlive
      exact absurd hlive (by simp)

/-- The event is the failure of a `shutdown`. -/
def AdapterEvent.shutdownFails : AdapterEvent → Bool
  | .endRejects .. | .timeout _ => true
  | _ => false

/-- After a `shutdown` that failed, the adapter stays initialized on a pool
that is ended.  Its getters return it, and `initialize` creates no other. -/
theorem stuck_of_shutdown_failed {t : AdapterState} {events : List AdapterEvent}
    (ht : (databaseAdapter a config).ReachableBy Sequential t)
    (hevent : event.shutdownFails = true)
    (hstep : (databaseAdapter a config).step t event = some s)
    (hrun : (databaseAdapter a config).run s events = some s')
    (honce : ∀ u event u', (databaseAdapter a config).TakesStep s events u event u' →
      EndsOnce u event) :
    ∃ pool ∈ s'.ended, s'.initialized = true ∧ s'.getClient a = .ok (some pool) ∧
      s'.getEventRepository a = .ok (some pool) ∧ s'.getEventService a = .ok (some pool) ∧
      s'.getMaintenance a = .ok (some pool) ∧ s'.created = t.created := by
  have hs : (databaseAdapter a config).Reachable s := .step ht.reachable trivial hstep
  obtain ⟨pool, hstuck, hcreated⟩ : ∃ pool, Stuck s pool ∧ s.created = t.created := by
    cases event with
    | endRejects call error =>
      change t.step a config (.endRejects call error) = some s at hstep
      rw [AdapterState.step] at hstep
      split at hstep
      · next ended timeoutMs again hcall =>
        obtain rfl := Option.some.inj hstep
        exact ⟨ended, stuck_of_thrown (oneCall_of_sequential ht)
          (coherent_of_reachable ht.reachable) hcall, rfl⟩
      · exact absurd hstep (by simp)
    | timeout call =>
      change t.step a config (.timeout call) = some s at hstep
      rw [AdapterState.step] at hstep
      split at hstep
      · next ended timeoutMs again hcall =>
        obtain rfl := Option.some.inj hstep
        exact ⟨ended, stuck_of_thrown (oneCall_of_sequential ht)
          (coherent_of_reachable ht.reachable) hcall, rfl⟩
      · exact absurd hstep (by simp)
    | _ => exact absurd hevent (by simp [AdapterEvent.shutdownFails])
  obtain ⟨hstuck', hcreated'⟩ : Stuck s' pool ∧ s'.created = t.created := by
    refine System.run_keeps (P := fun u => Stuck u pool ∧ u.created = t.created) ?_ hrun
      ⟨hstuck, hcreated⟩
    rintro u event u' htakes ⟨hu, hcreated⟩
    have hchange : Change a config u event u' := change_of_step htakes.step_eq
    obtain ⟨hu', hsame⟩ := stuck_of_change hchange (honce u event u' htakes) hu
    exact ⟨hu', hsame.trans hcreated⟩
  have hcoherent := coherent_of_reachable (hs.run hrun)
  have hread : ∀ field : AdapterState → Option PoolId, field s' = s'.pool →
      s'.read a field = .ok (some pool) := by
    intro field hfield
    rw [hcoherent.read_eq hfield, hstuck'.kept]
  exact ⟨pool, hstuck'.ended, hstuck'.initialized, hread _ rfl, hread _ hcoherent.eventRepository,
    hread _ hcoherent.eventService, hread _ hcoherent.maintenance, hcreated'⟩

end Steps

/-- A `shutdown` times out.  Another one, and another `initialize`, are of no
use. -/
theorem stuck_of_shutdown_failed_timeout :
    ∃ t s s', (databaseAdapter .postgres Sample.oneRetry).run .initial
        [.initializeCalled 0, .connected 0, .shutdownCalled 1 10000] = some t ∧
      (databaseAdapter .postgres Sample.oneRetry).step t (.timeout 1) = some s ∧
      (databaseAdapter .postgres Sample.oneRetry).run s
        [.shutdownCalled 2 10000, .endRejects 2 "Called end on pool more than once",
          .initializeCalled 3] = some s' ∧
      ∃ pool ∈ s'.ended, s'.initialized = true ∧ s'.getClient .postgres = .ok (some pool) := by
  obtain ⟨t₁, t₂, t, s, s', hopened, hconnected, hcalls, hshutdown, htimeout, hrun⟩ :
      ∃ t₁ t₂ t s s',
        (databaseAdapter .postgres Sample.oneRetry).step .initial (.initializeCalled 0) = some t₁ ∧
        (databaseAdapter .postgres Sample.oneRetry).step t₁ (.connected 0) = some t₂ ∧
        t₂.calls = Function.update (Function.update (fun _ => .unused) 0
          (.connecting ⟨0, 1, [], none⟩)) 0 .resolved ∧
        (databaseAdapter .postgres Sample.oneRetry).step t₂ (.shutdownCalled 1 10000) = some t ∧
        (databaseAdapter .postgres Sample.oneRetry).step t (.timeout 1) = some s ∧
        (databaseAdapter .postgres Sample.oneRetry).run s
          [.shutdownCalled 2 10000, .endRejects 2 "Called end on pool more than once",
            .initializeCalled 3] = some s' :=
    ⟨_, _, _, _, _, rfl, rfl, rfl, rfl, rfl, rfl⟩
  have hidle : ∀ call, (t₂.calls call).inFlight = false := by
    intro call
    rw [hcalls]
    by_cases hcall : call = 0
    · rw [hcall, Function.update_self]
      rfl
    · rw [Function.update_of_ne hcall, Function.update_of_ne hcall]
      rfl
  have ht₁ : (databaseAdapter .postgres Sample.oneRetry).ReachableBy Sequential t₁ :=
    .step (a := .initializeCalled 0) (.init rfl) (fun _ => rfl) hopened
  have ht₂ : (databaseAdapter .postgres Sample.oneRetry).ReachableBy Sequential t₂ :=
    .step (a := .connected 0) ht₁ trivial hconnected
  have ht : (databaseAdapter .postgres Sample.oneRetry).ReachableBy Sequential t :=
    .step (a := .shutdownCalled 1 10000) ht₂ hidle hshutdown
  obtain ⟨pool, hended, hinitialized, hclient, _⟩ :=
    stuck_of_shutdown_failed ht rfl htimeout hrun fun u event u' htakes => by
      obtain ⟨pre, post, heq, _⟩ := htakes
      have hmem : event ∈ pre ++ event :: post := by simp
      rw [← heq] at hmem
      simp only [List.mem_cons, List.not_mem_nil, or_false] at hmem
      rcases hmem with rfl | rfl | rfl <;> exact trivial
  exact ⟨t, s, s', System.run_cons_eq_some _ hopened (System.run_cons_eq_some _ hconnected
    ((System.run_singleton _ _ _).trans hshutdown)), htimeout, hrun, pool, hended, hinitialized,
    hclient⟩

end Outboxy.Lifecycle
