import Mathlib.Data.List.Basic

/-!
# Sessions with a server whose connection may break

A client program is a computation that may fail and that keeps the state it
reached when it fails, as `try`, `catch` and `finally` see it.

There are two groups.

* `Ensures` says what holds of a computation's result, normal or failed.
  Its rules follow the program: one for each way to put computations together,
  and `ensures_forM` for a loop with an invariant.
* `Link` is a server with the faults that the environment still has in store
  for the queries to come.  A query is a list of statements.  It stops at the
  first one the server refuses, and a fault ends it after any number of them.
-/

namespace Session

variable {ε σ α β ι : Type}

/-! ## What a computation ensures -/

/-- From `s` the computation returns with `Q` or fails with `E`. -/
def Ensures (m : EStateM ε σ α) (s : σ) (Q : α → σ → Prop) (E : ε → σ → Prop) : Prop :=
  match m.run s with
  | .ok a s' => Q a s'
  | .error e s' => E e s'

theorem Ensures.of_ok {m : EStateM ε σ α} {s s' : σ} {a : α} {Q : α → σ → Prop}
    {E : ε → σ → Prop} (h : Ensures m s Q E) (hrun : m.run s = .ok a s') : Q a s' := by
  rw [Ensures, hrun] at h
  exact h

theorem Ensures.of_error {m : EStateM ε σ α} {s s' : σ} {e : ε} {Q : α → σ → Prop}
    {E : ε → σ → Prop} (h : Ensures m s Q E) (hrun : m.run s = .error e s') : E e s' := by
  rw [Ensures, hrun] at h
  exact h

theorem ensures_ok {m : EStateM ε σ α} {s s' : σ} {a : α} {Q : α → σ → Prop}
    {E : ε → σ → Prop} (hrun : m.run s = .ok a s') (hQ : Q a s') : Ensures m s Q E := by
  rw [Ensures, hrun]
  exact hQ

theorem ensures_error {m : EStateM ε σ α} {s s' : σ} {e : ε} {Q : α → σ → Prop}
    {E : ε → σ → Prop} (hrun : m.run s = .error e s') (hE : E e s') : Ensures m s Q E := by
  rw [Ensures, hrun]
  exact hE

theorem Ensures.mono {m : EStateM ε σ α} {s : σ} {Q Q' : α → σ → Prop} {E E' : ε → σ → Prop}
    (h : Ensures m s Q E) (hQ : ∀ a s', Q a s' → Q' a s') (hE : ∀ e s', E e s' → E' e s') :
    Ensures m s Q' E' := by
  cases hrun : m.run s with
  | ok a s' => exact ensures_ok hrun (hQ a s' (h.of_ok hrun))
  | error e s' => exact ensures_error hrun (hE e s' (h.of_error hrun))

theorem Ensures.and {m : EStateM ε σ α} {s : σ} {Q Q' : α → σ → Prop} {E E' : ε → σ → Prop}
    (h : Ensures m s Q E) (h' : Ensures m s Q' E') :
    Ensures m s (fun a s' => Q a s' ∧ Q' a s') (fun e s' => E e s' ∧ E' e s') := by
  cases hrun : m.run s with
  | ok a s' => exact ensures_ok hrun ⟨h.of_ok hrun, h'.of_ok hrun⟩
  | error e s' => exact ensures_error hrun ⟨h.of_error hrun, h'.of_error hrun⟩

/-- Every computation has a result. -/
theorem not_ensures_false (m : EStateM ε σ α) (s : σ) :
    ¬Ensures m s (fun _ _ => False) (fun _ _ => False) := by
  intro h
  cases hrun : m.run s with
  | ok a s' => exact h.of_ok hrun
  | error e s' => exact h.of_error hrun

/-- The computation returns. -/
def succeeds (m : EStateM ε σ α) (s : σ) : Bool :=
  match m.run s with
  | .ok _ _ => true
  | .error _ _ => false

theorem succeeds_of_ensures {m : EStateM ε σ α} {s : σ} {Q : α → σ → Prop}
    (h : Ensures m s Q (fun _ _ => False)) : succeeds m s = true := by
  unfold succeeds
  cases hrun : m.run s with
  | ok a s' => rfl
  | error e s' => exact (h.of_error hrun).elim

theorem exists_ok_of_succeeds {m : EStateM ε σ α} {s : σ} (h : succeeds m s = true) :
    ∃ a s', m.run s = .ok a s' := by
  unfold succeeds at h
  cases hrun : m.run s with
  | ok a s' => exact ⟨a, s', rfl⟩
  | error e s' => simp [hrun] at h

/-- The state that a computation leaves. -/
def final (m : EStateM ε σ α) (s : σ) : σ :=
  match m.run s with
  | .ok _ s' => s'
  | .error _ s' => s'

theorem Ensures.of_succeeds {m : EStateM ε σ α} {s : σ} {P : σ → Prop} {E : ε → σ → Prop}
    (h : Ensures m s (fun _ s' => P s') E) (hsucceeds : succeeds m s) : P (final m s) := by
  unfold succeeds at hsucceeds
  unfold final
  cases hrun : m.run s with
  | ok a s' => exact h.of_ok hrun
  | error e s' => simp [hrun] at hsucceeds

theorem ensures_trivial (m : EStateM ε σ α) (s : σ) :
    Ensures m s (fun _ _ => True) (fun _ _ => True) := by
  cases hrun : m.run s with
  | ok a s' => exact ensures_ok hrun trivial
  | error e s' => exact ensures_error hrun trivial

theorem ensures_pure {a : α} {s : σ} {Q : α → σ → Prop} {E : ε → σ → Prop} (h : Q a s) :
    Ensures (pure a) s Q E := h

theorem ensures_throw {e : ε} {s : σ} {Q : α → σ → Prop} {E : ε → σ → Prop} (h : E e s) :
    Ensures (throw e) s Q E := h

theorem ensures_modify {f : σ → σ} {s : σ} {Q : PUnit → σ → Prop} {E : ε → σ → Prop}
    (h : Q ⟨⟩ (f s)) : Ensures (modify f) s Q E := h

theorem ensures_bind {m : EStateM ε σ α} {f : α → EStateM ε σ β} {s : σ}
    {Q : β → σ → Prop} {E : ε → σ → Prop}
    (h : Ensures m s (fun a s' => Ensures (f a) s' Q E) E) : Ensures (m >>= f) s Q E := by
  have hbind := EStateM.run_bind (s := s) m f
  cases hrun : m.run s with
  | ok a s' =>
    rw [hrun] at hbind
    have hf := h.of_ok hrun
    rwa [Ensures, hbind]
  | error e s' =>
    rw [hrun] at hbind
    exact ensures_error hbind (h.of_error hrun)

/-- A handler takes over in the state the failure left. -/
theorem ensures_tryCatch {m : EStateM ε σ α} {handler : ε → EStateM ε σ α} {s : σ}
    {Q : α → σ → Prop} {E : ε → σ → Prop}
    (h : Ensures m s Q (fun e s' => Ensures (handler e) s' Q E)) :
    Ensures (tryCatch m handler) s Q E := by
  cases hrun : m.run s with
  | ok a s' =>
    have hcatch : (tryCatch m handler).run s = .ok a s' := by
      show EStateM.tryCatch m handler s = _
      rw [EStateM.tryCatch, show m s = .ok a s' from hrun]
    exact ensures_ok hcatch (h.of_ok hrun)
  | error e s' =>
    have hcatch : (tryCatch m handler).run s = (handler e).run s' := by
      show EStateM.tryCatch m handler s = _
      rw [EStateM.tryCatch, show m s = .error e s' from hrun]
      rfl
    have hhandler := h.of_error hrun
    rwa [Ensures, hcatch]

/-- A finalizer runs after both results, and its own failure replaces them. -/
theorem ensures_tryFinally {m : EStateM ε σ α} {finalizer : EStateM ε σ β} {s : σ}
    {Q : α → σ → Prop} {E : ε → σ → Prop}
    (h : Ensures m s
      (fun a s' => Ensures finalizer s' (fun _ s'' => Q a s'') E)
      (fun e s' => Ensures finalizer s' (fun _ s'' => E e s'') E)) :
    Ensures (tryFinally m finalizer) s Q E := by
  have hfinally : (tryFinally m finalizer).run s =
      EStateM.run ((·.1) <$> tryFinally' m fun _ => finalizer) s := rfl
  cases hrun : m.run s with
  | ok a s' =>
    cases hfin : finalizer.run s' with
    | ok b s'' =>
      have hres : (tryFinally m finalizer).run s = .ok a s'' := by
        rw [hfinally]
        simp_all [EStateM.run, tryFinally', Functor.map, EStateM.map]
      exact ensures_ok hres ((h.of_ok hrun).of_ok hfin)
    | error e s'' =>
      have hres : (tryFinally m finalizer).run s = .error e s'' := by
        rw [hfinally]
        simp_all [EStateM.run, tryFinally', Functor.map, EStateM.map]
      exact ensures_error hres ((h.of_ok hrun).of_error hfin)
  | error e s' =>
    cases hfin : finalizer.run s' with
    | ok b s'' =>
      have hres : (tryFinally m finalizer).run s = .error e s'' := by
        rw [hfinally]
        simp_all [EStateM.run, tryFinally', Functor.map, EStateM.map]
      exact ensures_error hres ((h.of_error hrun).of_ok hfin)
    | error e' s'' =>
      have hres : (tryFinally m finalizer).run s = .error e' s'' := by
        rw [hfinally]
        simp_all [EStateM.run, tryFinally', Functor.map, EStateM.map]
      exact ensures_error hres ((h.of_error hrun).of_error hfin)

/-- A loop keeps an invariant of the items that are still to come. -/
theorem ensures_forM {body : ι → EStateM ε σ PUnit} (I : List ι → σ → Prop) {E : ε → σ → Prop}
    (hbody : ∀ i rest s, I (i :: rest) s → Ensures (body i) s (fun _ s' => I rest s') E)
    (items : List ι) {s : σ} (hI : I items s) :
    Ensures (items.forM body) s (fun _ s' => I [] s') E := by
  induction items generalizing s with
  | nil => exact ensures_pure hI
  | cons i rest ih =>
    apply ensures_bind
    exact (hbody i rest s hI).mono (fun _ _ h => ih h) (fun _ _ h => h)

/-- A loop that collects keeps an invariant of the items that are still to come
and of what it has collected. -/
theorem ensures_mapM {body : ι → EStateM ε σ β} (I : List ι → List β → σ → Prop)
    {E : ε → σ → Prop}
    (hbody : ∀ i rest done s, I (i :: rest) done s →
      Ensures (body i) s (fun b s' => I rest (done ++ [b]) s') E)
    (items : List ι) (done : List β) {s : σ} (hI : I items done s) :
    Ensures (items.mapM body) s (fun bs s' => I [] (done ++ bs) s') E := by
  induction items generalizing done s with
  | nil =>
    rw [List.mapM_nil]
    exact ensures_pure (by rwa [List.append_nil])
  | cons i rest ih =>
    rw [List.mapM_cons]
    apply ensures_bind
    refine (hbody i rest done s hI).mono (fun b s' h => ?_) (fun _ _ h => h)
    apply ensures_bind
    refine (ih _ h).mono (fun bs s'' hrest => ?_) (fun _ _ h => h)
    refine ensures_pure ?_
    rwa [List.append_assoc] at hrest

/-- The result of a computation without a state. -/
theorem ensures_ofExcept {x : Except ε α} {s : σ} {Q : α → σ → Prop} {E : ε → σ → Prop}
    (hok : ∀ a, x = .ok a → Q a s) (herror : ∀ e, x = .error e → E e s) :
    Ensures (ofExcept x) s Q E := by
  cases x with
  | ok a => exact hok a rfl
  | error e => exact herror e rfl

/-! ## Queries over a link -/

/-- The server refused a statement, the connection broke, or the program
itself gave up. -/
inductive Failure (ε : Type)
  | refused (error : ε)
  | lost
  | thrown (message : String)
  deriving DecidableEq, Repr

/-- A server and what the environment has in store for the queries to come:
`some n` breaks the connection when `n` statements of the query are done. -/
structure Link (σ : Type) where
  server : σ
  faults : List (Option Nat)

/-- The next query sees the first fault. -/
def Link.fault (link : Link σ) : Option Nat := link.faults.head?.join

/-- The link after a query that left the server in `server`. -/
def Link.next (link : Link σ) (server : σ) : Link σ := ⟨server, link.faults.tail⟩

@[simp] theorem Link.next_server (link : Link σ) (server : σ) :
    (link.next server).server = server := rfl

@[simp] theorem Link.next_faults (link : Link σ) (server : σ) :
    (link.next server).faults = link.faults.tail := rfl

theorem Link.faults_ne_nil (link : Link σ) {n : Nat} (h : link.fault = some n) :
    link.faults ≠ [] := by
  intro hnil
  simp [Link.fault, hnil] at h

/-- The fault that a later query sees. -/
def Link.faultAt (link : Link σ) (i : Nat) : Option Nat := link.faults[i]?.join

theorem Link.fault_eq (link : Link σ) : link.fault = link.faultAt 0 := by
  rw [Link.fault, Link.faultAt, List.head?_eq_getElem?]

@[simp] theorem Link.faultAt_next (link : Link σ) (server : σ) (i : Nat) :
    (link.next server).faultAt i = link.faultAt (i + 1) := by
  rw [Link.faultAt, Link.faultAt, Link.next_faults, List.getElem?_tail]

/-- The statements of a query that reach the server. -/
def Link.sent (link : Link σ) (statements : List ι) : List ι :=
  link.fault.elim statements statements.take

/-- Send a list of statements.  The server stops at the first one it refuses. -/
def query (exec : ι → EStateM ε σ PUnit) (statements : List ι) :
    EStateM (Failure ε) (Link σ) PUnit := fun link =>
  match ((link.sent statements).forM exec).run link.server with
  | .error e server => .error (.refused e) (link.next server)
  | .ok _ server =>
    if link.fault.isSome then .error .lost (link.next server) else .ok ⟨⟩ (link.next server)

/-- Send a statement that has no effect when the connection breaks. -/
def queryAtomic (exec : ι → EStateM ε σ PUnit) (statement : ι) :
    EStateM (Failure ε) (Link σ) PUnit := fun link =>
  if link.fault.isSome then .error .lost (link.next link.server)
  else
    match (exec statement).run link.server with
    | .error e server => .error (.refused e) (link.next server)
    | .ok _ server => .ok ⟨⟩ (link.next server)

/-- Read from the server.  A broken connection gives no answer. -/
def select (read : σ → Except ε α) : EStateM (Failure ε) (Link σ) α := fun link =>
  if link.fault.isSome then .error .lost (link.next link.server)
  else
    match read link.server with
    | .error e => .error (.refused e) (link.next link.server)
    | .ok a => .ok a (link.next link.server)

theorem Link.prefix_sent (link : Link σ) (statements : List ι) :
    link.sent statements <+: statements := by
  unfold Link.sent
  cases link.fault with
  | none => exact List.prefix_rfl
  | some n => exact List.take_prefix n statements

/-- A query does a part of its statements, and all of them when it returns. -/
theorem ensures_query {exec : ι → EStateM ε σ PUnit} {statements : List ι} {link : Link σ}
    {Q : PUnit → Link σ → Prop} {E : Failure ε → Link σ → Prop}
    (h : ∀ sent, sent <+: statements → Ensures (sent.forM exec) link.server
      (fun _ server => (sent = statements → Q ⟨⟩ (link.next server)) ∧
        (link.faults ≠ [] → E .lost (link.next server)))
      (fun e server => E (.refused e) (link.next server))) :
    Ensures (query exec statements) link Q E := by
  have hsent := h _ (link.prefix_sent statements)
  cases hrun : ((link.sent statements).forM exec).run link.server with
  | error e server =>
    have hres : (query exec statements).run link = .error (.refused e) (link.next server) := by
      show query exec statements link = _
      rw [query, hrun]
    exact ensures_error hres (hsent.of_error hrun)
  | ok a server =>
    have hok := hsent.of_ok hrun
    cases hfault : link.fault with
    | none =>
      have hall : link.sent statements = statements := by simp [Link.sent, hfault]
      have hres : (query exec statements).run link = .ok ⟨⟩ (link.next server) := by
        show query exec statements link = _
        rw [query, hrun, hfault]
        rfl
      exact ensures_ok hres (hok.1 hall)
    | some n =>
      have hres : (query exec statements).run link = .error .lost (link.next server) := by
        show query exec statements link = _
        rw [query, hrun, hfault]
        rfl
      exact ensures_error hres (hok.2 (link.faults_ne_nil hfault))

/-- A query over a link that does not break. -/
theorem ensures_query_of_no_fault {exec : ι → EStateM ε σ PUnit} {statements : List ι}
    {link : Link σ} {Q : PUnit → Link σ → Prop} {E : Failure ε → Link σ → Prop}
    (hfaults : link.faults = [])
    (h : Ensures (statements.forM exec) link.server (fun _ server => Q ⟨⟩ (link.next server))
      (fun e server => E (.refused e) (link.next server))) :
    Ensures (query exec statements) link Q E := by
  have hfault : link.fault = none := by rw [Link.fault, hfaults]; rfl
  have hsent : link.sent statements = statements := by rw [Link.sent, hfault]; rfl
  cases hrun : (statements.forM exec).run link.server with
  | error e server =>
    have hres : (query exec statements).run link = .error (.refused e) (link.next server) := by
      show query exec statements link = _
      rw [query, hsent, hrun]
    exact ensures_error hres (h.of_error hrun)
  | ok a server =>
    have hres : (query exec statements).run link = .ok ⟨⟩ (link.next server) := by
      show query exec statements link = _
      rw [query, hsent, hrun, hfault]
      rfl
    exact ensures_ok hres (h.of_ok hrun)

/-- A query of one statement. -/
theorem ensures_query_singleton {exec : ι → EStateM ε σ PUnit} {statement : ι} {link : Link σ}
    {Q : PUnit → Link σ → Prop} {E : Failure ε → Link σ → Prop}
    (hnone : link.faults ≠ [] → E .lost (link.next link.server))
    (h : Ensures (exec statement) link.server
      (fun _ server => Q ⟨⟩ (link.next server) ∧ (link.faults ≠ [] → E .lost (link.next server)))
      (fun e server => E (.refused e) (link.next server))) :
    Ensures (query exec [statement]) link Q E := by
  apply ensures_query
  intro sent hsent
  rcases List.prefix_cons_iff.mp hsent with rfl | ⟨rest, rfl, hrest⟩
  · exact ensures_pure ⟨by simp, hnone⟩
  · obtain rfl := List.prefix_nil.mp hrest
    apply ensures_bind
    exact h.mono (fun _ _ hok => ensures_pure ⟨fun _ => hok.1, hok.2⟩) (fun _ _ herror => herror)

/-- A statement of its own is lost, or it has the server's answer. -/
theorem ensures_queryAtomic_of_fault {exec : ι → EStateM ε σ PUnit} {statement : ι}
    {link : Link σ} {Q : PUnit → Link σ → Prop} {E : Failure ε → Link σ → Prop}
    (hlost : ∀ n, link.fault = some n → E .lost (link.next link.server))
    (h : link.fault = none → Ensures (exec statement) link.server
      (fun _ server => Q ⟨⟩ (link.next server))
      (fun e server => E (.refused e) (link.next server))) :
    Ensures (queryAtomic exec statement) link Q E := by
  cases hfault : link.fault with
  | none =>
    cases hrun : (exec statement).run link.server with
    | ok a server =>
      have hres : (queryAtomic exec statement).run link = .ok ⟨⟩ (link.next server) := by
        show queryAtomic exec statement link = _
        rw [queryAtomic, hfault, hrun]
        rfl
      exact ensures_ok hres ((h hfault).of_ok hrun)
    | error e server =>
      have hres : (queryAtomic exec statement).run link =
          .error (.refused e) (link.next server) := by
        show queryAtomic exec statement link = _
        rw [queryAtomic, hfault, hrun]
        rfl
      exact ensures_error hres ((h hfault).of_error hrun)
  | some n =>
    have hres : (queryAtomic exec statement).run link = .error .lost (link.next link.server) := by
      show queryAtomic exec statement link = _
      rw [queryAtomic, hfault]
      rfl
    exact ensures_error hres (hlost n hfault)

theorem ensures_queryAtomic {exec : ι → EStateM ε σ PUnit} {statement : ι} {link : Link σ}
    {Q : PUnit → Link σ → Prop} {E : Failure ε → Link σ → Prop}
    (hlost : link.faults ≠ [] → E .lost (link.next link.server))
    (h : Ensures (exec statement) link.server (fun _ server => Q ⟨⟩ (link.next server))
      (fun e server => E (.refused e) (link.next server))) :
    Ensures (queryAtomic exec statement) link Q E :=
  ensures_queryAtomic_of_fault (fun _ hfault => hlost (link.faults_ne_nil hfault)) fun _ => h

/-- A read is lost, or it has the server's answer. -/
theorem ensures_select_of_fault {read : σ → Except ε α} {link : Link σ}
    {Q : α → Link σ → Prop} {E : Failure ε → Link σ → Prop}
    (hlost : ∀ n, link.fault = some n → E .lost (link.next link.server))
    (hok : ∀ a, link.fault = none → read link.server = .ok a → Q a (link.next link.server))
    (hrefused : ∀ e, link.fault = none → read link.server = .error e →
      E (.refused e) (link.next link.server)) :
    Ensures (select read) link Q E := by
  cases hfault : link.fault with
  | none =>
    cases hread : read link.server with
    | ok a =>
      have hres : (select read).run link = .ok a (link.next link.server) := by
        show select read link = _
        rw [select, hfault, hread]
        rfl
      exact ensures_ok hres (hok a hfault hread)
    | error e =>
      have hres : (select read).run link = .error (.refused e) (link.next link.server) := by
        show select read link = _
        rw [select, hfault, hread]
        rfl
      exact ensures_error hres (hrefused e hfault hread)
  | some n =>
    have hres : (select read).run link = .error .lost (link.next link.server) := by
      show select read link = _
      rw [select, hfault]
      rfl
    exact ensures_error hres (hlost n hfault)

theorem ensures_select {read : σ → Except ε α} {link : Link σ}
    {Q : α → Link σ → Prop} {E : Failure ε → Link σ → Prop}
    (hok : ∀ a, read link.server = .ok a → Q a (link.next link.server))
    (hrefused : ∀ e, read link.server = .error e → E (.refused e) (link.next link.server))
    (hlost : link.faults ≠ [] → E .lost (link.next link.server)) :
    Ensures (select read) link Q E :=
  ensures_select_of_fault (fun _ hfault => hlost (link.faults_ne_nil hfault))
    (fun a _ => hok a) fun e _ => hrefused e

end Session
