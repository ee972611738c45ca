import Mathlib.Algebra.GroupWithZero.Nat
import Outboxy.Library.Transition
import Outboxy.Schema

/-!
# Connecting and disconnecting

`initialize` and `shutdown` of the two database adapters, with `createPool` and
`shutdownPool`.  Both await the database, and nothing keeps a second call from
starting in between.

Pools are numbered in the order of their creation.  `ended` has those on which
`end` was called, with or without success.  What the driver does is not fixed:
an attempt to connect and a call of `end` may succeed or fail, at any time or
never.

There are three groups.

* The code.  `AdapterState.step` is one call, or one answer of the database.
* The steps.  `Change` lists what a step can do; the inversion lemma is
  `change_of_step`.
* The account.  `coherent_of_reachable` relates the fields of an adapter, and
  `attempts_of_reachable` is about the attempts and the delays of `createPool`.
-/

namespace Outboxy.Lifecycle

open Transition

/-! ## The code -/

/-- What both configurations say of a connection, after their defaults. -/
structure ConnectionConfig where
  maxRetries : Nat
  retryDelayMs : Nat
  /-- What `parseConnectionString` returns or throws on MySQL. -/
  parsed : Except String PUnit

abbrev PoolId := Nat

abbrev CallId := Nat

/-- The variables of `createPool`, with the delays that it has asked for.  On
MySQL, `pool` is the pool of the last attempt. -/
structure Connection where
  pool : PoolId
  attempt : Nat
  delays : List Nat
  lastError : Option String
deriving DecidableEq

/-- A call of `initialize` or `shutdown`. -/
inductive CallState where
  | unused
  /-- `createPool` tests the connection. -/
  | connecting (c : Connection)
  /-- `createPool` waits before the next attempt. -/
  | sleeping (c : Connection)
  /-- `createPool` awaits the `end` of its pool. -/
  | ending (c : Connection)
  /-- `shutdown` awaits the `end` of the pool; `again` if `end` was called on
  it before. -/
  | shuttingDown (pool : PoolId) (timeoutMs : Nat) (again : Bool)
  | resolved
  | rejected (message : String)
  /-- `createPool` has thrown a `ConnectionError`. -/
  | failed (c : Connection) (message : String)
deriving DecidableEq

/-- The call awaits something. -/
def CallState.inFlight : CallState → Bool
  | .connecting _ | .sleeping _ | .ending _ | .shuttingDown .. => true
  | _ => false

/-- The fields of an adapter, with its pools and its calls.  A repository is
known by its pool. -/
structure AdapterState where
  pool : Option PoolId
  eventRepository : Option PoolId
  eventService : Option PoolId
  maintenance : Option PoolId
  initialized : Bool
  created : PoolId
  ended : List PoolId
  calls : CallId → CallState

/-- A call, or an answer of the database to one. -/
inductive AdapterEvent where
  | initializeCalled (call : CallId)
  | connected (call : CallId)
  | connectFails (call : CallId) (error : String)
  | delayOver (call : CallId)
  /-- The `end` of `createPool` is settled, in one way or the other. -/
  | endSettled (call : CallId)
  | shutdownCalled (call : CallId) (timeoutMs : Nat)
  | endResolves (call : CallId)
  | endRejects (call : CallId) (error : String)
  | timeout (call : CallId)
deriving DecidableEq

/-- The answers after which a call goes on with another pool, or without. -/
def AdapterEvent.movesPool : AdapterEvent → Bool
  | .connected _ | .connectFails .. | .endResolves _ => true
  | _ => false

/-- How often `createPool` tries to connect. -/
def ConnectionConfig.attempts (config : ConnectionConfig) : Adapter → Nat
  | .postgres => config.maxRetries
  | .mysql => config.maxRetries + 1

/-- The delay after a failed attempt. -/
def ConnectionConfig.delayMs (config : ConnectionConfig) (attempt : Nat) : Nat :=
  config.retryDelayMs * 2 ^ (attempt - 1)

/-- The message of the `ConnectionError`. -/
def connectionFailed (a : Adapter) (attempts : Nat) (lastError : Option String) : String :=
  (match a with
    | .postgres => "Failed to connect to database after "
    | .mysql => "Failed to connect to MySQL after ") ++
  toString attempts ++ " attempts: " ++ lastError.getD "undefined"

def shutdownTimeout (a : Adapter) (timeoutMs : Nat) : String :=
  (match a with
    | .postgres => "Pool shutdown timeout after "
    | .mysql => "Pool shutdown timed out after ") ++ toString timeoutMs ++ "ms"

def notInitialized : Adapter → String
  | .postgres => "PostgresAdapter not initialized. Call initialize() first."
  | .mysql => "MySQLAdapter not initialized. Call initialize() first."

namespace AdapterState

/-- A new adapter. -/
def initial : AdapterState where
  pool := none
  eventRepository := none
  eventService := none
  maintenance := none
  initialized := false
  created := 0
  ended := []
  calls := fun _ => .unused

section Code

variable (a : Adapter) (config : ConnectionConfig) (s : AdapterState) (call : CallId)

def setCall (state : CallState) : AdapterState :=
  { s with calls := Function.update s.calls call state }

/-- `pool.end()` -/
def endPool (pool : PoolId) : AdapterState := { s with ended := pool :: s.ended }

/-- After the last attempt.  PostgreSQL ends its pool; MySQL leaves the pools
of its attempts to themselves. -/
def giveUp (c : Connection) : AdapterState :=
  match a with
  | .postgres => (s.endPool c.pool).setCall call (.ending c)
  | .mysql => s.setCall call
      (.failed c (connectionFailed .mysql (config.attempts .mysql) c.lastError))

/-- `createPool` up to its first `await`.  The pool of PostgreSQL is created
before the loop, which makes no attempt if there are no retries. -/
def createPool : AdapterState :=
  let c : Connection := ⟨s.created, 1, [], none⟩
  let opened := { s with created := s.created + 1 }
  if 1 ≤ config.attempts a then opened.setCall call (.connecting c)
  else opened.giveUp a config call c

/-- `initialize` up to its `await`. -/
def initializeCalled : AdapterState :=
  if s.initialized then s.setCall call .resolved
  else
    match a, config.parsed with
    | .mysql, .error message => s.setCall call (.rejected message)
    | _, _ => s.createPool a config call

/-- The rest of `initialize` after `createPool`. -/
def connected (c : Connection) : AdapterState :=
  { s with
    pool := some c.pool
    eventRepository := some c.pool
    eventService := some c.pool
    maintenance := some c.pool
    initialized := true }.setCall call .resolved

def connectFails (c : Connection) (error : String) : AdapterState :=
  let c := { c with lastError := some error }
  if c.attempt < config.attempts a then
    s.setCall call (.sleeping { c with delays := c.delays ++ [config.delayMs c.attempt] })
  else s.giveUp a config call c

/-- The next attempt.  MySQL creates a pool for it. -/
def delayOver (c : Connection) : AdapterState :=
  match a with
  | .postgres => s.setCall call (.connecting { c with attempt := c.attempt + 1 })
  | .mysql => { s with created := s.created + 1 }.setCall call
      (.connecting { c with pool := s.created, attempt := c.attempt + 1 })

/-- `shutdown` up to its `await`. -/
def shutdownCalled (timeoutMs : Nat) : AdapterState :=
  match s.initialized, s.pool with
  | true, some pool =>
    (s.endPool pool).setCall call (.shuttingDown pool timeoutMs (decide (pool ∈ s.ended)))
  | _, _ => s.setCall call .resolved

/-- The rest of `shutdown` after `shutdownPool`. -/
def shutDown : AdapterState :=
  { s with
    pool := none
    eventRepository := none
    eventService := none
    maintenance := none
    initialized := false }.setCall call .resolved

def step : AdapterEvent → Option AdapterState
  | .initializeCalled call =>
    match s.calls call with
    | .unused => some (s.initializeCalled a config call)
    | _ => none
  | .connected call =>
    match s.calls call with
    | .connecting c => some (s.connected call c)
    | _ => none
  | .connectFails call error =>
    match s.calls call with
    | .connecting c => some (s.connectFails a config call c error)
    | _ => none
  | .delayOver call =>
    match s.calls call with
    | .sleeping c => some (s.delayOver a call c)
    | _ => none
  | .endSettled call =>
    match s.calls call with
    | .ending c => some (s.setCall call
        (.failed c (connectionFailed a (config.attempts a) c.lastError)))
    | _ => none
  | .shutdownCalled call timeoutMs =>
    match s.calls call with
    | .unused => some (s.shutdownCalled call timeoutMs)
    | _ => none
  | .endResolves call =>
    match s.calls call with
    | .shuttingDown .. => some (s.shutDown call)
    | _ => none
  | .endRejects call error =>
    match s.calls call with
    | .shuttingDown .. => some (s.setCall call (.rejected error))
    | _ => none
  | .timeout call =>
    match s.calls call with
    | .shuttingDown _ timeoutMs _ => some (s.setCall call (.rejected (shutdownTimeout a timeoutMs)))
    | _ => none

def ensureInitialized : Except String PUnit :=
  if !s.initialized || s.pool.isNone then throw (notInitialized a) else return

/-- The getters, with the field that each reads. -/
def read (field : AdapterState → Option PoolId) : Except String (Option PoolId) := do
  s.ensureInitialized a
  return field s

def getClient : Except String (Option PoolId) := s.read a AdapterState.pool

def getEventRepository : Except String (Option PoolId) := s.read a AdapterState.eventRepository

def getEventService : Except String (Option PoolId) := s.read a AdapterState.eventService

def getMaintenance : Except String (Option PoolId) := s.read a AdapterState.maintenance

end Code

@[simp] theorem setCall_calls (s : AdapterState) (call : CallId) (state : CallState) :
    (s.setCall call state).calls = Function.update s.calls call state := rfl

@[simp] theorem setCall_pool (s : AdapterState) (call : CallId) (state : CallState) :
    (s.setCall call state).pool = s.pool := rfl

@[simp] theorem setCall_created (s : AdapterState) (call : CallId) (state : CallState) :
    (s.setCall call state).created = s.created := rfl

@[simp] theorem setCall_ended (s : AdapterState) (call : CallId) (state : CallState) :
    (s.setCall call state).ended = s.ended := rfl

end AdapterState

/-! ## The steps -/

section Steps

variable {a : Adapter} {config : ConnectionConfig} {s s' : AdapterState} {event : AdapterEvent}

/-- What `createPool` does after its last attempt. -/
inductive GivesUp (a : Adapter) (config : ConnectionConfig) (s : AdapterState) (call : CallId)
    (c : Connection) : AdapterState → Prop
  | ending (hpostgres : a = .postgres) :
      GivesUp a config s call c ((s.endPool c.pool).setCall call (.ending c))
  | failed (hmysql : a = .mysql) : GivesUp a config s call c
      (s.setCall call (.failed c (connectionFailed .mysql (config.attempts .mysql) c.lastError)))

inductive Change (a : Adapter) (config : ConnectionConfig) (s : AdapterState) :
    AdapterEvent → AdapterState → Prop
  /-- There is nothing to do. -/
  | returned (event : AdapterEvent) (call : CallId) (hevent : event.movesPool = false)
      (hunused : s.calls call = .unused) :
      Change a config s event (s.setCall call .resolved)
  /-- The call throws. -/
  | thrown (event : AdapterEvent) (call : CallId) (message : String)
      (hevent : event.movesPool = false)
      (hlive : s.calls call = .unused ∨
        ∃ pool timeoutMs again, s.calls call = .shuttingDown pool timeoutMs again) :
      Change a config s event (s.setCall call (.rejected message))
  | opened (call : CallId) (hunused : s.calls call = .unused) (hclosed : s.initialized = false)
      (hattempts : 1 ≤ config.attempts a) :
      Change a config s (.initializeCalled call)
        ({ s with created := s.created + 1 }.setCall call (.connecting ⟨s.created, 1, [], none⟩))
  /-- There are no attempts. -/
  | skipped (call : CallId) (hunused : s.calls call = .unused) (hclosed : s.initialized = false)
      (hpostgres : a = .postgres) (hattempts : config.attempts a = 0) :
      Change a config s (.initializeCalled call)
        (({ s with created := s.created + 1 }.endPool s.created).setCall call
          (.ending ⟨s.created, 1, [], none⟩))
  | connected (call : CallId) (c : Connection) (hcall : s.calls call = .connecting c) :
      Change a config s (.connected call) (s.connected call c)
  | slept (call : CallId) (c : Connection) (error : String) (hcall : s.calls call = .connecting c)
      (hmore : c.attempt < config.attempts a) :
      Change a config s (.connectFails call error) (s.setCall call
        (.sleeping { c with
          lastError := some error
          delays := c.delays ++ [config.delayMs c.attempt] }))
  | gaveUp (call : CallId) (c : Connection) (error : String) (s' : AdapterState)
      (hcall : s.calls call = .connecting c) (hlast : config.attempts a ≤ c.attempt)
      (hends : GivesUp a config s call { c with lastError := some error } s') :
      Change a config s (.connectFails call error) s'
  | retried (call : CallId) (c : Connection) (hpostgres : a = .postgres)
      (hcall : s.calls call = .sleeping c) :
      Change a config s (.delayOver call)
        (s.setCall call (.connecting { c with attempt := c.attempt + 1 }))
  | reopened (call : CallId) (c : Connection) (hmysql : a = .mysql)
      (hcall : s.calls call = .sleeping c) :
      Change a config s (.delayOver call) ({ s with created := s.created + 1 }.setCall call
        (.connecting { c with pool := s.created, attempt := c.attempt + 1 }))
  | failed (call : CallId) (c : Connection) (hcall : s.calls call = .ending c) :
      Change a config s (.endSettled call) (s.setCall call
        (.failed c (connectionFailed a (config.attempts a) c.lastError)))
  | shuttingDown (call : CallId) (timeoutMs : Nat) (pool : PoolId)
      (hunused : s.calls call = .unused) (hopen : s.initialized = true)
      (hpool : s.pool = some pool) :
      Change a config s (.shutdownCalled call timeoutMs) ((s.endPool pool).setCall call
        (.shuttingDown pool timeoutMs (decide (pool ∈ s.ended))))
  | shutDown (call : CallId) (pool : PoolId) (timeoutMs : Nat) (again : Bool)
      (hcall : s.calls call = .shuttingDown pool timeoutMs again) :
      Change a config s (.endResolves call) (s.shutDown call)

theorem givesUp_giveUp (call : CallId) (c : Connection) :
    GivesUp a config s call c (s.giveUp a config call c) := by
  cases a with
  | postgres => exact .ending rfl
  | mysql => exact .failed rfl

theorem createPool_change {call : CallId} (hunused : s.calls call = .unused)
    (hclosed : s.initialized = false) :
    Change a config s (.initializeCalled call) (s.createPool a config call) := by
  rw [AdapterState.createPool]
  split
  · next h => exact .opened call hunused hclosed h
  · next h =>
    cases a with
    | postgres => exact .skipped call hunused hclosed rfl (by omega)
    | mysql => exact absurd (Nat.le_add_left 1 _) h

theorem initializeCalled_change {call : CallId} (hunused : s.calls call = .unused) :
    Change a config s (.initializeCalled call) (s.initializeCalled a config call) := by
  unfold AdapterState.initializeCalled
  split
  · exact .returned _ call rfl hunused
  · next hclosed =>
    have hclosed : s.initialized = false := by simpa using hclosed
    split
    · exact .thrown _ call _ rfl (.inl hunused)
    · exact createPool_change hunused hclosed

theorem connectFails_change {call : CallId} {c : Connection} {error : String}
    (hcall : s.calls call = .connecting c) :
    Change a config s (.connectFails call error) (s.connectFails a config call c error) := by
  rw [AdapterState.connectFails]
  dsimp only
  split
  · next h => exact .slept call c error hcall h
  · next h => exact .gaveUp call c error _ hcall (by omega) (givesUp_giveUp call _)

theorem shutdownCalled_change {call : CallId} {timeoutMs : Nat} (hunused : s.calls call = .unused) :
    Change a config s (.shutdownCalled call timeoutMs) (s.shutdownCalled call timeoutMs) := by
  unfold AdapterState.shutdownCalled
  split
  · next pool hopen hpool => exact .shuttingDown call timeoutMs pool hunused hopen hpool
  · exact .returned _ call rfl hunused

theorem change_of_step (h : s.step a config event = some s') : Change a config s event s' := by
  cases event with
  | initializeCalled call =>
    rw [AdapterState.step] at h
    split at h
    · next hcall =>
      obtain rfl := Option.some.inj h
      exact initializeCalled_change hcall
    · exact absurd h (by simp)
  | connected call =>
    rw [AdapterState.step] at h
    split at h
    · next c hcall =>
      obtain rfl := Option.some.inj h
      exact .connected call c hcall
    · exact absurd h (by simp)
  | connectFails call error =>
    rw [AdapterState.step] at h
    split at h
    · next c hcall =>
      obtain rfl := Option.some.inj h
      exact connectFails_change hcall
    · exact absurd h (by simp)
  | delayOver call =>
    rw [AdapterState.step] at h
    split at h
    · next c hcall =>
      obtain rfl := Option.some.inj h
      cases a with
      | postgres => exact .retried call c rfl hcall
      | mysql => exact .reopened call c rfl hcall
    · exact absurd h (by simp)
  | endSettled call =>
    rw [AdapterState.step] at h
    split at h
    · next c hcall =>
      obtain rfl := Option.some.inj h
      exact .failed call c hcall
    · exact absurd h (by simp)
  | shutdownCalled call timeoutMs =>
    rw [AdapterState.step] at h
    split at h
    · next hcall =>
      obtain rfl := Option.some.inj h
      exact shutdownCalled_change hcall
    · exact absurd h (by simp)
  | endResolves call =>
    rw [AdapterState.step] at h
    split at h
    · next pool timeoutMs again hcall =>
      obtain rfl := Option.some.inj h
      exact .shutDown call pool timeoutMs again hcall
    · exact absurd h (by simp)
  | endRejects call error =>
    rw [AdapterState.step] at h
    split at h
    · next pool timeoutMs again hcall =>
      obtain rfl := Option.some.inj h
      exact .thrown _ call error rfl (.inr ⟨pool, timeoutMs, again, hcall⟩)
    · exact absurd h (by simp)
  | timeout call =>
    rw [AdapterState.step] at h
    split at h
    · next pool timeoutMs again hcall =>
      obtain rfl := Option.some.inj h
      exact .thrown _ call _ rfl (.inr ⟨pool, timeoutMs, again, hcall⟩)
    · exact absurd h (by simp)

end Steps

/-- An adapter from its construction on. -/
def databaseAdapter (a : Adapter) (config : ConnectionConfig) :
    System AdapterState AdapterEvent where
  init s := s = .initial
  step := AdapterState.step a config

section Account

variable {a : Adapter} {config : ConnectionConfig} {s s' : AdapterState} {event : AdapterEvent}

/-! ## The fields of an adapter -/

/-- An adapter is initialized just when it has a pool, and all that it hands
out works on this pool. -/
structure Coherent (s : AdapterState) : Prop where
  initialized : s.initialized = s.pool.isSome
  eventRepository : s.eventRepository = s.pool
  eventService : s.eventService = s.pool
  maintenance : s.maintenance = s.pool

/-- Most steps leave the fields alone. -/
theorem Coherent.of_eq (h : Coherent s) (hpool : s'.pool = s.pool)
    (hinitialized : s'.initialized = s.initialized)
    (hfields : s'.eventRepository = s.eventRepository ∧ s'.eventService = s.eventService ∧
      s'.maintenance = s.maintenance) : Coherent s' := by
  obtain ⟨hrepository, hservice, hmaintenance⟩ := hfields
  refine ⟨?_, ?_, ?_, ?_⟩
  · rw [hinitialized, hpool, h.initialized]
  · rw [hrepository, hpool, h.eventRepository]
  · rw [hservice, hpool, h.eventService]
  · rw [hmaintenance, hpool, h.maintenance]

theorem coherent_of_change (h : Change a config s event s') (hs : Coherent s) : Coherent s' := by
  cases h with
  | connected => exact ⟨rfl, rfl, rfl, rfl⟩
  | shutDown => exact ⟨rfl, rfl, rfl, rfl⟩
  | gaveUp call c error s' _ _ hends =>
    cases hends with
    | ending => exact hs.of_eq rfl rfl ⟨rfl, rfl, rfl⟩
    | failed => exact hs.of_eq rfl rfl ⟨rfl, rfl, rfl⟩
  | _ => exact hs.of_eq rfl rfl ⟨rfl, rfl, rfl⟩

theorem coherent_of_reachable (hs : (databaseAdapter a config).Reachable s) : Coherent s := by
  refine hs.induct ?_ ?_
  · rintro s rfl
    exact ⟨rfl, rfl, rfl, rfl⟩
  · intro s event s' _ hcoherent _ hstep
    have hchange : Change a config s event s' := change_of_step hstep
    exact coherent_of_change hchange hcoherent

/-- What the getters return or throw. -/
theorem Coherent.read_eq (h : Coherent s) {field : AdapterState → Option PoolId}
    (hfield : field s = s.pool) : s.read a field = match s.pool with
      | some pool => .ok (some pool)
      | none => .error (notInitialized a) := by
  unfold AdapterState.read AdapterState.ensureInitialized
  rw [hfield, h.initialized]
  cases s.pool <;> rfl

/-! ## The attempts of `createPool` -/

/-- The delays after the first `count` attempts. -/
def ConnectionConfig.schedule (config : ConnectionConfig) (count : Nat) : List Nat :=
  (List.range count).map fun index => config.delayMs (index + 1)

theorem ConnectionConfig.schedule_succ (config : ConnectionConfig) (count : Nat) :
    config.schedule (count + 1) = config.schedule count ++ [config.delayMs (count + 1)] := by
  rw [ConnectionConfig.schedule, List.range_succ, List.map_append]
  rfl

/-- The delays double, so together they are one short of the next. -/
theorem ConnectionConfig.sum_schedule (config : ConnectionConfig) (count : Nat) :
    (config.schedule count).sum = config.retryDelayMs * (2 ^ count - 1) := by
  induction count with
  | zero => simp [ConnectionConfig.schedule]
  | succ count ih =>
    have hpos : 1 ≤ 2 ^ count := Nat.one_le_two_pow
    rw [config.schedule_succ, List.sum_append, ih, List.sum_singleton, ConnectionConfig.delayMs,
      Nat.add_sub_cancel, ← Nat.mul_add, Nat.pow_succ]
    congr 1
    omega

/-- Where a call of `createPool` is, by its attempts. -/
def AttemptOk (a : Adapter) (config : ConnectionConfig) : CallState → Prop
  | .connecting c => 1 ≤ c.attempt ∧ c.attempt ≤ config.attempts a ∧
      c.delays = config.schedule (c.attempt - 1)
  | .sleeping c => 1 ≤ c.attempt ∧ c.attempt < config.attempts a ∧
      c.delays = config.schedule c.attempt
  | .ending c => c.delays = config.schedule (config.attempts a - 1)
  | .failed c message => c.delays = config.schedule (config.attempts a - 1) ∧
      message = connectionFailed a (config.attempts a) c.lastError
  | _ => True

/-- One call moves on. -/
theorem attempts_update {call : CallId} {state : CallState}
    (hs : ∀ call, AttemptOk a config (s.calls call))
    (hcalls : s'.calls = Function.update s.calls call state) (hstate : AttemptOk a config state)
    (other : CallId) :
    AttemptOk a config (s'.calls other) := by
  rw [hcalls]
  by_cases hother : other = call
  · rw [hother, Function.update_self]
    exact hstate
  · rw [Function.update_of_ne hother]
    exact hs other

theorem attempts_of_change (h : Change a config s event s')
    (hs : ∀ call, AttemptOk a config (s.calls call)) :
    ∀ call, AttemptOk a config (s'.calls call) := by
  cases h with
  | returned => exact attempts_update hs rfl trivial
  | thrown => exact attempts_update hs rfl trivial
  | opened call _ _ hattempts => exact attempts_update hs rfl ⟨le_rfl, hattempts, rfl⟩
  | skipped call _ _ _ hattempts =>
    refine attempts_update hs rfl ?_
    show [] = config.schedule (config.attempts a - 1)
    rw [hattempts]
    rfl
  | connected => exact attempts_update hs rfl trivial
  | slept call c error hcall hmore =>
    obtain ⟨hpos, _, hdelays⟩ : AttemptOk a config (.connecting c) := hcall ▸ hs call
    refine attempts_update hs rfl ⟨hpos, hmore, ?_⟩
    show c.delays ++ [config.delayMs c.attempt] = config.schedule c.attempt
    rw [hdelays, ← Nat.sub_add_cancel hpos, config.schedule_succ, Nat.sub_add_cancel hpos]
  | gaveUp call c error s' hcall hlast hends =>
    obtain ⟨_, hle, hdelays⟩ : AttemptOk a config (.connecting c) := hcall ▸ hs call
    have hattempt : c.attempt = config.attempts a := Nat.le_antisymm hle hlast
    rw [hattempt] at hdelays
    cases hends with
    | ending hpostgres => exact attempts_update hs rfl hdelays
    | failed hmysql =>
      subst hmysql
      exact attempts_update hs rfl ⟨hdelays, rfl⟩
  | retried call c _ hcall =>
    obtain ⟨_, hlt, hdelays⟩ : AttemptOk a config (.sleeping c) := hcall ▸ hs call
    exact attempts_update hs rfl ⟨Nat.le_add_left 1 _, hlt, hdelays⟩
  | reopened call c _ hcall =>
    obtain ⟨_, hlt, hdelays⟩ : AttemptOk a config (.sleeping c) := hcall ▸ hs call
    exact attempts_update hs rfl ⟨Nat.le_add_left 1 _, hlt, hdelays⟩
  | failed call c hcall =>
    have hdelays : AttemptOk a config (.ending c) := hcall ▸ hs call
    exact attempts_update hs rfl ⟨hdelays, rfl⟩
  | shuttingDown => exact attempts_update hs rfl trivial
  | shutDown => exact attempts_update hs rfl trivial

theorem attempts_of_reachable (hs : (databaseAdapter a config).Reachable s) :
    ∀ call, AttemptOk a config (s.calls call) := by
  refine hs.induct (P := fun s => ∀ call, AttemptOk a config (s.calls call)) ?_
    fun s event s' _ hattempts _ (hstep : s.step a config event = some s') =>
      attempts_of_change (change_of_step hstep) hattempts
  rintro s rfl call
  trivial

/-! ## The account -/

structure AdapterAccount (a : Adapter) (config : ConnectionConfig) (s : AdapterState) : Prop where
  coherent : Coherent s
  /-- The getters return one pool, or all of them throw. -/
  getters : (∃ pool, s.getClient a = .ok (some pool) ∧ s.getEventRepository a = .ok (some pool) ∧
      s.getEventService a = .ok (some pool) ∧ s.getMaintenance a = .ok (some pool)) ∨
    ∀ getter ∈ [AdapterState.getClient, AdapterState.getEventRepository,
      AdapterState.getEventService, AdapterState.getMaintenance],
      getter a s = .error (notInitialized a)
  attempts : ∀ call, AttemptOk a config (s.calls call)
  /-- A call that gives up has waited this long. -/
  waited : ∀ call c message, s.calls call = .failed c message →
    c.delays.length = config.attempts a - 1 ∧
      c.delays.sum = config.retryDelayMs * (2 ^ (config.attempts a - 1) - 1)

/-- In every state, an adapter works on one pool or none at all, and each call
of `createPool` keeps to its attempts and delays. -/
theorem adapterAccount_of_reachable (hs : (databaseAdapter a config).Reachable s) :
    AdapterAccount a config s := by
  have hcoherent := coherent_of_reachable hs
  have hattempts := attempts_of_reachable hs
  refine ⟨hcoherent, ?_, hattempts, fun call c message hfailed => ?_⟩
  · have hread : ∀ field : AdapterState → Option PoolId, field s = s.pool → s.read a field = _ :=
      fun field hfield => hcoherent.read_eq hfield
    cases hpool : s.pool with
    | some pool =>
      rw [hpool] at hread
      exact .inl ⟨pool, hread _ hpool, hread _ (hcoherent.eventRepository.trans hpool),
        hread _ (hcoherent.eventService.trans hpool), hread _ (hcoherent.maintenance.trans hpool)⟩
    | none =>
      rw [hpool] at hread
      refine .inr fun getter hgetter => ?_
      simp only [List.mem_cons, List.not_mem_nil, or_false] at hgetter
      rcases hgetter with rfl | rfl | rfl | rfl
      · exact hread _ hpool
      · exact hread _ (hcoherent.eventRepository.trans hpool)
      · exact hread _ (hcoherent.eventService.trans hpool)
      · exact hread _ (hcoherent.maintenance.trans hpool)
  · obtain ⟨hdelays, _⟩ : AttemptOk a config (.failed c message) := hfailed ▸ hattempts call
    rw [hdelays, config.sum_schedule, ConnectionConfig.schedule, List.length_map, List.length_range]
    exact ⟨rfl, rfl⟩

end Account

/-- One retry, after a second. -/
def Sample.oneRetry : ConnectionConfig := ⟨1, 1000, .ok ⟨⟩⟩

/-- MySQL makes one attempt more than it has retries. -/
theorem adapterAccount_of_reachable_refused :
    ∃ s c, (databaseAdapter .mysql Sample.oneRetry).run .initial
        [.initializeCalled 0, .connectFails 0 "refused", .delayOver 0, .connectFails 0 "refused"] =
          some s ∧
      s.calls 0 = .failed c "Failed to connect to MySQL after 2 attempts: refused" ∧
      c.delays = [1000] ∧ AdapterAccount .mysql Sample.oneRetry s := by
  obtain ⟨s, c, hrun, hcall, hdelays⟩ : ∃ s c,
      (databaseAdapter .mysql Sample.oneRetry).run .initial
        [.initializeCalled 0, .connectFails 0 "refused", .delayOver 0, .connectFails 0 "refused"] =
          some s ∧
      s.calls 0 = .failed c "Failed to connect to MySQL after 2 attempts: refused" ∧
      c.delays = [1000] := ⟨_, _, rfl, rfl, rfl⟩
  exact ⟨s, c, hrun, hcall, hdelays,
    adapterAccount_of_reachable (System.Reachable.run (.init rfl) hrun)⟩

end Outboxy.Lifecycle
