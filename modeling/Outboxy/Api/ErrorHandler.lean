import Outboxy.Api.DatabaseErrors

/-!
# The error handler of the API

`errorHandlerPlugin` turns what a route throws into a response.  Of a
constraint violation it has the class and the message, and it takes the
violation for a duplicate key when the message has the word "unique" in it.

`conflictsExactly_iff` says for which errors of the drivers that is right.  A
constraint violation that the mapper has no case for gets status 500.  The
text that PostgreSQL's mapper puts in front of the message of a duplicate key
has the word, and MySQL's has not.
-/

namespace Outboxy

/-- What a route throws. -/
inductive ApiError where
  | zod (flattened : Json)
  | notFound (message : String)
  | conflict (message : String)
  | invalidState (message : String)
  | validation (message : String) (details : Json)
  /-- An error of Fastify with a `validation`. -/
  | schema (message : String) (validation : Json)
  | database (name : DatabaseErrorClass) (message : String)
  | other (message : String)

/-- An error of an adapter, as a route throws it. -/
def DatabaseError.thrown {ε : Type} (error : DatabaseError ε) : ApiError :=
  .database error.name error.message

structure ReplyBody where
  statusCode : Nat
  error : String
  message : String
  details : Option Json := none
  requestId : String

structure Reply where
  status : Nat
  body : ReplyBody

/-- `error.message.toLowerCase().includes("unique")` -/
def isUniqueViolation (message : String) : Bool := includes (toLowerCase message) "unique"

/-- The handler, which knows the id of the request. -/
def errorHandler (isProduction : Bool) (requestId : String) : ApiError → Reply
  | .zod flattened =>
    ⟨400, { statusCode := 400, error := "Validation Error", message := "Request validation failed",
            details := some flattened, requestId }⟩
  | .notFound message => ⟨404, { statusCode := 404, error := "Not Found", message, requestId }⟩
  | .conflict message => ⟨409, { statusCode := 409, error := "Conflict", message, requestId }⟩
  | .invalidState message =>
    ⟨422, { statusCode := 422, error := "Unprocessable Entity", message, requestId }⟩
  | .validation message details =>
    ⟨400, { statusCode := 400, error := "Validation Error", message, details := some details,
            requestId }⟩
  | .schema message validation =>
    ⟨400, { statusCode := 400, error := "Validation Error", message, details := some validation,
            requestId }⟩
  | .database .ConstraintViolationError message =>
    let unique := isUniqueViolation message
    ⟨if unique then 409 else 400,
      { statusCode := if unique then 409 else 400
        error := if unique then "Conflict" else "Bad Request"
        message :=
          if unique then "Resource already exists (duplicate key)"
          else "Invalid data (constraint violation)"
        requestId }⟩
  | .database _ message | .other message =>
    ⟨500, { statusCode := 500, error := "Internal Server Error",
            message := if isProduction then "An unexpected error occurred" else message
            requestId }⟩

theorem status_constraintViolation (isProduction : Bool) (requestId message : String) :
    (errorHandler isProduction requestId (.database .ConstraintViolationError message)).status =
      if isUniqueViolation message then 409 else 400 := by
  rw [errorHandler]

/-- Any other error of the database is the server's. -/
theorem status_database {name : DatabaseErrorClass} (h : name ≠ .ConstraintViolationError)
    (isProduction : Bool) (requestId message : String) :
    (errorHandler isProduction requestId (.database name message)).status = 500 := by
  cases name with
  | ConstraintViolationError => exact absurd rfl h
  | DatabaseError | ConnectionError | QueryTimeoutError => rfl

/-- The response to an error of the driver has status 409 for a duplicate key
and 400 for any other constraint violation. -/
def ConflictsExactly (a : Adapter) (error : a.DriverError) : Prop :=
  ∀ isProduction requestId,
    (errorHandler isProduction requestId (a.mapError (.driver error)).thrown).status =
      if a.isDuplicateKey error then 409 else 400

/-! ## The word -/

/-- Only PostgreSQL's text for a duplicate key has the word. -/
theorem isUniqueViolation_duplicateKeyText (a : Adapter) :
    isUniqueViolation a.duplicateKeyText = true ↔ a = .postgres := by
  cases a <;> decide

/-- The text ends with a space, so that the word is in it or in the message
behind it. -/
theorem isUniqueViolation_append (a : Adapter) (message : String) :
    isUniqueViolation (a.duplicateKeyText ++ message) = true ↔
      a = .postgres ∨ isUniqueViolation message = true := by
  have hlast : (toLowerCase a.duplicateKeyText).toList.getLast? = some ' ' := by
    cases a <;> decide
  rw [← isUniqueViolation_duplicateKeyText, isUniqueViolation, isUniqueViolation,
    isUniqueViolation, toLowerCase_append, includes_append_iff hlast (by decide)]

/-! ## The status -/

theorem conflictsExactly_iff_of_mapError {a : Adapter} {error : a.DriverError} {message : String}
    (h : a.mapError (.driver error) =
      .constraintViolation message (a.constraintOf error) error) :
    ConflictsExactly a error ↔ isUniqueViolation message = a.isDuplicateKey error := by
  have hstatus : ∀ isProduction requestId,
      (errorHandler isProduction requestId (a.mapError (.driver error)).thrown).status =
        if isUniqueViolation message then 409 else 400 := by
    intro isProduction requestId
    simp only [h, DatabaseError.thrown, DatabaseError.constraintViolation]
    exact status_constraintViolation isProduction requestId message
  constructor
  · intro hright
    have hcode := (hstatus false "").symm.trans (hright false "")
    cases hunique : isUniqueViolation message <;> cases hkey : a.isDuplicateKey error <;>
      simp [hunique, hkey] at hcode ⊢
  · intro heq isProduction requestId
    rw [hstatus, heq]

/-- What the mapper does not know as a constraint violation gets status 500. -/
theorem isMapped_of_conflictsExactly {a : Adapter} {error : a.DriverError}
    (h : ConflictsExactly a error) : a.isMapped error = true := by
  by_contra hnot
  have hname : (a.mapError (.driver error)).name ≠ .ConstraintViolationError :=
    fun heq => hnot (Adapter.name_mapError_iff.mp heq)
  have hstatus := (status_database hname false "" _).symm.trans (h false "")
  split at hstatus <;> exact absurd hstatus (by decide)

/-- A constraint violation gets the right status just when the mapper has a
case for it, and it is a duplicate key of PostgreSQL, or the driver's message
has the word "unique" in it if it is a duplicate key and has not if it is
not. -/
theorem conflictsExactly_iff (a : Adapter) (error : a.DriverError)
    (h : a.isConstraintViolation error = true) :
    ConflictsExactly a error ↔
      a.isUnmapped error = false ∧
        (a.isDuplicateKey error = true →
          a = .postgres ∨ isUniqueViolation (a.driverMessage error) = true) ∧
        (a.isDuplicateKey error = false → isUniqueViolation (a.driverMessage error) = false) := by
  rw [← Adapter.isMapped_iff h]
  by_cases hmapped : a.isMapped error = true
  · cases hkey : a.isDuplicateKey error with
    | true =>
      rw [conflictsExactly_iff_of_mapError (Adapter.mapError_of_isDuplicateKey hkey), hkey,
        isUniqueViolation_append]
      simp [hmapped]
    | false =>
      rw [conflictsExactly_iff_of_mapError (Adapter.mapError_of_isMapped hmapped hkey), hkey]
      simp [hmapped]
  · exact ⟨fun hright => absurd (isMapped_of_conflictsExactly hright) hmapped,
      fun hright => absurd hright.1 hmapped⟩

namespace Sample

/-- What `pg` raises when the key of an event is taken. -/
def uniqueViolation : Adapter.postgres.DriverError where
  code := some "23505"
  constraint := some "idx_outbox_idempotency"
  message := some "duplicate key value violates unique constraint \"idx_outbox_idempotency\""

/-- What `mysql2` raises then. -/
def duplicateEntry : Adapter.mysql.DriverError where
  errno := some 1062
  sqlMessage := some "Duplicate entry 'order-1' for key 'outbox_events.idx_outbox_idempotency'"
  message := some "Duplicate entry 'order-1' for key 'outbox_events.idx_outbox_idempotency'"

end Sample

/-- On PostgreSQL a duplicate key is a conflict. -/
theorem conflictsExactly_uniqueViolation : ConflictsExactly .postgres Sample.uniqueViolation :=
  (conflictsExactly_iff .postgres Sample.uniqueViolation (by decide)).mpr
    ⟨by decide, fun _ => Or.inl rfl, fun h => nomatch h⟩

/-- On MySQL it is not. -/
theorem not_conflictsExactly :
    Adapter.mysql.isDuplicateKey Sample.duplicateEntry = true ∧
      ¬ConflictsExactly .mysql Sample.duplicateEntry := by
  refine ⟨rfl, fun h => ?_⟩
  rw [conflictsExactly_iff_of_mapError (Adapter.mapError_of_isDuplicateKey rfl),
    Bool.eq_iff_iff, isUniqueViolation_append] at h
  exact absurd (h.mpr rfl) (by decide)

end Outboxy
