import Outboxy.Schema
import Outboxy.Text

/-!
# The errors of the two databases

`mapPostgresError` and `mapMySQLError` turn what a driver raises into one of
the error classes of `db-adapter-core`, by the code of the error.  A
constraint violation becomes a `ConstraintViolationError`.  For a duplicate key
the mappers put a text of their own in front of the driver's message, and it is
not the same one.

The databases have more constraint violations than the mappers have cases for.
`isConstraintViolation` is what the databases document, `isMapped` what the
mappers list, and `isMapped_iff` says that the codes of `isUnmapped` are the
difference.
-/

namespace Outboxy

/-! ## Error classes -/

/-- The class of a database error. -/
inductive DatabaseErrorClass where
  | DatabaseError
  | ConnectionError
  | QueryTimeoutError
  | ConstraintViolationError
deriving DecidableEq, Repr

/-- An instance of one of these classes.  `ε` is what the driver raises, and
only a `ConstraintViolationError` names a constraint. -/
structure DatabaseError (ε : Type) where
  name : DatabaseErrorClass
  message : String
  cause : Option ε
  code : Option String
  constraint : Option String

namespace DatabaseError

variable {ε : Type}

/-- `new DatabaseError(message, cause, code)` -/
def database (message : String) (cause : ε) (code : Option String) : DatabaseError ε :=
  ⟨.DatabaseError, message, some cause, code, none⟩

/-- `new ConnectionError(message, cause)` -/
def connection (message : String) (cause : ε) : DatabaseError ε :=
  ⟨.ConnectionError, message, some cause, some "CONNECTION_ERROR", none⟩

/-- `new QueryTimeoutError(message, cause)` -/
def queryTimeout (message : String) (cause : ε) : DatabaseError ε :=
  ⟨.QueryTimeoutError, message, some cause, some "QUERY_TIMEOUT", none⟩

/-- `new ConstraintViolationError(message, constraint, cause)` -/
def constraintViolation (message : String) (constraint : Option String) (cause : ε) :
    DatabaseError ε :=
  ⟨.ConstraintViolationError, message, some cause, some "CONSTRAINT_VIOLATION", constraint⟩

end DatabaseError

/-- What an operation on the database throws: an error of the adapter itself,
or one of the driver. -/
inductive Thrown (ε : Type) where
  | database (error : DatabaseError ε)
  | driver (error : ε)

/-- `text || other` -/
def orElse (text : Option String) (other : String) : String :=
  match text with
  | none | some "" => other
  | some text => text

/-! ## PostgreSQL -/

/-- What the `pg` driver raises, as far as the mapper reads it. -/
structure PostgresError where
  code : Option String
  constraint : Option String
  message : Option String

namespace PG_ERROR_CODES

def UNIQUE_VIOLATION : String := "23505"

def FOREIGN_KEY_VIOLATION : String := "23503"

def CHECK_VIOLATION : String := "23514"

def NOT_NULL_VIOLATION : String := "23502"

def CONNECTION_FAILURE : String := "08006"

def CONNECTION_EXCEPTION : String := "08000"

def CONNECTION_DOES_NOT_EXIST : String := "08003"

def SQLCLIENT_UNABLE_TO_ESTABLISH : String := "08001"

def SQLSERVER_REJECTED : String := "08004"

def QUERY_CANCELED : String := "57014"

def LOCK_NOT_AVAILABLE : String := "55P03"

def ADMIN_SHUTDOWN : String := "57P01"

end PG_ERROR_CODES

/-- The codes of class 23 of PostgreSQL, "Integrity Constraint Violation". -/
def postgresIntegrityErrors : List String :=
  ["23000", "23001", "23502", "23503", "23505", "23514", "23P01"]

open PG_ERROR_CODES in
def mapPostgresError : Thrown PostgresError → DatabaseError PostgresError
  | .database error => error
  | .driver pgError =>
    let message := orElse pgError.message "Unknown database error"
    if pgError.code = some UNIQUE_VIOLATION then
      .constraintViolation ("Unique constraint violation: " ++ message) pgError.constraint pgError
    else if pgError.code = some FOREIGN_KEY_VIOLATION ∨ pgError.code = some CHECK_VIOLATION ∨
        pgError.code = some NOT_NULL_VIOLATION then
      .constraintViolation message pgError.constraint pgError
    else if pgError.code = some CONNECTION_FAILURE ∨ pgError.code = some CONNECTION_EXCEPTION ∨
        pgError.code = some CONNECTION_DOES_NOT_EXIST ∨
        pgError.code = some SQLCLIENT_UNABLE_TO_ESTABLISH ∨
        pgError.code = some SQLSERVER_REJECTED ∨ pgError.code = some ADMIN_SHUTDOWN then
      .connection message pgError
    else if pgError.code = some QUERY_CANCELED then .queryTimeout message pgError
    else if pgError.code = some LOCK_NOT_AVAILABLE then
      .queryTimeout "Lock acquisition timeout" pgError
    else .database message pgError pgError.code

/-! ## MySQL -/

/-- What the `mysql2` driver raises, as far as the mapper reads it. -/
structure MySQLError where
  errno : Option Int
  sqlMessage : Option String
  message : Option String

namespace MYSQL_ERROR_CODES

def DUPLICATE_ENTRY : Int := 1062

def FOREIGN_KEY_CONSTRAINT : Int := 1451

def FOREIGN_KEY_CONSTRAINT_ADD : Int := 1452

def CHECK_CONSTRAINT : Int := 3819

def NOT_NULL_VIOLATION : Int := 1048

def CONNECTION_ERROR : Int := 2002

def CONNECTION_LOST : Int := 2013

def ACCESS_DENIED : Int := 1045

def SERVER_GONE : Int := 2006

def SERVER_SHUTDOWN : Int := 1053

def LOCK_WAIT_TIMEOUT : Int := 1205

def DEADLOCK : Int := 1213

def QUERY_INTERRUPTED : Int := 1317

end MYSQL_ERROR_CODES

/-- The errors of the MySQL server for a row that a key, a foreign key, a check
or a column without a default refuses. -/
def mysqlIntegrityErrors : List Int :=
  [1022, 1048, 1062, 1169, 1216, 1217, 1263, 1364, 1451, 1452, 1557, 1586, 1761, 1762, 1859, 3819]

open MYSQL_ERROR_CODES in
def mapMySQLError : Thrown MySQLError → DatabaseError MySQLError
  | .database error => error
  | .driver mysqlError =>
    let message :=
      orElse mysqlError.sqlMessage (orElse mysqlError.message "Unknown database error")
    let errno := mysqlError.errno
    if errno = some DUPLICATE_ENTRY then
      .constraintViolation ("Duplicate entry: " ++ message) none mysqlError
    else if errno = some FOREIGN_KEY_CONSTRAINT ∨ errno = some FOREIGN_KEY_CONSTRAINT_ADD ∨
        errno = some CHECK_CONSTRAINT ∨ errno = some NOT_NULL_VIOLATION then
      .constraintViolation message none mysqlError
    else if errno = some CONNECTION_ERROR ∨ errno = some CONNECTION_LOST ∨
        errno = some ACCESS_DENIED ∨ errno = some SERVER_GONE ∨ errno = some SERVER_SHUTDOWN then
      .connection message mysqlError
    else if errno = some LOCK_WAIT_TIMEOUT ∨ errno = some QUERY_INTERRUPTED then
      .queryTimeout message mysqlError
    else if errno = some DEADLOCK then
      .database "Deadlock detected" mysqlError (some "DEADLOCK")
    else .database message mysqlError (some (errno.elim "undefined" toString))

/-! ## Both drivers -/

namespace Adapter

/-- What the driver of an adapter raises. -/
abbrev DriverError : Adapter → Type
  | .postgres => PostgresError
  | .mysql => MySQLError

/-- The mapper of an adapter. -/
def mapError : (a : Adapter) → Thrown a.DriverError → DatabaseError a.DriverError
  | .postgres => mapPostgresError
  | .mysql => mapMySQLError

/-- The driver's message, as the mapper reads it. -/
def driverMessage : (a : Adapter) → a.DriverError → String
  | .postgres, error => orElse error.message "Unknown database error"
  | .mysql, error => orElse error.sqlMessage (orElse error.message "Unknown database error")

/-- The database refused a second row under a unique key. -/
def isDuplicateKey : (a : Adapter) → a.DriverError → Bool
  | .postgres, error => decide (error.code = some PG_ERROR_CODES.UNIQUE_VIOLATION)
  | .mysql, error => decide (error.errno = some MYSQL_ERROR_CODES.DUPLICATE_ENTRY)

/-- The database refused a row because of a constraint. -/
def isConstraintViolation : (a : Adapter) → a.DriverError → Bool
  | .postgres, error => decide (error.code ∈ postgresIntegrityErrors.map some)
  | .mysql, error => decide (error.errno ∈ mysqlIntegrityErrors.map some)

open PG_ERROR_CODES MYSQL_ERROR_CODES in
/-- The codes that the mapper lists as constraint violations: a unique key, a
foreign key, a check, or a column that may not be null. -/
def isMapped : (a : Adapter) → a.DriverError → Bool
  | .postgres, error =>
    decide (error.code ∈ [UNIQUE_VIOLATION, FOREIGN_KEY_VIOLATION, CHECK_VIOLATION,
      PG_ERROR_CODES.NOT_NULL_VIOLATION].map some)
  | .mysql, error =>
    decide (error.errno ∈ [DUPLICATE_ENTRY, FOREIGN_KEY_CONSTRAINT, FOREIGN_KEY_CONSTRAINT_ADD,
      CHECK_CONSTRAINT, MYSQL_ERROR_CODES.NOT_NULL_VIOLATION].map some)

/-- The mapper has no case for this constraint violation: one without a code of
its own, a restricted delete or an exclusion constraint of PostgreSQL, and a
column without a default, an older code or a duplicate key under another code
of MySQL. -/
def isUnmapped : (a : Adapter) → a.DriverError → Bool
  | .postgres, error => decide (error.code ∈ ["23000", "23001", "23P01"].map some)
  | .mysql, error =>
    decide (error.errno ∈
      [1022, 1169, 1216, 1217, 1263, 1364, 1557, 1586, 1761, 1762, 1859].map some)

/-- The text in front of the message of a duplicate key. -/
def duplicateKeyText : Adapter → String
  | .postgres => "Unique constraint violation: "
  | .mysql => "Duplicate entry: "

/-- The constraint that the driver names; MySQL names none. -/
def constraintOf : (a : Adapter) → a.DriverError → Option String
  | .postgres, error => error.constraint
  | .mysql, _ => none

variable {a : Adapter} {error : a.DriverError}

theorem mapError_of_isDuplicateKey (h : a.isDuplicateKey error = true) :
    a.mapError (.driver error) =
      .constraintViolation (a.duplicateKeyText ++ a.driverMessage error) (a.constraintOf error)
        error := by
  cases a with
  | postgres => exact if_pos (of_decide_eq_true h)
  | mysql => exact if_pos (of_decide_eq_true h)

/-- The mapper has a case for every constraint violation but these. -/
theorem isMapped_iff (h : a.isConstraintViolation error = true) :
    a.isMapped error = true ↔ a.isUnmapped error = false := by
  cases a with
  | postgres =>
    have hcode : ∀ code ∈ postgresIntegrityErrors.map some,
        decide (code ∈ [PG_ERROR_CODES.UNIQUE_VIOLATION, PG_ERROR_CODES.FOREIGN_KEY_VIOLATION,
            PG_ERROR_CODES.CHECK_VIOLATION, PG_ERROR_CODES.NOT_NULL_VIOLATION].map some) = true ↔
          decide (code ∈ ["23000", "23001", "23P01"].map some) = false := by decide
    exact hcode error.code (of_decide_eq_true h)
  | mysql =>
    have herrno : ∀ errno ∈ mysqlIntegrityErrors.map some,
        decide (errno ∈ [MYSQL_ERROR_CODES.DUPLICATE_ENTRY,
            MYSQL_ERROR_CODES.FOREIGN_KEY_CONSTRAINT, MYSQL_ERROR_CODES.FOREIGN_KEY_CONSTRAINT_ADD,
            MYSQL_ERROR_CODES.CHECK_CONSTRAINT,
            MYSQL_ERROR_CODES.NOT_NULL_VIOLATION].map some) = true ↔
          decide (errno ∈ [1022, 1169, 1216, 1217, 1263, 1364, 1557, 1586, 1761, 1762,
            1859].map some) = false := by decide
    exact herrno error.errno (of_decide_eq_true h)

/-- The message of any other constraint violation is the driver's own. -/
theorem mapError_of_isMapped (h : a.isMapped error = true)
    (hother : a.isDuplicateKey error = false) :
    a.mapError (.driver error) =
      .constraintViolation (a.driverMessage error) (a.constraintOf error) error := by
  cases a with
  | postgres =>
    have hcode := of_decide_eq_true h
    have hne := of_decide_eq_false hother
    refine (if_neg hne).trans (if_pos ?_)
    simpa [hne, or_assoc] using hcode
  | mysql =>
    have herrno := of_decide_eq_true h
    have hne := of_decide_eq_false hother
    refine (if_neg hne).trans (if_pos ?_)
    simpa [hne, or_assoc] using herrno

/-- These are the errors that become a `ConstraintViolationError`. -/
theorem name_mapError_iff :
    (a.mapError (.driver error)).name = .ConstraintViolationError ↔ a.isMapped error = true := by
  constructor
  · intro hname
    by_contra h
    rw [Bool.not_eq_true] at h
    cases a with
    | postgres =>
      obtain ⟨hunique, hforeign, hcheck, hnull⟩ := by
        simpa using of_decide_eq_false h
      simp only [mapError, mapPostgresError, hunique, hforeign, hcheck, hnull, if_false, or_self]
        at hname
      split_ifs at hname <;> exact nomatch hname
    | mysql =>
      obtain ⟨hentry, hforeign, hadd, hcheck, hnull⟩ := by
        simpa using of_decide_eq_false h
      simp only [mapError, mapMySQLError, hentry, hforeign, hadd, hcheck, hnull, if_false, or_self]
        at hname
      split_ifs at hname <;> exact nomatch hname
  · intro h
    cases hother : a.isDuplicateKey error with
    | true => rw [mapError_of_isDuplicateKey hother]; rfl
    | false => rw [mapError_of_isMapped h hother]; rfl

end Adapter

end Outboxy
