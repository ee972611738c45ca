import Outboxy.Schema

/-!
# The SDK's utilities

Errors, validation and serialization, which the outbox client and the inbox
client share.

`publish`, `receive` and their batch variants run in `Sdk`: they read and
write one table and may throw.  A statement that the database rejects has no
result; the caller sees `SdkError.uniqueViolation`.
-/

namespace Outboxy

/-- What a call of the SDK throws.  `validation` is `OutboxyValidationError`
with its message and field. -/
inductive SdkError where
  | validation (message field : String)
  | uniqueViolation
  | unexpected (message : String)
deriving DecidableEq, Repr

/-- A call of the SDK on a table of type `τ`. -/
abbrev Sdk (τ : Type) := StateT τ (Except SdkError)

/-- A row that a `QueryFn` returns.  Only a `SELECT` of the keys fills the
second column. -/
structure QueryRow where
  id : EventId
  idempotencyKey : Option String := none

/-- `await query(statement.sql, statement.params)` for a statement with the
given effect on the table.  A unique index is the only thing that rejects a
statement here. -/
def query {τ β : Type} (statement : τ → Option (β × τ)) : Sdk τ β := fun table =>
  match statement table with
  | some result => .ok result
  | none => .error .uniqueViolation

/-- What the environment supplies for a row: the UUID that
`crypto.randomUUID()` or `gen_random_uuid()` generates for it, and the value
of `NOW()` in the statement that inserts it. -/
structure Stamp where
  id : EventId
  now : Int

theorem bind_eq_ok {ε α β : Type} {x : Except ε α} {f : α → Except ε β} {b : β} :
    (x >>= f) = .ok b ↔ ∃ a, x = .ok a ∧ f a = .ok b := by
  cases x with
  | error e => simp [bind, Except.bind]
  | ok a => simp [bind, Except.bind]

/-! The first step of a call decides how the call goes on. -/

section Run

variable {τ β γ : Type} {s s' : τ} {b : β}

theorem run_bind_ok {x : Sdk τ β} {f : β → Sdk τ γ} (h : x.run s = .ok (b, s')) :
    (x >>= f).run s = (f b).run s' := by
  rw [StateT.run_bind, h]
  rfl

theorem run_bind_error {x : Sdk τ β} {f : β → Sdk τ γ} {e : SdkError} (h : x.run s = .error e) :
    (x >>= f).run s = .error e := by
  rw [StateT.run_bind, h]
  rfl

/-- A call that returns has returned from its first step. -/
theorem run_bind_eq_ok {x : Sdk τ β} {f : β → Sdk τ γ} {r : γ × τ} :
    (x >>= f).run s = .ok r ↔ ∃ b s', x.run s = .ok (b, s') ∧ (f b).run s' = .ok r := by
  rw [StateT.run_bind, bind_eq_ok]
  exact ⟨fun ⟨⟨b, s'⟩, hx, hf⟩ => ⟨b, s', hx, hf⟩, fun ⟨b, s', hx, hf⟩ => ⟨(b, s'), hx, hf⟩⟩

theorem eq_ok_of_run_liftM {x : Except SdkError β}
    (h : (liftM x : Sdk τ β).run s = .ok (b, s')) : x = .ok b := by
  cases x with
  | error e =>
    have herror : (liftM (Except.error e : Except SdkError β) : Sdk τ β).run s = .error e := rfl
    rw [herror] at h
    exact absurd h (by simp)
  | ok b' =>
    obtain ⟨rfl, _⟩ := Prod.mk.inj (Except.ok.inj h)
    rfl

theorem run_liftM {x : Except SdkError β} (h : x = .ok b) :
    (liftM x : Sdk τ β).run s = .ok (b, s) := by
  rw [h]
  rfl

end Run

/-! ## Serialization -/

/-- A value as `JSON.stringify` sees it: it has a JSON text, or it holds a
circular reference or a `BigInt`. -/
inductive JsValue where
  | json (value : Json)
  | unserializable

def safeStringify (value : JsValue) (field : String) : Except SdkError Json :=
  match value with
  | .json value => .ok value
  | .unserializable =>
    .error (.validation
      ("Failed to serialize " ++ field ++
        ". Ensure it contains no circular references or BigInt values.") field)

theorem eq_json_of_safeStringify {value : JsValue} {field : String} {json : Json}
    (h : safeStringify value field = .ok json) : value = .json json := by
  cases value with
  | json value => exact congrArg JsValue.json (Except.ok.inj h)
  | unserializable => exact absurd h (by simp [safeStringify])

/-! ## Validation -/

/-- `event.eventVersion` is an arbitrary number. -/
def validateFields (eventVersion : Option ℚ) : Except SdkError Unit :=
  match eventVersion with
  | none => .ok ()
  | some version =>
    if version.den ≠ 1 ∨ version < 1 then
      .error (.validation "eventVersion must be a positive integer" "eventVersion")
    else .ok ()

/-- The length of a string: the number of its UTF-16 code units. -/
def stringLength (text : String) : Nat :=
  text.toList.foldr (fun c units => units + if c.toNat < 0x10000 then 1 else 2) 0

/-- The characters of `/^[a-zA-Z0-9_\-.:/]+$/`. -/
def isKeyChar (c : Char) : Bool :=
  c.isAlphanum || c = '_' || c = '-' || c = '.' || c = ':' || c = '/'

def validateIdempotencyKey (key : String) : Except SdkError Unit :=
  if stringLength key = 0 then
    .error (.validation "Idempotency key cannot be empty" "idempotencyKey")
  else if stringLength key > 255 then
    .error (.validation "Idempotency key cannot exceed 255 characters" "idempotencyKey")
  else if key.toList.all isKeyChar then .ok ()
  else
    .error (.validation
      ("Idempotency key must contain only alphanumeric characters, dashes, underscores, dots, " ++
        "colons, and forward slashes") "idempotencyKey")

/-- The options of `destinationTypeEnum`. -/
def DestinationType.name : DestinationType → String
  | .http => "http"
  | .kafka => "kafka"
  | .sqs => "sqs"
  | .rabbitmq => "rabbitmq"
  | .pubsub => "pubsub"

def destinationTypes : List DestinationType := [.http, .kafka, .sqs, .rabbitmq, .pubsub]

/-- The destination type that a text names. -/
def validateDestinationType (type : String) : Except SdkError DestinationType :=
  match destinationTypes.find? fun t => t.name = type with
  | some t => .ok t
  | none =>
    .error (.validation
      ("Invalid destinationType: \"" ++ type ++ "\". Must be one of: " ++
        ", ".intercalate (destinationTypes.map DestinationType.name)) "destinationType")

/-- The key passes the check of `publish` and `receive`. -/
abbrev ValidKey (key : String) : Prop := validateIdempotencyKey key = .ok ()

theorem validKey_iff {key : String} :
    ValidKey key ↔ 0 < stringLength key ∧ stringLength key ≤ 255 ∧
      key.toList.all isKeyChar = true := by
  unfold ValidKey validateIdempotencyKey
  split
  · rename_i h
    simp [h]
  · split
    · rename_i h
      simp [Nat.not_le.mpr h]
    · split
      · rename_i hlong hall
        simp only [hall, and_true, true_iff]
        omega
      · rename_i hall
        simp [hall]

theorem ValidKey.ne_empty {key : String} (h : ValidKey key) : key ≠ "" := by
  intro heq
  subst heq
  exact absurd (validKey_iff.mp h).1 (by decide)

end Outboxy
