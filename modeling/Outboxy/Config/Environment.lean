import Outboxy.Config.WorkerConfig

/-!
# The configuration and the environment

`environment` writes a configuration to the variables that `loadConfig` reads.
Every kind of field but one is read back as it was written:
`Boolean("false")` is `true`, so `loadConfig_environment` gives the
configuration with its booleans on, and `roundTrips_iff` says when that is the
configuration that was written.
-/

namespace Outboxy.Config

/-! ## One field -/

namespace Kind

/-- The string form of a value.  An optional text that is `undefined` has
none. -/
def print (js : NumberRuntime) : (kind : Kind) → kind.Value → Option String
  | .positiveInt, value | .nonnegativeInt, value => some (js.string (show ℤ from value))
  | .positive, value => some (js.string value)
  | .boolean, value => some (if value then "true" else "false")
  | .logLevel, value => some value.text
  | .text, value => some value
  | .optionalText, value => value

/-- `Number(String(x))` is `x` for the number, if the value is one. -/
def Prints (js : NumberRuntime) : (kind : Kind) → kind.Value → Prop
  | .positiveInt, value | .nonnegativeInt, value =>
    js.number (js.string (show ℤ from value)) = some ((show ℤ from value) : ℚ)
  | .positive, value => js.number (js.string value) = some value
  | .boolean, _ | .logLevel, _ | .text, _ | .optionalText, _ => True

/-- The value with a boolean turned on. -/
def switchOn : (kind : Kind) → kind.Value → kind.Value
  | .boolean, _ => true
  | .positiveInt, value | .nonnegativeInt, value | .positive, value | .logLevel, value
  | .text, value | .optionalText, value => value

theorem integer_intCast (n : ℤ) : integer n = some n := by
  simp [integer]

theorem ofText_text (level : LogLevel) : LogLevel.ofText level.text = some level := by
  cases level <;> decide

/-- What is printed is read back, except that a boolean reads as `true`. -/
theorem coerce_print {js : NumberRuntime} {kind : Kind} {value : kind.Value} {written : String}
    (hprints : kind.Prints js value) (hwritten : kind.print js value = some written) :
    kind.coerce js written = some (kind.switchOn value) := by
  cases kind with
  | positiveInt | nonnegativeInt =>
    obtain rfl : js.string (show ℤ from value) = written := by simpa [print] using hwritten
    show (js.number _).bind integer = _
    rw [show js.number (js.string (show ℤ from value)) = _ from hprints]
    exact integer_intCast _
  | positive =>
    obtain rfl : js.string value = written := by simpa [print] using hwritten
    exact hprints
  | boolean =>
    obtain rfl : (if value then "true" else "false") = written := by
      simpa [print] using hwritten
    cases value <;> rfl
  | logLevel =>
    obtain rfl : LogLevel.text value = written := by simpa [print] using hwritten
    exact ofText_text value
  | text =>
    obtain rfl : value = written := by simpa [print] using hwritten
    rfl
  | optionalText =>
    obtain rfl : value = some written := hwritten
    rfl

theorem check_switchOn (kind : Kind) (value : kind.Value) :
    kind.check (kind.switchOn value) = kind.check value := by
  cases kind <;> rfl

theorem prints_switchOn {js : NumberRuntime} (kind : Kind) (value : kind.Value) :
    kind.Prints js (kind.switchOn value) ↔ kind.Prints js value := by
  cases kind <;> rfl

theorem parse_print {js : NumberRuntime} {kind : Kind} {value : kind.Value} {written : String}
    (hprints : kind.Prints js value) (hcheck : kind.check value = true)
    (hwritten : kind.print js value = some written) :
    kind.parse js written = some (kind.switchOn value) := by
  rw [parse, coerce_print hprints hwritten]
  simp [Option.filter, check_switchOn, hcheck]

end Kind

/-! ## The environment of a configuration -/

theorem Field.variableName_injective : Function.Injective Field.variableName := by
  have hnodup : (Field.all.map Field.variableName).Nodup := by decide +kernel
  intro a b h
  exact List.inj_on_of_nodup_map hnodup (Field.mem_all a) (Field.mem_all b) h

/-- Each variable with the string form of its field, and no other variable. -/
def environment (js : NumberRuntime) (config : WorkerConfig) : Environment := fun name =>
  (Field.all.find? fun field => field.variableName = name).bind fun field =>
    field.kind.print js (config field)

theorem environment_variableName (js : NumberRuntime) (config : WorkerConfig) (field : Field) :
    environment js config field.variableName = field.kind.print js (config field) := by
  have hfind : Field.all.find? (fun other => other.variableName = field.variableName)
      = some field := by
    cases h : Field.all.find? fun other => other.variableName = field.variableName with
    | none =>
      have hne := List.find?_eq_none.mp h field (Field.mem_all field)
      simp at hne
    | some found =>
      have hname : found.variableName = field.variableName := by simpa using List.find?_some h
      rw [Field.variableName_injective hname]
  rw [environment, hfind]
  rfl

namespace WorkerConfig

/-- `Number(String(x))` is `x` for each number of the configuration. -/
def Prints (js : NumberRuntime) (config : WorkerConfig) : Prop :=
  ∀ field : Field, field.kind.Prints js (config field)

/-- The configuration with its booleans on. -/
def switchOn (config : WorkerConfig) : WorkerConfig := fun field =>
  field.kind.switchOn (config field)

/-- The four features that a configuration can turn off are on. -/
def AllOn (config : WorkerConfig) : Prop :=
  config .adaptivePollingEnabled = true ∧ config .metricsEnabled = true
    ∧ config .idempotencyCleanupEnabled = true ∧ config .inboxCleanupEnabled = true

theorem switchOn_eq_iff (config : WorkerConfig) : config.switchOn = config ↔ config.AllOn := by
  constructor
  · intro h
    exact ⟨(congrFun h .adaptivePollingEnabled).symm, (congrFun h .metricsEnabled).symm,
      (congrFun h .idempotencyCleanupEnabled).symm, (congrFun h .inboxCleanupEnabled).symm⟩
  · rintro ⟨hpolling, hmetrics, hidempotency, hinbox⟩
    funext field
    cases field with
    | adaptivePollingEnabled => exact hpolling.symm
    | metricsEnabled => exact hmetrics.symm
    | idempotencyCleanupEnabled => exact hidempotency.symm
    | inboxCleanupEnabled => exact hinbox.symm
    | _ => rfl

theorem prints_switchOn {js : NumberRuntime} {config : WorkerConfig} (hprints : config.Prints js) :
    config.switchOn.Prints js := fun field =>
  (field.kind.prints_switchOn (config field)).mpr (hprints field)

theorem valid_switchOn {config : WorkerConfig} (hvalid : config.Valid) :
    config.switchOn.Valid where
  fields := fun field => (field.kind.check_switchOn (config field)).trans (hvalid.fields field)
  intervals := hvalid.intervals
  thresholds := hvalid.thresholds

/-- `loadConfig` on the environment of a configuration gives that
configuration. -/
def RoundTrips (js : NumberRuntime) (config : WorkerConfig) : Prop :=
  loadConfig js (environment js config) = some config

end WorkerConfig

/-- Only an optional text has no string form, and its default is `undefined`. -/
theorem Field.defaultValue_of_print_eq_none {js : NumberRuntime} {field : Field}
    {value : field.kind.Value} (h : field.kind.print js value = none) :
    field.defaultValue = field.kind.switchOn value := by
  cases field with
  | workerId | workerIdPrefix => exact (show value = none from h).symm
  | _ => exact absurd h (Option.some_ne_none _)

theorem Field.read_environment {js : NumberRuntime} {config : WorkerConfig}
    (hvalid : config.Valid) (hprints : config.Prints js) (field : Field) :
    field.read js (environment js config) = some (config.switchOn field) := by
  rw [Field.read, environment_variableName]
  cases hwritten : field.kind.print js (config field) with
  | none => exact congrArg some (Field.defaultValue_of_print_eq_none hwritten)
  | some written => exact Kind.parse_print (hprints field) (hvalid.fields field) hwritten

/-! ## The round trip -/

theorem loadConfig_eq_some {js : NumberRuntime} {env : Environment} {config : WorkerConfig}
    (hread : ∀ field : Field, field.read js env = some (config field)) (hvalid : config.Valid) :
    loadConfig js env = some config := by
  have hsome : ∀ field : Field, (field.read js env).isSome := fun field => by
    rw [hread field, Option.isSome_some]
  have hget : (fun field => (field.read js env).get (hsome field)) = config := by
    funext field
    exact Option.get_of_eq_some (hsome field) (hread field)
  rw [loadConfig, dif_pos hsome]
  show (if WorkerConfig.intervalsOrdered _ && WorkerConfig.thresholdsOrdered _ then _ else _) = _
  rw [hget, hvalid.intervals, hvalid.thresholds]
  rfl

/-- Read back, a configuration has its booleans on. -/
theorem loadConfig_environment {js : NumberRuntime} {config : WorkerConfig}
    (hvalid : config.Valid) (hprints : config.Prints js) :
    loadConfig js (environment js config) = some config.switchOn :=
  loadConfig_eq_some (Field.read_environment hvalid hprints)
    (WorkerConfig.valid_switchOn hvalid)

/-- A configuration comes back when its four features are on, and otherwise
not. -/
theorem roundTrips_iff {js : NumberRuntime} {config : WorkerConfig} (hvalid : config.Valid)
    (hprints : config.Prints js) : config.RoundTrips js ↔ config.AllOn := by
  rw [WorkerConfig.RoundTrips, loadConfig_environment hvalid hprints, Option.some_inj]
  exact config.switchOn_eq_iff

/-! ## On concrete configurations -/

/-- `Number()` and `String()` on natural numbers in decimal digits. -/
def decimalNumbers : NumberRuntime where
  number := fun written =>
    if written.toList ≠ [] ∧ written.toList.all Char.isDigit then
      some (written.toList.foldl (fun n digit => 10 * n + (digit.toNat - 48)) 0 : ℕ)
    else none
  string := fun x => String.ofList (Nat.toDigits 10 x.num.toNat)

theorem prints_defaultValue : WorkerConfig.Prints decimalNumbers Field.defaultValue := by
  intro field
  cases field <;> trivial

/-- The defaults with the inbox cleanup turned on. -/
def everythingOn : WorkerConfig := WorkerConfig.switchOn Field.defaultValue

theorem roundTrips_everythingOn :
    everythingOn.RoundTrips decimalNumbers ↔ everythingOn.AllOn :=
  roundTrips_iff (WorkerConfig.valid_switchOn valid_defaults)
    (WorkerConfig.prints_switchOn prints_defaultValue)

/-- The defaults come back with the inbox cleanup on, which they have off. -/
theorem not_roundTrips :
    ¬ ∀ (js : NumberRuntime) (config : WorkerConfig), config.Valid → config.Prints js →
      config.RoundTrips js := by
  intro h
  have hcontrary := h decimalNumbers Field.defaultValue valid_defaults prints_defaultValue
  rw [WorkerConfig.RoundTrips, loadConfig_environment valid_defaults prints_defaultValue,
    Option.some_inj] at hcontrary
  have hcleanup : true = false := congrFun hcontrary .inboxCleanupEnabled
  cases hcleanup

end Outboxy.Config
