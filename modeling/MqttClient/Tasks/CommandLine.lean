/-
# The command line: `load_config_from_command_line_args`

The function assigns one field of `config_t` per option `getopt_long` delivers, and then
takes a field that is zero for an option that was not given.  `main` passes it a
`config_t` without an initialiser, so a field no option assigned holds whatever the stack
held, and register 0 cannot be told from a missing register.

What the command line alone should decide is decided by it exactly if `getopt_long`
reports an option it does not know, or if the options are complete just when the register
is not given as 0.
-/

import MqttClient.Packet.Format

namespace MqttClient

open Semantics

/-! ## What the function reads -/

/-- `long_opts`; each option requires an argument. -/
inductive LongOption
  | caCert
  | clientCert
  | clientKey
  | modbusIp
  | modbusPort
  | modbusRegister
  | mqttBroker
  | mqttPort
  | mqttDeviceName
  | mqttTopic
  deriving DecidableEq, Repr

/-- What one call of `getopt_long` delivers before it returns -1. -/
inductive ParsedOption
  /-- An option of the table, with `optarg`. -/
  | known (option : LongOption) (optarg : CString)
  /-- The `'?'` for an option that is unknown, ambiguous or lacks its argument. -/
  | unknown
  deriving DecidableEq

/-- The value of a `char *` field: null, an `optarg`, or an address nobody assigned. -/
inductive CharPointer
  | null
  | optarg (string : CString)
  | stray (address : Nat)
  deriving DecidableEq

/-- `!p`. -/
def CharPointer.isNull (p : CharPointer) : Bool := p = .null

/-- `config_t`. -/
structure Config where
  caCertFile : CharPointer
  clientCertFile : CharPointer
  clientKeyFile : CharPointer
  modbusPlcIp : CharPointer
  modbusPlcPort : CharPointer
  modbusPlcRegister : Int32
  mqttBrokerIp : CharPointer
  mqttBrokerPort : CharPointer
  mqttDeviceName : CharPointer
  mqttTopic : CharPointer
  deriving DecidableEq

/-! ## `atoi` -/

/-- `isspace`. -/
def isSpace (c : UInt8) : Bool := c = 0x20 || (0x09 ≤ c && c ≤ 0x0D)

/-- `isdigit`. -/
def isDigit (c : UInt8) : Bool := 0x30 ≤ c && c ≤ 0x39

/-- The value of the digits at the front. -/
def leadingDigits (bytes : List UInt8) : Nat :=
  (bytes.takeWhile isDigit).foldl (fun n c => 10 * n + (c.toNat - 0x30)) 0

/-- `strtol` to base ten, with a `long` of 64 bits. -/
def strtol (s : CString) : Int :=
  match s.bytes.dropWhile isSpace with
  | 0x2D :: rest => max (-2 ^ 63) (-(leadingDigits rest : Int))
  | 0x2B :: rest => min (2 ^ 63 - 1) (leadingDigits rest)
  | rest => min (2 ^ 63 - 1) (leadingDigits rest)

/-- `atoi`: the `long` converted to an `int`. -/
def atoi (s : CString) : Int32 := Int32.ofInt (strtol s)

/-! ## The function -/

/-- The `switch`: assign the field of an option. -/
def Config.assign (config : Config) : LongOption → CString → Config
  | .caCert, optarg => { config with caCertFile := .optarg optarg }
  | .clientCert, optarg => { config with clientCertFile := .optarg optarg }
  | .clientKey, optarg => { config with clientKeyFile := .optarg optarg }
  | .modbusIp, optarg => { config with modbusPlcIp := .optarg optarg }
  | .modbusPort, optarg => { config with modbusPlcPort := .optarg optarg }
  | .modbusRegister, optarg => { config with modbusPlcRegister := atoi optarg }
  | .mqttBroker, optarg => { config with mqttBrokerIp := .optarg optarg }
  | .mqttPort, optarg => { config with mqttBrokerPort := .optarg optarg }
  | .mqttDeviceName, optarg => { config with mqttDeviceName := .optarg optarg }
  | .mqttTopic, optarg => { config with mqttTopic := .optarg optarg }

/-- The condition of the final `if`. -/
def Config.isMissing (config : Config) : Bool :=
  config.caCertFile.isNull ||
  config.clientCertFile.isNull ||
  config.clientKeyFile.isNull ||
  config.modbusPlcIp.isNull ||
  config.modbusPlcPort.isNull ||
  config.modbusPlcRegister = 0 ||
  config.mqttBrokerIp.isNull ||
  config.mqttBrokerPort.isNull ||
  config.mqttDeviceName.isNull ||
  config.mqttTopic.isNull

/-- The two ways the function ends the process with `EXIT_FAILURE`. -/
inductive ConfigError
  | usage (argv0 : CString)
  | missingRequired
  deriving DecidableEq

/-- The bytes of a text. -/
def textBytes (text : String) : List UInt8 := text.toList.map fun c => UInt8.ofNat c.toNat

/-- What is printed to `stderr` before the process ends. -/
def ConfigError.message : ConfigError → List UInt8
  | .usage argv0 =>
      textBytes "Usage: " ++ argv0.bytes ++
      textBytes (" --ca-cert CA_CERT_FILE --client-cert CLIENT_CERT_FILE" ++
        " --client-key CLIENT_KEY_FILE --modbus-ip MODBUS_PLC_IP" ++
        " --modbus-port MODBUS_PLC_PORT --modbus-register MODBUS_PLC_REGISTER" ++
        " --mqtt-broker MQTT_BROKER_IP --mqtt-port MQTT_BROKER_PORT" ++
        " --mqtt-topic MQTT_TOPIC\n")
  | .missingRequired => textBytes "Missing required arguments\n"

/-- The `while` loop over what `getopt_long` delivers. -/
def assignOptions (argv0 : CString) : List ParsedOption → Config → Except ConfigError Config
  | [], config => .ok config
  | .known option optarg :: rest, config => assignOptions argv0 rest (config.assign option optarg)
  | .unknown :: _, _ => .error (.usage argv0)

/-- `load_config_from_command_line_args`, on a `config_t` that holds `config`. -/
def loadConfigFromCommandLineArgs (argv0 : CString) (options : List ParsedOption)
    (config : Config) : Except ConfigError Config := do
  let config ← assignOptions argv0 options config
  if config.isMissing then throw .missingRequired
  else pure config

/-! ## The fields by option -/

/-- The value of a field. -/
inductive Field
  | pointer (p : CharPointer)
  | int (n : Int32)
  deriving DecidableEq

/-- The field counts as not given. -/
def Field.isZero : Field → Bool
  | pointer p => p.isNull
  | int n => n = 0

/-- The field an option assigns. -/
def Config.field (config : Config) : LongOption → Field
  | .caCert => .pointer config.caCertFile
  | .clientCert => .pointer config.clientCertFile
  | .clientKey => .pointer config.clientKeyFile
  | .modbusIp => .pointer config.modbusPlcIp
  | .modbusPort => .pointer config.modbusPlcPort
  | .modbusRegister => .int config.modbusPlcRegister
  | .mqttBroker => .pointer config.mqttBrokerIp
  | .mqttPort => .pointer config.mqttBrokerPort
  | .mqttDeviceName => .pointer config.mqttDeviceName
  | .mqttTopic => .pointer config.mqttTopic

/-- What the field of an option should hold for an argument: the argument, or the number it
denotes. -/
def LongOption.value (option : LongOption) (optarg : CString) : Field :=
  if option = .modbusRegister then .int (atoi optarg) else .pointer (.optarg optarg)

/-- A configuration is its fields. -/
theorem Config.ext_field {config config' : Config}
    (h : ∀ option, config.field option = config'.field option) : config = config' := by
  cases config
  cases config'
  have h₁ := h .caCert
  have h₂ := h .clientCert
  have h₃ := h .clientKey
  have h₄ := h .modbusIp
  have h₅ := h .modbusPort
  have h₆ := h .modbusRegister
  have h₇ := h .mqttBroker
  have h₈ := h .mqttPort
  have h₉ := h .mqttDeviceName
  have h₀ := h .mqttTopic
  simp only [field, Field.pointer.injEq, Field.int.injEq] at *
  subst h₁ h₂ h₃ h₄ h₅ h₆ h₇ h₈ h₉ h₀
  rfl

/-- The `switch` assigns the field of its option and no other. -/
theorem Config.field_assign (config : Config) (assigned option : LongOption) (optarg : CString) :
    (config.assign assigned optarg).field option =
      if option = assigned then option.value optarg else config.field option := by
  cases assigned <;> cases option <;> rfl

/-- The final `if` looks for a zero in the field of every option. -/
theorem Config.isMissing_iff (config : Config) :
    config.isMissing = true ↔ ∃ option, (config.field option).isZero = true := by
  simp only [isMissing, Bool.or_eq_true]
  constructor
  · rintro (((((((((h | h) | h) | h) | h) | h) | h) | h) | h) | h)
    exacts [⟨.caCert, h⟩, ⟨.clientCert, h⟩, ⟨.clientKey, h⟩, ⟨.modbusIp, h⟩, ⟨.modbusPort, h⟩,
      ⟨.modbusRegister, h⟩, ⟨.mqttBroker, h⟩, ⟨.mqttPort, h⟩, ⟨.mqttDeviceName, h⟩,
      ⟨.mqttTopic, h⟩]
  · rintro ⟨option, h⟩
    cases option <;> simp only [field, Field.isZero] at h <;> simp only [h, true_or, or_true]

/-! ## What the options decide -/

/-- The argument of the last occurrence of an option. -/
def lastArgument (option : LongOption) : List ParsedOption → Option CString
  | [] => none
  | .unknown :: rest => lastArgument option rest
  | .known other optarg :: rest =>
      (lastArgument option rest).or (if option = other then some optarg else none)

/-- An option has a last occurrence if it has one. -/
theorem isSome_lastArgument_iff (option : LongOption) (options : List ParsedOption) :
    (lastArgument option options).isSome = true ↔ ∃ optarg, .known option optarg ∈ options := by
  induction options with
  | nil => exact ⟨fun h => absurd h Bool.false_ne_true, fun ⟨_, h⟩ => absurd h List.not_mem_nil⟩
  | cons parsed rest ih =>
      cases parsed with
      | unknown => simpa [lastArgument] using ih
      | known other optarg =>
          rw [lastArgument, Option.isSome_or, Bool.or_eq_true, ih]
          by_cases h : option = other
          · subst h
            rw [if_pos rfl]
            exact ⟨fun _ => ⟨optarg, List.mem_cons_self⟩, fun _ => .inr rfl⟩
          · have hne : ∀ arg, ParsedOption.known option arg ≠ .known other optarg := by
              rintro arg ⟨⟩
              exact h rfl
            simp [h, hne]

/-- Once an option is unknown the process ends. -/
theorem assignOptions_of_unknown (argv0 : CString) {options : List ParsedOption}
    (h : .unknown ∈ options) (config : Config) :
    assignOptions argv0 options config = .error (.usage argv0) := by
  induction options generalizing config with
  | nil => exact absurd h List.not_mem_nil
  | cons parsed rest ih =>
      cases parsed with
      | unknown => rfl
      | known option optarg =>
          rcases List.mem_cons.mp h with h | h
          · cases h
          · exact ih h _

/-- Otherwise every field holds what its option was last given, and the others what they
held before. -/
theorem assignOptions_of_known (argv0 : CString) {options : List ParsedOption}
    (h : .unknown ∉ options) (config : Config) :
    ∃ config', assignOptions argv0 options config = .ok config' ∧ ∀ option,
      config'.field option =
        ((lastArgument option options).map option.value).getD (config.field option) := by
  induction options generalizing config with
  | nil => exact ⟨config, rfl, fun _ => rfl⟩
  | cons parsed rest ih =>
      cases parsed with
      | unknown => exact absurd List.mem_cons_self h
      | known other optarg =>
          obtain ⟨config', hrun, hfield⟩ :=
            ih (fun hmem => h (List.mem_cons_of_mem _ hmem)) (config.assign other optarg)
          refine ⟨config', hrun, fun option => ?_⟩
          rw [hfield, Config.field_assign, lastArgument]
          cases lastArgument option rest with
          | some last => rfl
          | none =>
              rw [Option.none_or]
              by_cases heq : option = other
              · rw [if_pos heq, if_pos heq]
                rfl
              · rw [if_neg heq, if_neg heq]

/-- Each option occurs. -/
def Complete (options : List ParsedOption) : Prop :=
  ∀ option, ∃ optarg, .known option optarg ∈ options

/-- The register is given, last as a number that is zero. -/
def RegisterZero (options : List ParsedOption) : Prop :=
  ∃ optarg, lastArgument .modbusRegister options = some optarg ∧ atoi optarg = 0

/-- The options alone decide what the function does: it returns exactly if all of them are
known and none is missing, then with the last argument of every option, and what the
memory held before makes no difference. -/
structure DecidedByOptions (argv0 : CString) (options : List ParsedOption) : Prop where
  returns_iff : ∀ before, (∃ config, loadConfigFromCommandLineArgs argv0 options before =
    .ok config) ↔ .unknown ∉ options ∧ Complete options
  fields : ∀ before config, loadConfigFromCommandLineArgs argv0 options before = .ok config →
    ∀ option, ∃ optarg, lastArgument option options = some optarg ∧
      config.field option = option.value optarg
  independent : ∀ before before', loadConfigFromCommandLineArgs argv0 options before =
    loadConfigFromCommandLineArgs argv0 options before'

theorem loadConfig_of_unknown (argv0 : CString) {options : List ParsedOption}
    (h : .unknown ∈ options) (before : Config) :
    loadConfigFromCommandLineArgs argv0 options before = .error (.usage argv0) := by
  rw [loadConfigFromCommandLineArgs, assignOptions_of_unknown argv0 h]
  rfl

/-- The value of an argument counts as not given only if it is register 0. -/
theorem LongOption.isZero_value {option : LongOption} {optarg : CString} :
    (option.value optarg).isZero = true ↔ option = .modbusRegister ∧ atoi optarg = 0 := by
  unfold value
  by_cases h : option = .modbusRegister
  · rw [if_pos h]
    simp [Field.isZero, h]
  · rw [if_neg h]
    simp [Field.isZero, CharPointer.isNull, h]

/-- Register 0 counts as a missing register, whatever the memory held. -/
theorem loadConfig_of_registerZero (argv0 : CString) {options : List ParsedOption}
    (hknown : .unknown ∉ options) (hzero : RegisterZero options) (before : Config) :
    loadConfigFromCommandLineArgs argv0 options before = .error .missingRequired := by
  obtain ⟨config, hrun, hfield⟩ := assignOptions_of_known argv0 hknown before
  obtain ⟨optarg, hlast, hatoi⟩ := hzero
  have hmissing : config.isMissing = true := by
    refine (Config.isMissing_iff config).mpr ⟨.modbusRegister, ?_⟩
    rw [hfield, hlast]
    exact LongOption.isZero_value.mpr ⟨rfl, hatoi⟩
  rw [loadConfigFromCommandLineArgs, hrun]
  exact if_pos hmissing

/-- Without register 0 the function returns if the memory held no zero where no option was
given. -/
theorem loadConfig_of_not_registerZero (argv0 : CString) {options : List ParsedOption}
    (hknown : .unknown ∉ options) (hzero : ¬ RegisterZero options) {before : Config}
    (hbefore : ∀ option, lastArgument option options = none →
      (before.field option).isZero = false) :
    ∃ config, loadConfigFromCommandLineArgs argv0 options before = .ok config ∧ ∀ option,
      config.field option =
        ((lastArgument option options).map option.value).getD (before.field option) := by
  obtain ⟨config, hrun, hfield⟩ := assignOptions_of_known argv0 hknown before
  have hgiven : ¬ config.isMissing = true := by
    rw [Config.isMissing_iff]
    rintro ⟨option, hoption⟩
    rw [hfield] at hoption
    cases hlast : lastArgument option options with
    | none =>
        rw [hlast] at hoption
        exact Bool.false_ne_true ((hbefore option hlast).symm.trans hoption)
    | some optarg =>
        rw [hlast] at hoption
        obtain ⟨rfl, hatoi⟩ := LongOption.isZero_value.mp hoption
        exact hzero ⟨optarg, hlast, hatoi⟩
  refine ⟨config, ?_, hfield⟩
  rw [loadConfigFromCommandLineArgs, hrun]
  exact if_neg hgiven

/-- Memory in which no field of the configuration is zero. -/
def strayConfig : Config :=
  ⟨.stray 1, .stray 1, .stray 1, .stray 1, .stray 1, 1, .stray 1, .stray 1, .stray 1, .stray 1⟩

theorem isZero_field_strayConfig (option : LongOption) :
    (strayConfig.field option).isZero = false := by
  cases option <;> rfl

theorem Complete.lastArgument {options : List ParsedOption} (h : Complete options)
    (option : LongOption) : ∃ optarg, lastArgument option options = some optarg :=
  Option.isSome_iff_exists.mp ((isSome_lastArgument_iff option options).mpr (h option))

/-- Complete options without register 0 make the function return with their last
arguments. -/
theorem loadConfig_of_complete (argv0 : CString) {options : List ParsedOption}
    (hknown : .unknown ∉ options) (hzero : ¬ RegisterZero options) (hcomplete : Complete options)
    (before : Config) :
    ∃ config, loadConfigFromCommandLineArgs argv0 options before = .ok config ∧ ∀ option,
      ∃ optarg, lastArgument option options = some optarg ∧
        config.field option = option.value optarg := by
  have hbefore : ∀ option, lastArgument option options = none →
      (before.field option).isZero = false := by
    intro option hnone
    obtain ⟨optarg, hlast⟩ := hcomplete.lastArgument option
    rw [hlast] at hnone
    cases hnone
  obtain ⟨config, hrun, hfield⟩ := loadConfig_of_not_registerZero argv0 hknown hzero hbefore
  refine ⟨config, hrun, fun option => ?_⟩
  obtain ⟨optarg, hlast⟩ := hcomplete.lastArgument option
  exact ⟨optarg, hlast, by rw [hfield, hlast]; rfl⟩

/-- Options with which the process always ends the same way decide it, if they are not to
be accepted. -/
theorem DecidedByOptions.of_error {argv0 : CString} {options : List ParsedOption}
    {error : ConfigError}
    (hrun : ∀ before, loadConfigFromCommandLineArgs argv0 options before = .error error)
    (hrejected : ¬ (.unknown ∉ options ∧ Complete options)) : DecidedByOptions argv0 options where
  returns_iff before := by
    rw [hrun]
    refine ⟨?_, fun h => absurd h hrejected⟩
    rintro ⟨config, h⟩
    cases h
  fields before config h := by
    rw [hrun] at h
    cases h
  independent before before' := by rw [hrun, hrun]

/-- The options decide what the function does exactly if one of them is unknown, or they are
complete just when the register is not given as 0. -/
theorem decidedByOptions_iff (argv0 : CString) (options : List ParsedOption) :
    DecidedByOptions argv0 options ↔
      .unknown ∈ options ∨ (Complete options ↔ ¬ RegisterZero options) := by
  constructor
  · intro hdecided
    by_cases hknown : .unknown ∈ options
    · exact .inl hknown
    · refine .inr ⟨fun hcomplete hzero => ?_, fun hzero => ?_⟩
      · obtain ⟨config, hrun⟩ := (hdecided.returns_iff strayConfig).mpr ⟨hknown, hcomplete⟩
        rw [loadConfig_of_registerZero argv0 hknown hzero] at hrun
        cases hrun
      · obtain ⟨config, hrun, _⟩ := loadConfig_of_not_registerZero argv0 hknown hzero
          (fun option _ => isZero_field_strayConfig option)
        exact ((hdecided.returns_iff strayConfig).mp ⟨config, hrun⟩).2
  · intro hcondition
    by_cases hknown : .unknown ∈ options
    · exact .of_error (loadConfig_of_unknown argv0 hknown) fun h => absurd hknown h.1
    · have hiff := hcondition.resolve_left hknown
      by_cases hzero : RegisterZero options
      · exact .of_error (loadConfig_of_registerZero argv0 hknown hzero)
          fun h => absurd hzero (hiff.mp h.2)
      · have hcomplete := hiff.mpr hzero
        have hloads := loadConfig_of_complete argv0 hknown hzero hcomplete
        refine ⟨fun before => ?_, fun before config h => ?_, fun before before' => ?_⟩
        · obtain ⟨config, hrun, _⟩ := hloads before
          exact ⟨fun _ => ⟨hknown, hcomplete⟩, fun _ => ⟨config, hrun⟩⟩
        · obtain ⟨config', hrun, hfield⟩ := hloads before
          rw [hrun] at h
          cases h
          exact hfield
        · obtain ⟨config, hrun, hfield⟩ := hloads before
          obtain ⟨config', hrun', hfield'⟩ := hloads before'
          have hsame : config = config' := by
            refine Config.ext_field fun option => ?_
            obtain ⟨optarg, hlast, hvalue⟩ := hfield option
            obtain ⟨optarg', hlast', hvalue'⟩ := hfield' option
            cases hlast.symm.trans hlast'
            rw [hvalue, hvalue']
          rw [hrun, hrun', hsame]

theorem zero_notMem_digit (d : Fin 10) : 0 ∉ [UInt8.ofNat (0x30 + d.val)] := by
  revert d
  decide

/-- A decimal digit as an argument. -/
def digit (d : Fin 10) : CString := ⟨[UInt8.ofNat (0x30 + d.val)], zero_notMem_digit d⟩

/-- Every option once, with the given register and "1" for the others. -/
def allOptions (register : CString) : List ParsedOption :=
  [.known .caCert (digit 1), .known .clientCert (digit 1), .known .clientKey (digit 1),
    .known .modbusIp (digit 1), .known .modbusPort (digit 1), .known .modbusRegister register,
    .known .mqttBroker (digit 1), .known .mqttPort (digit 1), .known .mqttDeviceName (digit 1),
    .known .mqttTopic (digit 1)]

theorem allOptions_complete (register : CString) : Complete (allOptions register) := by
  intro option
  cases option with
  | modbusRegister => exact ⟨register, by simp [allOptions]⟩
  | _ => exact ⟨digit 1, by simp [allOptions]⟩

theorem zero_notMem_mainName : (0 : UInt8) ∉ [0x6D, 0x61, 0x69, 0x6E] := by decide

/-- "main". -/
def mainName : CString := ⟨[0x6D, 0x61, 0x69, 0x6E], zero_notMem_mainName⟩

/-- Without any option the function returns what the memory held, if nothing there was
zero, and with every option and register 0 it reports missing arguments. -/
theorem loadConfig_accepts_nothing_rejects_zero :
    loadConfigFromCommandLineArgs mainName [] strayConfig = .ok strayConfig ∧
      ¬ DecidedByOptions mainName [] ∧
      loadConfigFromCommandLineArgs mainName (allOptions (digit 0)) strayConfig =
        .error .missingRequired ∧
      ¬ DecidedByOptions mainName (allOptions (digit 0)) := by
  refine ⟨rfl, fun hdecided => ?_, rfl, fun hdecided => ?_⟩
  · obtain ⟨_, hmem⟩ := ((hdecided.returns_iff strayConfig).mp ⟨strayConfig, rfl⟩).2 .caCert
    exact absurd hmem List.not_mem_nil
  · have hknown : .unknown ∉ allOptions (digit 0) := by simp [allOptions]
    obtain ⟨config, hrun⟩ :=
      (hdecided.returns_iff strayConfig).mpr ⟨hknown, allOptions_complete (digit 0)⟩
    cases hrun

end MqttClient
