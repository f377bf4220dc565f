import Intel8085.Machine.HostValue
import Intel8085.Storage.Word

/-!
# Machine configurations

A configuration fixes the order in which a word stands in the instruction stream, whether input,
output and decimal adjustment are modelled, how many steps a run may take, and what the trace
keeps.  Two profiles bundle these choices: the teaching machine and the machine of the data sheet.

Reading a word gives back what was written in the same order (`joinWord_splitWord`).
-/

set_option autoImplicit false

namespace Intel8085

/-- Which byte of a word comes first in the instruction stream. -/
inductive ByteOrder where
  | big
  | little
  deriving DecidableEq, Repr

namespace ByteOrder

def name : ByteOrder → String
  | .big => "big"
  | .little => "little"

def ofName? (name : String) : Option ByteOrder :=
  [big, little].find? fun order => order.name == name

def splitWord (order : ByteOrder) (word : UInt16) : List UInt8 :=
  match order with
  | .big => [highByte word, lowByte word]
  | .little => [lowByte word, highByte word]

/-- The word that the first two bytes of a list stand for; a single byte stands for itself. -/
def joinWord (order : ByteOrder) : List UInt8 → UInt16
  | [] => 0
  | [byte] => joinBytes 0 byte
  | first :: second :: _ =>
      match order with
      | .big => joinBytes first second
      | .little => joinBytes second first

theorem joinWord_splitWord (order : ByteOrder) (word : UInt16) :
    order.joinWord (order.splitWord word) = word := by
  cases order <;> exact joinBytes_split word

end ByteOrder

structure Config where
  operandOrder : ByteOrder
  modelsIoAndBcd : Bool
  maxSteps : Option Nat
  trace : Bool
  traceLimit : Nat
  deriving DecidableEq, Repr

inductive Profile where
  | teaching
  | datasheet
  deriving DecidableEq, Repr

namespace Profile

def all : List Profile :=
  [.teaching, .datasheet]

def name : Profile → String
  | .teaching => "default"
  | .datasheet => "datasheet"

def description : Profile → String
  | .teaching => "Teaching machine - big-endian immediates, DAA/IN/OUT unmodeled"
  | .datasheet => "Intel 8085 datasheet - little-endian immediates, DAA/IN/OUT modeled"

def ofName? (name : String) : Option Profile :=
  all.find? fun profile => profile.name == name

end Profile

def Config.ofProfile (profile : Profile) : Config where
  operandOrder := match profile with
    | .teaching => .big
    | .datasheet => .little
  modelsIoAndBcd := match profile with
    | .teaching => false
    | .datasheet => true
  maxSteps := some 1000000
  trace := false
  traceLimit := 10000

def Config.standard : Config :=
  .ofProfile .teaching

/-- A field of a configuration with the value that is asked for.  A profile that is named beside the
one to start from is no field. -/
inductive Setting where
  | operandOrder (name : HostValue)
  | modelsIoAndBcd (value : Bool)
  | maxSteps (limit : HostValue)
  | trace (value : Bool)
  | traceLimit (limit : HostValue)
  | profile (field : String)
  | unknown (field : String)
  deriving DecidableEq, Repr

inductive ConfigError where
  | secondProfile (field : String)
  | compoundProfile
  | unknownProfile (name : HostValue)
  | unknownField (field : String)
  | badOperandOrder (name : HostValue)
  | noNumber (limit : HostValue)
  | negativeMaxSteps
  | negativeTraceLimit
  deriving DecidableEq, Repr

/-- The reason in words, where it has a wording of its own. -/
def ConfigError.message : ConfigError → Option String
  | .unknownProfile name =>
      some ("Unknown profile " ++ name.display ++ " (choose from: " ++
        ", ".intercalate (Profile.all.map Profile.name) ++ ")")
  | .badOperandOrder name =>
      some ("operand_order must be 'big' or 'little', got " ++ name.display)
  | .negativeMaxSteps => some "max_steps must be >= 0"
  | .negativeTraceLimit => some "trace_limit must be >= 0"
  | _ => none

namespace Config

def unknownField? (settings : List Setting) : Option String :=
  settings.findSome? fun setting => match setting with
    | .unknown field => some field
    | .profile field => some field
    | _ => none

def secondProfile? (settings : List Setting) : Option String :=
  settings.findSome? fun setting => match setting with
    | .profile field => some field
    | _ => none

def setOrder (config : Config) (settings : List Setting) : Except ConfigError Config :=
  settings.foldlM (fun config setting => match setting with
    | .operandOrder name =>
        match name.text?.bind ByteOrder.ofName? with
        | some order => .ok { config with operandOrder := order }
        | none => .error (.badOperandOrder name)
    | _ => .ok config) config

def limitOf (limit : HostValue) (negative : ConfigError) : Except ConfigError Nat :=
  match limit.number? with
  | some number => if number < 0 then .error negative else .ok number.toNat
  | none => .error (.noNumber limit)

def setMaxSteps (config : Config) (settings : List Setting) : Except ConfigError Config :=
  settings.foldlM (fun config setting => match setting with
    | .maxSteps .nothing => .ok { config with maxSteps := none }
    | .maxSteps limit => do
        return { config with maxSteps := some (← limitOf limit .negativeMaxSteps) }
    | _ => .ok config) config

def setTraceLimit (config : Config) (settings : List Setting) : Except ConfigError Config :=
  settings.foldlM (fun config setting => match setting with
    | .traceLimit limit => do
        return { config with traceLimit := ← limitOf limit .negativeTraceLimit }
    | _ => .ok config) config

def setSwitches (config : Config) (settings : List Setting) : Config :=
  settings.foldl (fun config setting => match setting with
    | .modelsIoAndBcd value => { config with modelsIoAndBcd := value }
    | .trace value => { config with trace := value }
    | _ => config) config

def ofProfileName (name : HostValue) : Except ConfigError Config :=
  match name, name.text?.bind Profile.ofName? with
  | _, some profile => .ok (.ofProfile profile)
  | .compound _, none => .error .compoundProfile
  | _, none => .error (.unknownProfile name)

/-- The configuration to start from, beside which no other profile may be named. -/
def base (profile : Option HostValue) (settings : List Setting) : Except ConfigError Config :=
  match profile, secondProfile? settings with
  | none, _ => .ok standard
  | some _, some field => .error (.secondProfile field)
  | some name, none => ofProfileName name

/-- The configuration of a named profile, or of the teaching machine, with the settings applied.
The profile is objected to first, then an unknown field, then the values. -/
def ofSettings (profile : Option HostValue) (settings : List Setting) :
    Except ConfigError Config := do
  let base ← base profile settings
  match unknownField? settings with
  | some field => .error (.unknownField field)
  | none =>
      let ordered ← base.setOrder settings
      let budgeted ← ordered.setMaxSteps settings
      let limited ← budgeted.setTraceLimit settings
      return limited.setSwitches settings

end Config

end Intel8085
