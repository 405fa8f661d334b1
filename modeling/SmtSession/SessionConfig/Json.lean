import SmtSession.Json.Reader
import SmtSession.SessionConfig.Basic

/-! The JSON form of settings and options. A record is an object, or a list of its fields in order;
of an object, fields of other names are not looked at and a field may not be given twice. Settings
that are left out have their defaults; an option needs both of its fields. -/
namespace SmtSession

namespace Json

/-- The fields of a record by name or, in a list, by position. There are none for any other value,
for a list that is too long, and for a field given twice. -/
def recordFields? (names : List String) : Json → Option (List (Option Json))
  | .array items =>
    if items.length ≤ names.length then
      some (items.map some ++ List.replicate (names.length - items.length) none)
    else none
  | .object fields =>
    names.mapM fun name =>
      match fieldValues name fields with
      | [] => some none
      | [value] => some (some value)
      | _ => none
  | _ => none

/-- The name of a choice, given as a string or as the one field, without value, of an object. -/
def choice? : Json → Option String
  | .string name => some name
  | .object [(name, .null)] => some name
  | _ => none

def bool? : Json → Option Bool
  | .bool value => some value
  | _ => none

def string? : Json → Option String
  | .string value => some value
  | _ => none

def natural? : Json → Option UInt64
  | .number (.natural value) => some value
  | _ => none

/-- A value that is given must be readable; a value that is not has the default. -/
def orDefault {α : Type} (default : α) (read : Json → Option α) : Option Json → Option α
  | none => some default
  | some json => read json

/-- How deep lists and objects of a text may nest. -/
def nestingLimit : Nat := 127

end Json

namespace RawOption

def toJson (option : RawOption) : Json :=
  .object [("name", .string option.name), ("value", option.value)]

/-- An option that stands inside `levels` levels less than the limit. -/
def ofJson? (levels : Nat) (json : Json) : Option RawOption :=
  match Json.recordFields? ["name", "value"] json with
  | some [some name, some value] =>
    match name.string?, value.canonical? levels with
    | some name, some value => some ⟨name, value⟩
    | _, _ => none
  | _ => none

end RawOption

namespace SolverOption

def toJson (option : SolverOption) : Json := option.toRaw.toJson

/-- The value of an option in JSON: any string is a symbol here. -/
def valueOfJson? : Json → Option OptionValue
  | .number (.natural value) => some (.integer value)
  | .string value => some (.symbol value)
  | _ => none

def ofJson? (json : Json) : Option SolverOption :=
  match Json.recordFields? ["name", "value"] json with
  | some [some name, some value] =>
    match name.string?, valueOfJson? value with
    | some name, some value => some ⟨name, value⟩
    | _, _ => none
  | _ => none

def ofJsonText? (text : String) : Option SolverOption := (Json.read? text).bind ofJson?

end SolverOption

def BackendMode.ofJson? (json : Json) : Option BackendMode :=
  match json.choice? with
  | some "native" => some .native
  | some "external" => some .external
  | _ => none

def OptionPolicy.ofJson? (json : Json) : Option OptionPolicy :=
  match json.choice? with
  | some "warn" => some .warn
  | some "reject" => some .reject
  | _ => none

namespace SessionConfig

def fieldNames : List String :=
  ["mode", "incremental", "options", "option_policy", "check_timeout_ms", "heartbeat_ms"]

def toJson (config : SessionConfig) : Json :=
  .object [
    ("mode", .string config.mode.text),
    ("incremental", .bool config.incremental),
    ("options", .array (config.options.map RawOption.toJson)),
    ("option_policy", .string config.optionPolicy.text),
    ("check_timeout_ms", .number (.natural config.checkTimeoutMillis)),
    ("heartbeat_ms", .number (.natural config.heartbeatMillis))]

/-- Options stand inside the settings, their list and themselves: three levels. -/
def optionsOfJson? : Json → Option (List RawOption)
  | .array items => items.mapM (RawOption.ofJson? (Json.nestingLimit - 3))
  | _ => none

def ofJson? (json : Json) : Option SessionConfig :=
  match Json.recordFields? fieldNames json with
  | some [mode, incremental, options, policy, timeout, heartbeat] => do
    let defaults : SessionConfig := {}
    return {
      mode := ← Json.orDefault defaults.mode BackendMode.ofJson? mode
      incremental := ← Json.orDefault defaults.incremental Json.bool? incremental
      options := ← Json.orDefault defaults.options optionsOfJson? options
      optionPolicy := ← Json.orDefault defaults.optionPolicy OptionPolicy.ofJson? policy
      checkTimeoutMillis := ← Json.orDefault defaults.checkTimeoutMillis Json.natural? timeout
      heartbeatMillis := ← Json.orDefault defaults.heartbeatMillis Json.natural? heartbeat }
  | _ => none

def ofJsonText (text : String) : Except SolverError SessionConfig :=
  match (Json.read? text).bind ofJson? with
  | some config => .ok config
  | none => .error (.parse "invalid session config")

end SessionConfig

end SmtSession
