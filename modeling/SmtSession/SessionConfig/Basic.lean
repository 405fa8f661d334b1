import SmtSession.SolverError
import SmtSession.SolverOption

namespace SmtSession

/-- The side of a session that answers checks. -/
inductive BackendMode where
  | native
  | external
  deriving DecidableEq, Repr, Inhabited

/-- What becomes of malformed options: a warning each, or the refusal of the session. -/
inductive OptionPolicy where
  | warn
  | reject
  deriving DecidableEq, Repr, Inhabited

def BackendMode.text : BackendMode → String
  | .native => "native"
  | .external => "external"

def OptionPolicy.text : OptionPolicy → String
  | .warn => "warn"
  | .reject => "reject"

structure SessionConfig where
  mode : BackendMode := .external
  incremental : Bool := true
  options : List RawOption := []
  optionPolicy : OptionPolicy := .warn
  checkTimeoutMillis : UInt64 := 30000
  heartbeatMillis : UInt64 := 1000
  deriving BEq, Inhabited

namespace SessionConfig

def withOption (name : String) (value : OptionValue) (config : SessionConfig) : SessionConfig :=
  { config with options := config.options ++ [(SolverOption.mk name value).toRaw] }

def withRawOption (name : String) (value : Json) (config : SessionConfig) : SessionConfig :=
  { config with options := config.options ++ [⟨name, value⟩] }

def withCheckTimeout (timeout : Duration) (config : SessionConfig) : SessionConfig :=
  { config with checkTimeoutMillis := timeout.toMillis }

def withHeartbeat (interval : Duration) (config : SessionConfig) : SessionConfig :=
  { config with heartbeatMillis := interval.toMillis }

def checkTimeout (config : SessionConfig) : Duration := .ofMillis config.checkTimeoutMillis.toNat

/-- The time between two signs of life of a wait, at least a millisecond. -/
def heartbeat (config : SessionConfig) : Duration :=
  .ofMillis (max config.heartbeatMillis.toNat 1)

def droppingNotice (err : SolverError) : Notice :=
  { level := .warning, message := "Dropping solver option: " ++ err.message }

/-- The options in form, in order, with a notice for each that is left out. Under rejection the
first malformed option is an error. -/
def resolve (policy : OptionPolicy) :
    List RawOption → Except SolverError (List SolverOption) × List Notice
  | [] => (.ok [], [])
  | raw :: rest =>
    match SolverOption.ofRaw raw with
    | .ok option =>
      let (result, notices) := resolve policy rest
      (result.map (option :: ·), notices)
    | .error err =>
      match policy with
      | .reject => (.error err, [])
      | .warn =>
        let (result, notices) := resolve policy rest
        (result, droppingNotice err :: notices)

def resolveOptions (config : SessionConfig) :
    Except SolverError (List SolverOption) × List Notice :=
  resolve config.optionPolicy config.options

end SessionConfig

end SmtSession
