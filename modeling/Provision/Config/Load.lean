/-
  Provision.Config.Load

  A configuration from a text, and from the environment that a device starts in: one
  variable names the file with the text, the other overrides the port. How the values are
  written in a text is left open here; what is read from it is checked.
-/
import Provision.Config
import Provision.Files
import Provision.Report
import Provision.Text.Blank
import Provision.Text.Decimal

namespace Provision

/-- Why a text is no configuration. -/
inductive ConfigError where
  /-- The text does not have the form of a configuration. -/
  | malformed
  /-- No connection could ever be served. -/
  | noWorkers
  | noListener
deriving DecidableEq

namespace ConfigError

def report : ConfigError → Report
  | malformed => ⟨.yaml, []⟩
  | noWorkers => ⟨.text "server.workers must be at least 1", []⟩
  | noListener =>
    ⟨.text "at least one of server.ipv4 / server.ipv6 must be enabled", []⟩

end ConfigError

namespace Config

/-- A configuration with which nothing could be served is refused. -/
def validate (config : Config) : Except ConfigError Config :=
  if config.server.workers = 0 then .error .noWorkers
  else if !config.server.ipv4 && !config.server.ipv6 then .error .noListener
  else .ok config

/-- Reads the values of a configuration from a text, if it has the form of one. -/
abbrev Decoder := String → Option Config

/-- Reads a configuration. Blank text is the default configuration, whatever it is decoded
to. -/
def ofText (decode : Decoder) (text : String) : Except ConfigError Config :=
  if isBlankText text then .ok standard
  else
    match decode text with
    | none => .error .malformed
    | some config => config.validate

end Config

/-- What a device starts in. A variable may be unset. -/
structure Environment where
  /-- The bytes of the variable that names the configuration file. -/
  configFile : Option Bytes
  /-- The bytes of the variable that overrides the port. -/
  port : Option Bytes
  files : Files

/-- Why no configuration could be loaded. -/
inductive LoadError where
  | unreadable (name : String) (fault : SystemFault)
  | invalid (name : String) (error : ConfigError)
  /-- The port is no number below its bound. -/
  | invalidPort (text : String) (error : NumeralError)
deriving DecidableEq

namespace LoadError

def report : LoadError → Report
  | unreadable name fault => Report.during ⟨.system fault, []⟩ ("reading config file " ++ name)
  | invalid name error => error.report.during ("parsing config file " ++ name)
  | invalidPort text error =>
    Report.during ⟨.text error.message, []⟩ ("LISTEN_PORT is not a valid port: " ++ text)

end LoadError

namespace Environment

/-- The text of a variable; bytes that are not UTF-8 count as unset. -/
def text (setting : Option Bytes) : Option String := setting.bind Utf8.decode?

/-- The configuration in the named file, or the default where no file is named. -/
def baseConfig (environment : Environment) (decode : Config.Decoder) : Except LoadError Config :=
  match text environment.configFile with
  | none => .ok .standard
  | some name =>
    match environment.files.readText name with
    | .error fault => .error (.unreadable name fault)
    | .ok content =>
      match Config.ofText decode content with
      | .error error => .error (.invalid name error)
      | .ok config => .ok config

/-- Loads the configuration: the file first, then the override of the port. -/
def load (environment : Environment) (decode : Config.Decoder) : Except LoadError Config :=
  match environment.baseConfig decode with
  | .error error => .error error
  | .ok config =>
    match text environment.port with
    | none => .ok config
    | some port =>
      match Decimal.read (Config.portBound - 1) port with
      | .error error => .error (.invalidPort port error)
      | .ok number => .ok { config with server := { config.server with port := some number } }

end Environment

end Provision
