import PathCatalog.Event
import PathCatalog.Failure

namespace PathCatalog

/-- What happens to a collected path that the template does not match. -/
inductive OnParseError where
  | raise
  | warn
  | ignore
  deriving DecidableEq, Repr, Inhabited

/-- What happens when no search pattern finds a path. -/
inductive OnEmpty where
  | raise
  | warn
  | allow
  deriving DecidableEq, Repr, Inhabited

/-- What happens to a group of rows without any preferred value. -/
inductive OnMissing where
  | raise
  | warn
  | ignore
  deriving DecidableEq, Repr, Inhabited

namespace OnParseError

/-- The word for the policy. -/
def word : OnParseError → String
  | .raise => "raise"
  | .warn => "warn"
  | .ignore => "ignore"

/-- The policy with the given word. -/
def parse (value : String) : Except Misfit OnParseError :=
  match value with
  | "raise" => .ok .raise
  | "warn" => .ok .warn
  | "ignore" => .ok .ignore
  | _ => .error (.unknownPolicy "on_parse_error" value "'raise', 'warn' or 'ignore'")

end OnParseError

namespace OnEmpty

/-- The word for the policy. -/
def word : OnEmpty → String
  | .raise => "raise"
  | .warn => "warn"
  | .allow => "allow"

/-- The policy with the given word. -/
def parse (value : String) : Except Misfit OnEmpty :=
  match value with
  | "raise" => .ok .raise
  | "warn" => .ok .warn
  | "allow" => .ok .allow
  | _ => .error (.unknownPolicy "on_empty" value "'raise', 'warn' or 'allow'")

end OnEmpty

namespace OnMissing

/-- The word for the policy. -/
def word : OnMissing → String
  | .raise => "raise"
  | .warn => "warn"
  | .ignore => "ignore"

/-- The policy with the given word; the former word `error` is still read, with a warning. -/
def parse (value : String) : Logged Misfit OnMissing :=
  match value with
  | "raise" => .done .raise
  | "error" => do
      Logged.note .warn "on_missing value 'error' has been renamed to 'raise'"
      return .raise
  | "warn" => .done .warn
  | "ignore" => .done .ignore
  | _ => .fail (.unknownPolicy "on_missing" value "'raise', 'warn' or 'ignore'")

end OnMissing

structure FindOptions where
  onParseError : OnParseError := .raise
  onEmpty : OnEmpty := .raise
  deriving DecidableEq, Repr, Inhabited

end PathCatalog
