import PathCatalog.Event
import PathCatalog.Text.Blank

namespace PathCatalog

inductive LogSetting where
  | off
  | level (least : Level)
  | unknown
  deriving DecidableEq, Repr

/-- Blanks around the word and the case of its ASCII letters do not matter; no word means off. -/
def LogSetting.parse (value : String) : LogSetting :=
  match String.ofList ((Text.trim value.toList).map Char.toLower) with
  | "" => .off
  | "off" => .off
  | "debug" => .level .debug
  | "info" => .level .info
  | "warn" => .level .warn
  | "error" => .level .error
  | _ => .unknown

/-- The least level that is shown, if any is; a setting that is not known asks for `info`. -/
def LogSetting.least? : LogSetting → Option Level
  | .off => none
  | .level least => some least
  | .unknown => some .info

def LogSetting.shows (setting : LogSetting) (event : Event) : Bool :=
  match setting.least? with
  | none => false
  | some least => decide (least.rank ≤ event.level.rank)

end PathCatalog
