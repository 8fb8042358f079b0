import PathCatalog.CommandLine.Run
import PathCatalog.LogSetting

namespace PathCatalog.CommandLine

def Misuse.message : Misuse → String
  | .unknownArgument => "unexpected argument"
  | .invalidValue => "an option lacks its value or has one that is not allowed"
  | .valueValidation => "an option has a word that is no policy"
  | .argumentConflict => "an option is given twice"
  | .tooManyValues => "an option that takes no value has one"
  | .invalidSubcommand => "unrecognized command"
  | .help => "help"
  | .version => "path-catalog 0.1.0"
  | .nothingAsked => "a command is needed"

/-- The commands with their arguments. -/
def usage : List String :=
  ["Usage: path-catalog <COMMAND> [OPTIONS] [KEY=VALUE...]",
    "",
    "Commands:",
    "  find  the files or directories that an archive holds, with their values",
    "  name  the name that some values make",
    "  keys  the patterns of an archive and their fields",
    "",
    "Options:",
    "  -p, --path-pattern PATTERN   the pattern of the directories",
    "  -f, --file-pattern PATTERN   the pattern of the file names",
    "      --config FILE            the configuration to start from",
    "      --paths                  find directories",
    "      --on-parse-error POLICY  raise, warn or ignore",
    "      --on-empty POLICY        raise, warn or allow",
    "      --priority KEY=VALUES    the values to prefer, the best one first",
    "      --on-missing POLICY      raise, warn or ignore",
    "      --json                   one object per line",
    "      --level LEVEL            path, file or full"]

/-- The lines for people: the outermost message, then its causes. -/
def explain : List String → List String
  | [] => []
  | [message] => ["Error: " ++ message]
  | message :: causes =>
      ["Error: " ++ message, "", "Caused by:"] ++ causes.map fun cause => "    " ++ cause

/-- The lines of the answer, the lines about how it came about, and the code. -/
structure Report where
  answer : List String
  remarks : List String
  code : UInt32
  deriving DecidableEq, Repr

/-- The report of a fault; help and version are answers. What breaks off has a code of its own. -/
def Fault.report : Fault → Report
  | .tooWide => ⟨[], ["a column is too wide to be printed"], 101⟩
  | .failure .tooManyCombinations => ⟨[], [Failure.tooManyCombinations.message], 101⟩
  | .misuse .help => ⟨usage, [], 0⟩
  | .misuse .version => ⟨[Misuse.version.message], [], 0⟩
  | .misuse kind => ⟨[], ("error: " ++ kind.message) :: "" :: usage, 2⟩
  | fault => ⟨[], explain fault.chain, 1⟩

def eventLine (event : Event) : String :=
  event.level.word ++ " " ++ event.text

/-- The report of a run; the setting says which events are shown. -/
def report (setting : LogSetting) (run : Logged Fault (List String)) : Report :=
  let log := (run.events.filter setting.shows).map eventLine
  match run.outcome with
  | .ok lines => ⟨lines, log, 0⟩
  | .error fault =>
      let fault := fault.report
      { fault with remarks := log ++ fault.remarks }

end PathCatalog.CommandLine
