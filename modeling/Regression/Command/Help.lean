import Regression.Command.Line

/-!
# Help on the command line
-/

namespace Regression

def programName : String := "equiv-check"

def versionText : String := programName ++ " 0.1.0\n"

/-- A table: the right column starts two characters behind the longest text on the left. -/
def twoColumns (rows : List (String × String)) : List String :=
  let width := (rows.map (·.1.length)).foldl max 0
  rows.map fun (left, right) =>
    "  " ++ left ++ String.ofList (List.replicate (width + 2 - left.length) ' ') ++ right

namespace HelpTopic

def summary : HelpTopic → String
  | .program => "Regression verification with abstraction refinement"
  | .check => "Run the refinement loop on a recorded exploration trace"
  | .results => "Classify the iterations of a results file"
  | .help => "Print this message or the help of the given subcommand(s)"

def usage : HelpTopic → String
  | .program => "[OPTIONS] <COMMAND>"
  | .check => "check [OPTIONS] --trace <TRACE> --benchmark <BENCHMARK>"
  | .results => "results [OPTIONS] --benchmark <BENCHMARK> <FILE>"
  | .help => "help [COMMAND]..."

def commands : HelpTopic → List (String × String)
  | .program =>
    [("check", summary .check), ("results", summary .results), ("help", summary .help)]
  | .check | .results | .help => []

/-- The arguments that are not options. -/
def arguments : HelpTopic → List (String × String)
  | .program | .check => []
  | .results => [("<FILE>", "results.txt written by a previous run or a base tool")]
  | .help => [("[COMMAND]...", "Print help for the subcommand(s)")]

/-- The option of all commands stands behind the first one of each command. -/
def options (topic : HelpTopic) : List (String × String) :=
  let verbose := ("-v, --verbose", "Enable debug output")
  let help := ("-h, --help", "Print help")
  match topic with
  | .program => [verbose, help, ("-V, --version", "Print version")]
  | .check =>
    [("    --trace <TRACE>", "Exploration trace (JSON)"), verbose,
      ("    --benchmark <BENCHMARK>", "Benchmark name used as record key"),
      ("    --config <CONFIG>", "YAML configuration (version 1)"),
      ("    --db <DB>", "SQLite result database [default: results.db]"),
      ("    --input <INPUT>",
        "Program under analysis; missing files end the run as BASE_TOOL_MISSING"), help]
  | .results =>
    [("    --benchmark <BENCHMARK>", ""), verbose, ("    --tool <TOOL>", "[default: CEGAR]"),
      ("    --errors <ERRORS>", "Error output of the run, if any [default: ]"),
      ("    --timed-out", "The run hit its timeout"), help]
  | .help => []

/-- A table under its title, behind an empty line. -/
def table (title : String) (rows : List (String × String)) : List String :=
  if rows.isEmpty then [] else "" :: title :: twoColumns rows

def text (topic : HelpTopic) : String :=
  String.join <| ([topic.summary, "", "Usage: " ++ programName ++ " " ++ topic.usage] ++
    table "Commands:" topic.commands ++ table "Arguments:" topic.arguments ++
    table "Options:" topic.options).map (· ++ "\n")

end HelpTopic

end Regression
