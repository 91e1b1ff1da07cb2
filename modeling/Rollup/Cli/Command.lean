import Rollup.Cli.Flags
import Rollup.Cli.Task
import Rollup.Report.Summary
import Rollup.Settings.File

/-! The command: settle the settings, run on the input, print the report, and then write the
report and the summary to the files that the flags name.  Nothing is printed or written unless
the run succeeds, and the summary is not written if writing the report fails.  An error is told
with every cause behind it.  What reads the arguments, what reads a settings file and what lays out
the summary are libraries, and the command is made from them. -/

namespace Rollup.Cli

open Table

def versionText : String := "tally 0.1.0\n"

def helpText : String := String.join
  ["Filter, group and rank a delimited text table in one streaming pass\n\n",
    "Usage: tally [OPTIONS]\n\nOptions:\n",
    "      --input <INPUT>                Path to the input table\n",
    "      --filter <FILTER>              Row filter, e.g. 'region == \"APAC\" && amount > 1000'\n",
    "      --group-by <GROUP_BY>          Comma-separated group-by columns\n",
    "      --agg <AGG>                    Comma-separated aggregations: ",
    "count, sum(col), avg(col), min(col), max(col)\n",
    "      --top-n <TOP_N>                Number of groups to rank [default: 10]\n",
    "      --top-n-metric <TOP_N_METRIC>  Ranking metric: ",
    "count, sum_<col>, avg_<col>, min_<col> or max_<col> [default: count]\n",
    "      --output <OUTPUT>              Write the JSON summary to this path\n",
    "      --report <REPORT>              Also write the text report to this path\n",
    "      --delimiter <DELIMITER>        Field delimiter, one character or \\t [default: ,]\n",
    "      --header <HEADER>              Whether the first record is a header row ",
    "[default: true] [possible values: true, false]\n",
    "      --config <CONFIG>              TOML file with defaults; flags override it\n",
    "      --debug                        Enable debug logging\n",
    "  -h, --help                         Print help\n",
    "  -V, --version                      Print version\n"]

def fail (messages : List String) : Task :=
  .stop 1 (some ("Error: " ++ Text.joined ": " messages))

def failSettings (error : SettingsError) : Task := fail (error.message :: error.cause?.toList)

def failAnalysis (error : AnalysisError) : Task := fail error.chain

def writeTo (path? : Option String) (what text : String) (next : Task) : Task :=
  match path? with
  | none => next
  | some path =>
    .write path text fun
      | none => next
      | some cause => fail ["Failed to write " ++ what ++ " to " ++ path, cause]

def openTable (dialect : Dialect) (path : String) : Reading → Except TableError Rows
  | .content source => Rows.ofSource dialect path source
  | .directory => .error (.notAFile path)
  | .failure cause => .error (.cannotOpen path cause)

/-- The libraries of the command: what a line of arguments asks for, the fields of a settings file,
and the text of a summary. -/
structure Toolkit where
  request : List String → Request
  fieldsOf? : String → Option Toml.Fields
  layOut : Json.Value → String

namespace Toolkit

variable (toolkit : Toolkit)

/-- Prints and writes what a run found. -/
def deliver (flags : Flags) (analysis : Analysis) : Task :=
  let report := Report.text analysis
  let summary := toolkit.layOut (Report.summary analysis)
  .print report <|
    writeTo flags.report? "report" report <|
      writeTo flags.output? "JSON summary" summary <|
        .stop 0 none

def runInput (flags : Flags) (settings : Settings) : Task :=
  match settings.inputPath, settings.dialect with
  | .error error, _ => failAnalysis (.settings error)
  | _, .error error => failAnalysis (.settings error)
  | .ok path, .ok dialect =>
    .read path fun reading =>
      match openTable dialect path reading with
      | .error error => failAnalysis (.table error)
      | .ok rows =>
        match (settings.runOn rows).result with
        | .error error => failAnalysis error
        | .ok analysis => toolkit.deliver flags analysis

def runSettings (flags : Flags) (base : Settings) : Task :=
  match flags.resolve base with
  | .error error => failSettings error
  | .ok settings => toolkit.runInput flags settings

def runFlags (flags : Flags) : Task :=
  match flags.config? with
  | none => toolkit.runSettings flags {}
  | some path =>
    .read path fun reading =>
      match Settings.loadBy toolkit.fieldsOf? path reading.bytes with
      | .error error => failSettings error
      | .ok settings => toolkit.runSettings flags settings

/-- The whole command. -/
def command (arguments : List String) : Task :=
  match toolkit.request arguments with
  | .rejected => .stop 2 none
  | .help => .print helpText (.stop 0 none)
  | .version => .print versionText (.stop 0 none)
  | .run flags => toolkit.runFlags flags

def own : Toolkit := ⟨Request.ofArguments, Toml.fields?, Json.Value.toPrettyText⟩

end Toolkit

def command : List String → Task := Toolkit.own.command

end Rollup.Cli
