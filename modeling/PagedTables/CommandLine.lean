import PagedTables.Text.Styled

namespace PagedTables.CommandLine

open Styled (bold heading)

inductive Task where
  | serve
  | check
deriving DecidableEq

/-- What a command line asks for. -/
inductive Command where
  | run (task : Task) (config : String)
  /-- The help text, of one task or of the whole program. -/
  | help (task : Option Task)
  /-- Not a command line of this program. -/
  | usageError
deriving DecidableEq

def Task.name : Task → String
  | serve => "serve"
  | check => "check"

def Task.about : Task → String
  | serve => "Serve the configured datasets"
  | check => "Load every configured dataset and report it, without serving"

def Task.ofName? (s : String) : Option Task :=
  if s = serve.name then some serve else if s = check.name then some check else none

def defaultConfig : String := "config.toml"

def isHelp (arg : String) : Bool := arg = "--help" || arg.startsWith "-h"

/-- The value of `--config=value`. -/
def attached? (arg : String) : Option String :=
  let start := "--config="
  if arg.startsWith start then some (String.ofList (arg.toList.drop start.length)) else none

/-- A single minus is a value; anything longer that begins with one is an option. -/
def isOption (arg : String) : Bool := arg.startsWith "-" && arg ≠ "-"

/-- The options of a task. The path of the settings may be given once, and comes from `fallback`
otherwise. -/
def options (task : Task) (fallback : String) : Option String → List String → Command
  | given, [] => .run task (given.getD fallback)
  | given, arg :: args =>
    match attached? arg with
    | some path => if given.isSome then .usageError else options task fallback (some path) args
    | none =>
      if arg = "--config" then
        match args with
        | [] => .usageError
        | path :: args =>
          if isOption path || given.isSome then .usageError
          else options task fallback (some path) args
      else if isHelp arg then .help (some task)
      else if arg = "--" && args.isEmpty then .run task (given.getD fallback)
      else .usageError

/-- `environment` is the path that the environment gives. -/
def parse (environment : Option String) : List String → Command
  | [] => .usageError
  | arg :: args =>
    match Task.ofName? arg with
    | some task => options task (environment.getD defaultConfig) none args
    | none =>
      if isHelp arg then .help none
      else if arg = "help" then
        match args with
        | [] => .help none
        | ["help"] => .help none
        | [name] =>
          match Task.ofName? name with
          | some task => .help (some task)
          | none => .usageError
        | _ => .usageError
      else .usageError

def program : String := "viewer-server"

/-- Every line but the first begins with `width` blanks. -/
def hanging (width : Nat) (s : String) : String :=
  String.ofList (s.toList.flatMap (fun c =>
    if c = '\n' then c :: List.replicate width ' ' else [c]))

/-- Where the descriptions of a task's options begin. -/
def helpColumn : Nat := "      --config <CONFIG>  ".length

/-- The help text, styled for a terminal. -/
def helpText (environment : Option String) : Option Task → String
  | none => "\n".intercalate [
      "Data viewer backend: paged access to tabular datasets", "",
      heading "Usage:" ++ s!" {bold program} <COMMAND>", "",
      heading "Commands:",
      s!"  {bold Task.serve.name}  {Task.serve.about}",
      s!"  {bold Task.check.name}  {Task.check.about}",
      "  " ++ bold "help" ++ "   Print this message or the help of the given subcommand(s)", "",
      heading "Options:",
      "  " ++ bold "-h" ++ ", " ++ bold "--help" ++ "  Print help", ""]
  | some task => "\n".intercalate [
      task.about, "",
      heading "Usage:" ++ " " ++ bold s!"{program} {task.name}" ++ " [OPTIONS]", "",
      heading "Options:",
      "      " ++ bold "--config" ++ " <CONFIG>  " ++
        hanging helpColumn ("Path to the TOML config file [env: CONFIG_PATH=" ++
          environment.getD "" ++ s!"] [default: {defaultConfig}]"),
      "  " ++ bold "-h" ++ ", " ++ bold "--help" ++ "             Print help", ""]

end PagedTables.CommandLine
