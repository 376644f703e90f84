import CoroutineVM.CommandLine.Commands

/-!
The command line program: reads the files and variables that an invocation may need, performs it and
prints its report.
-/

namespace CoroutineVM.CommandLine

/-- What the program says about arguments that do not amount to an invocation. -/
def UsageError.explanation : UsageError → String
  | .helpWanted | .nothingAsked => "help"
  | .commandMissing => "a command is missing"
  | .unknownCommand => "there is no such command"
  | .unknownArgument => "there is an argument that is not known"
  | .operandMissing => "the path of a chunk is missing"
  | .valueMissing => "a value is missing"
  | .valueUnwanted => "an option has a value that it does not take"
  | .repeated => "an option is given twice"

/-- How the program is used. -/
def usage : String :=
  "Runs and inspects compiled chunks of script code.\n\n" ++
  "Usage: lune [--config <CONFIG>] <COMMAND>\n\n" ++
  "Commands:\n" ++
  "  run <CHUNK> [-f <FUNCTION>] [ARGS]...  Run a chunk, then call one of its functions\n" ++
  "  inspect <CHUNK>                        Describe a chunk\n" ++
  "  config                                 Show the settings\n"

/-- The variables that settings may come from. -/
def variableNames : List String :=
  SettingsSources.pathVariable ::
    [Settings.valueCapacityName, Settings.frameCapacityName, Settings.countingName,
      Settings.logFilterName].map fun name => Layer.variablePrefix.toUpper ++ name.toUpper

/-- The variables that are set. -/
def readEnvironment : IO (List (String × String)) :=
  variableNames.filterMapM fun name => do
    return (← IO.getEnv name).map (name, ·)

/-- The paths that an invocation may read. -/
def Invocation.paths (environment : List (String × String)) (invocation : Invocation) :
    List String :=
  let settings := (invocation.configPath.or
    (environment.lookup SettingsSources.pathVariable)).getD SettingsSources.usualPath
  let chunk := match invocation.command with
    | .run path _ _ | .inspect path => [path]
    | .config => []
  settings :: ([FileFormat.toml, .json].map (settings ++ "." ++ ·.ending) ++ chunk)

/-- Tries to read a file. -/
def tryRead (path : String) : IO (Except FileError String) := do
  try
    return .ok (← IO.FS.readFile path)
  catch
    | .noFileOrDirectory .. => return .error .missing
    | .inappropriateType .. => return .error .isFolder
    | _ => return .error .missing

/-- Performs an invocation in the folder that the program was started in. -/
def perform (invocation : Invocation) : IO UInt32 := do
  let environment ← readEnvironment
  let readings ← (invocation.paths environment).mapM fun path => do
    return (path, ← tryRead path)
  let report := invocation.perform (.ofReadings readings) environment
  (← IO.getStdout).putStr report.output
  match report.failure with
  | none => return 0
  | some failure =>
    match failure.context? with
    | some context => IO.eprintln ("Error: " ++ context ++ "\n\nCaused by:\n    " ++ failure.cause)
    | none => IO.eprintln ("Error: " ++ failure.cause)
    return 1

/-- Does what the arguments ask for. -/
def start (arguments : List String) : IO UInt32 := do
  match read arguments with
  | .ok invocation => perform invocation
  | .error .helpWanted =>
    IO.print usage
    return 0
  | .error .nothingAsked =>
    IO.eprint usage
    return 2
  | .error error =>
    IO.eprintln ("error: " ++ error.explanation)
    return 2

end CoroutineVM.CommandLine

def main (arguments : List String) : IO UInt32 := CoroutineVM.CommandLine.start arguments
