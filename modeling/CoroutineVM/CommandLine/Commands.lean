import CoroutineVM.Chunk.Fingerprint
import CoroutineVM.Chunk.Reading
import CoroutineVM.CommandLine.Arguments
import CoroutineVM.Number.Numeral
import CoroutineVM.Script
import CoroutineVM.Settings.Resolution

/-!
The commands of the command line program.

A command works on a folder and on the settings found there, and comes to a report: what it has
printed, and why it failed if it did. What was printed before a failure stays printed.
-/

namespace CoroutineVM.CommandLine

/-- Why a command failed. -/
inductive Failure where
  /-- There are no settings to work with; nothing has been done. -/
  | settings (error : SettingsError)
  | chunkUnread (path : String) (error : FileError)
  | chunkRefused (path : String) (error : LoadError)
  | mainBody (error : ScriptError)
  | call (name : String) (error : ScriptError)
  /-- The settings cannot be shown. -/
  | settingsUnshown (error : SettingsError)
  /-- The run takes more steps than anyone will wait for. -/
  | endless

namespace Failure

/-- What was being done, if that is not plain from the cause. -/
def context? : Failure → Option String
  | .settings _ => some "Failed to load configuration"
  | .chunkUnread path _ => some ("Failed to read chunk " ++ path)
  | .chunkRefused path _ => some ("Failed to load chunk " ++ path)
  | .mainBody _ => some "Main body failed"
  | .call name _ => some ("Call to '" ++ name ++ "' failed")
  | .settingsUnshown _ | .endless => none

/-- What went wrong. -/
def cause : Failure → String
  | .settings error | .settingsUnshown error => error.message
  | .chunkUnread _ error => error.message
  | .chunkRefused _ error => error.message
  | .mainBody error | .call _ error => error.message
  | .endless => "the run does not end"

end Failure

/-- What a command comes to. -/
structure Report where
  output : String
  failure : Option Failure

namespace Report

/-- A command that has done what it was asked to. -/
def done (output : String) : Report := ⟨output, none⟩

def failed (output : String) (failure : Failure) : Report := ⟨output, some failure⟩

end Report

/-- Reads the chunk at a path. -/
def readChunk (folder : Folder) (path : String) : Except Failure Chunk :=
  match folder.read path with
  | .error error => .error (.chunkUnread path error)
  | .ok text =>
    match Chunk.load text with
    | .error error => .error (.chunkRefused path error)
    | .ok chunk => .ok chunk

/-! ### Running a chunk -/

/-- The value that an argument stands for: nil, a boolean or a number where it reads as one, and
otherwise its text. -/
def argumentValue (argument : String) : Value :=
  if argument = "nil" then .nil
  else if argument = "true" then .boolean true
  else if argument = "false" then .boolean false
  else match Number.ofText? argument.toList with
    | some x => .number x
    | none => .string argument

/-- The function that scripts print with. -/
def printFunction : HostFunction := ⟨"print", 0⟩

/-- A line that shows a value. -/
def line (value : Value) : String := value.display ++ "\n"

/-- The host of a script that is run from the command line. Its world is what has been printed, and
its one function prints its arguments on a line. -/
def printer : Host String where
  respond _ event _ output :=
    match event with
    | .invoked _ arguments => (output ++ line (.tuple arguments), .finish (.ok .nil))
    | _ => (output, .finish (.ok .nil))
  executionEnded _ _ _ output := (output, none)

/-- The thread that the program runs on. -/
def thread : ThreadId := 1

/-- Goes on with what an execution has come to, and with the store and the output after it. -/
def proceed (result : Script.Result String) (failure : ScriptError → Failure)
    (next : Value → Store → String → Report) : Report :=
  match result.outcome with
  | some (.ok exit) => next exit.value result.store result.world
  | some (.error error) => .failed result.world (failure error)
  | none => .failed result.world .endless

/-- Runs the main body of a chunk and prints what it returns; if a function is named, it is called
then, and what it returns is printed instead. -/
def runChunk (settings : Settings) (chunk : Chunk) (function : Option String)
    (arguments : List String) : Report :=
  let store := (Store.initial chunk settings thread).register printFunction
  proceed (Script.run printer store "") .mainBody fun value store output =>
    match function with
    | none => .done (output ++ line value)
    | some name =>
      proceed (Script.callGlobal printer name (arguments.map argumentValue) store output)
        (.call name) fun value _ output => .done (output ++ line value)

/-! ### Describing a chunk -/

/-- The text with spaces after it up to a width. -/
def padded (width : Nat) (text : String) : String :=
  text ++ String.ofList (List.replicate (width - text.length) ' ')

/-- The row of a function in the description of a chunk. -/
def functionRow (index : Nat) (function : FunctionEntry) : String :=
  "  #" ++ padded 3 index.repr ++ " " ++ padded 20 function.name ++ " entry=" ++
    padded 5 function.entryPoint.repr ++ " params=" ++ function.parameters.repr ++
    (if function.variadic then ", ..." else "") ++ "\n"

/-- The fingerprint of a chunk, the length of its code and its functions. -/
def describe (chunk : Chunk) : String :=
  "Fingerprint: " ++ chunk.fingerprint ++ "\nInstructions: " ++ chunk.code.size.repr ++
    "\nFunctions:\n" ++
    String.join (chunk.functions.toList.mapIdx functionRow)

/-! ### The commands -/

/-- Carries out a command under settings. -/
def Command.perform (folder : Folder) (settings : Settings) : Command → Report
  | .run path function arguments =>
    match readChunk folder path with
    | .error failure => .failed "" failure
    | .ok chunk => runChunk settings chunk function arguments
  | .inspect path =>
    match readChunk folder path with
    | .error failure => .failed "" failure
    | .ok chunk => .done (describe chunk)
  | .config =>
    match settings.write with
    | .error error => .failed "" (.settingsUnshown error)
    | .ok text => .done text

/-- Carries out an invocation: finds the settings, which only a file and the environment change, and
performs the command under them. -/
def Invocation.perform (folder : Folder) (environment : List (String × String))
    (invocation : Invocation) : Report :=
  match Settings.resolve ⟨folder, environment, invocation.configPath, .none⟩ with
  | .error error => .failed "" (.settings error)
  | .ok settings => invocation.command.perform folder settings

end CoroutineVM.CommandLine
