/-!
The arguments of the command line program and what they ask for.

Arguments are read from left to right: first those of the program, then, after the name of a
command, those of the command. An option begins with a dash, and may have its value attached or as
the next argument; after a lone double dash everything is an operand. The value of an option, and
the first operand, are examined when the next argument begins, so that an unknown option is
reported before a fault in the value that stands before it.
-/

namespace CoroutineVM.CommandLine

/-- What the program is asked to do. -/
inductive Command where
  /-- Run a chunk, and then call one of its functions if one is named. -/
  | run (chunk : String) (function : Option String) (arguments : List String)
  /-- Describe a chunk. -/
  | inspect (chunk : String)
  /-- Show the settings. -/
  | config
  deriving DecidableEq, Repr

/-- Arguments that make sense. -/
structure Invocation where
  /-- The file with settings that is asked for. -/
  configPath : Option String
  command : Command
  deriving DecidableEq, Repr

/-- Why arguments do not amount to an invocation. -/
inductive UsageError where
  /-- Help is asked for. -/
  | helpWanted
  /-- There are no arguments, which is answered by help too. -/
  | nothingAsked
  /-- There are options, but no command. -/
  | commandMissing
  | unknownCommand
  | unknownArgument
  /-- The chunk is missing. -/
  | operandMissing
  /-- An option has no value, or a path is empty. -/
  | valueMissing
  /-- A value is attached to an option that takes none. -/
  | valueUnwanted
  /-- An option is given twice. -/
  | repeated
  deriving DecidableEq, Repr

/-- How an argument reads. -/
inductive Word where
  /-- A lone double dash. -/
  | separator
  | long (name : String) (value : Option String)
  /-- A dash with letters. -/
  | short (letters : List Char)
  | plain (text : String)
  deriving DecidableEq, Repr

/-- The text before the first equals sign, and the text after it if there is one. -/
def splitEquals : List Char → List Char × Option (List Char)
  | [] => ([], none)
  | '=' :: rest => ([], some rest)
  | c :: rest =>
    match splitEquals rest with
    | (name, value) => (c :: name, value)

def Word.ofText (text : String) : Word :=
  match text.toList with
  | ['-', '-'] => .separator
  | '-' :: '-' :: rest =>
    let (name, value) := splitEquals rest
    .long (String.ofList name) (value.map String.ofList)
  | '-' :: letter :: rest => .short (letter :: rest)
  | _ => .plain text

/-- The options that take a value. -/
inductive Setting where
  | config
  | function
  deriving DecidableEq, Repr

/-- Whose arguments are read. -/
inductive Level where
  | program
  | run
  | inspect
  | config
  deriving DecidableEq, Repr

/-- The option with a long name. -/
def Level.long? (level : Level) (name : String) : Option Setting :=
  if name = "config" then some .config
  else if name = "function" ∧ level = .run then some .function
  else none

/-- The option with a letter. -/
def Level.short? (level : Level) (letter : Char) : Option Setting :=
  if letter = 'f' ∧ level = .run then some .function else none

/-- What was begun and has not been examined yet. -/
inductive Begun where
  /-- An option, with its value if that has come. -/
  | option (setting : Setting) (value : Option String)
  /-- The first operand. -/
  | chunk (path : String)
  deriving DecidableEq, Repr

/-- What the arguments of one level have given so far. -/
structure Progress where
  configPath : Option String
  function : Option String
  chunk : Option String
  /-- The operands after the first one, the last one first. -/
  others : List String
  begun : Option Begun
  /-- Whether a lone double dash has come. -/
  separated : Bool
  deriving DecidableEq, Repr

namespace Progress

def start : Progress := ⟨none, none, none, [], none, false⟩

/-- Takes up an option with a value. An option has one value, and a path is not empty. -/
def take (progress : Progress) (setting : Setting) (value : String) :
    Except UsageError Progress :=
  match setting with
  | .config =>
    if progress.configPath.isSome then .error .repeated
    else if value.isEmpty then .error .valueMissing
    else .ok { progress with configPath := some value }
  | .function =>
    if progress.function.isSome then .error .repeated
    else .ok { progress with function := some value }

/-- Examines what was begun. -/
def settle (progress : Progress) : Except UsageError Progress :=
  let rest := { progress with begun := none }
  match progress.begun with
  | none => .ok rest
  | some (.option _ none) => .error .valueMissing
  | some (.option setting (some value)) => rest.take setting value
  | some (.chunk path) =>
    if path.isEmpty then .error .valueMissing else .ok { rest with chunk := some path }

/-- Begins an option: its value is attached, or the next argument will be it. -/
def begin (progress : Progress) (setting : Setting) (value : Option String) :
    Except UsageError Progress := do
  let progress ← progress.settle
  match value with
  | some value => progress.take setting value
  | none => return { progress with begun := some (.option setting none) }

/-- The option that waits for its value, if one does. -/
def waiting? (progress : Progress) : Option Setting :=
  match progress.begun with
  | some (.option setting none) => if progress.separated then none else some setting
  | _ => none

/-- Asks for help, after what was begun has been examined. -/
def help {α : Type} (progress : Progress) : Except UsageError α := do
  let _ ← progress.settle
  throw .helpWanted

/-- Reads an option by its long name. -/
def readLong (level : Level) (progress : Progress) (name : String) (value : Option String) :
    Except UsageError Progress :=
  match level.long? name with
  | some setting => progress.begin setting value
  | none =>
    if name = "help" then
      if value.isSome then .error .valueUnwanted else progress.help
    else .error .unknownArgument

/-- The value that is attached to the letter of an option. -/
def attached : List Char → Option String
  | [] => none
  | '=' :: value => some (String.ofList value)
  | value => some (String.ofList value)

/-- Reads an option by its letter, to which all that follows is attached. -/
def readShort (level : Level) (progress : Progress) (letters : List Char) :
    Except UsageError Progress :=
  match letters with
  | [] => .error .unknownArgument
  | letter :: rest =>
    match level.short? letter with
    | some setting => progress.begin setting (attached rest)
    | none => if letter = 'h' then progress.help else .error .unknownArgument

/-- Reads an operand of a command. -/
def readOperand (level : Level) (progress : Progress) (text : String) :
    Except UsageError Progress := do
  match level, progress.begun, progress.chunk with
  | .run, some (.chunk _), _ | .run, _, some _ =>
    let progress ← progress.settle
    return { progress with others := text :: progress.others }
  | .run, _, none | .inspect, none, none =>
    let progress ← progress.settle
    return { progress with begun := some (.chunk text) }
  | .inspect, some (.option _ _), none =>
    let progress ← progress.settle
    return { progress with begun := some (.chunk text) }
  | _, _, _ => .error .unknownArgument

end Progress

/-- What an argument is at some point of a level. -/
inductive Reading where
  /-- An option, a value or the separator. -/
  | taken (progress : Progress)
  | operand

/-- Reads an argument that may be an option or its value. -/
def readArgument (level : Level) (progress : Progress) (argument : String) :
    Except UsageError Reading :=
  if progress.separated then .ok .operand
  else match Word.ofText argument with
    | .separator => .ok (.taken { progress with separated := true })
    | .long name value => (progress.readLong level name value).map .taken
    | .short letters => (progress.readShort level letters).map .taken
    | .plain text =>
      match progress.waiting? with
      | some setting => .ok (.taken { progress with begun := some (.option setting (some text)) })
      | none => .ok .operand

/-- Reads the arguments of a command. -/
def readCommandArguments (level : Level) (progress : Progress) :
    List String → Except UsageError Progress
  | [] => progress.settle
  | argument :: rest => do
    match ← readArgument level progress argument with
    | .taken progress => readCommandArguments level progress rest
    | .operand => readCommandArguments level (← progress.readOperand level argument) rest

/-- The names of the commands. -/
def Level.ofName? (name : String) : Option Level :=
  if name = "run" then some .run
  else if name = "inspect" then some .inspect
  else if name = "config" then some .config
  else none

/-- The name under which the program offers help on a command. -/
def helpName : String := "help"

/-- What asking for help on commands leads to: each must be the name of one, and only the first can
be. -/
def readHelp : List String → UsageError
  | [] => .helpWanted
  | [name] => if (Level.ofName? name).isSome ∨ name = helpName then .helpWanted else .unknownCommand
  | _ => .unknownCommand

/-- The command that the arguments of a level give. -/
def commandOf (level : Level) (progress : Progress) : Except UsageError Command :=
  match level, progress.chunk with
  | .run, some chunk => .ok (.run chunk progress.function progress.others.reverse)
  | .inspect, some chunk => .ok (.inspect chunk)
  | .config, _ => .ok .config
  | .program, _ => .error .commandMissing
  | _, none => .error .operandMissing

/-- Reads a command after the arguments of the program. The program's own are examined last, and an
option of the command replaces the program's. -/
def readCommand (level : Level) (program : Progress) (arguments : List String) :
    Except UsageError Invocation := do
  let progress ← readCommandArguments level .start arguments
  let command ← commandOf level progress
  let program ← program.settle
  return ⟨progress.configPath.or program.configPath, command⟩

/-- Reads what stands where the name of a command is expected. -/
def readCommandName (program : Progress) (name : String) (rest : List String) :
    Except UsageError Invocation :=
  match program.separated, Level.ofName? name with
  | false, some level => readCommand level program rest
  | false, none => .error (if name = helpName then readHelp rest else .unknownCommand)
  | true, some _ => .error .unknownArgument
  | true, none => .error (if name = helpName then .unknownArgument else .unknownCommand)

/-- Reads the arguments of the program. -/
def readProgram (program : Progress) : List String → Except UsageError Invocation
  | [] => do
    let program ← program.settle
    throw (if program.configPath.isSome then .commandMissing else .nothingAsked)
  | argument :: rest => do
    match ← readArgument .program program argument with
    | .taken program => readProgram program rest
    | .operand => readCommandName program argument rest

/-- The invocation that the arguments of the program amount to. -/
def read (arguments : List String) : Except UsageError Invocation := readProgram .start arguments

end CoroutineVM.CommandLine
