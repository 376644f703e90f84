import CoroutineVM.Settings.Basic
import CoroutineVM.Settings.Source
import CoroutineVM.Toml.Writer

/-!
How the settings of a program are put together, and how they are written.

Four layers may say what a setting is: the usual settings, a file, the environment and the
overrides, each against those before it. A value that the file or the environment gives is converted
when no layer but an override replaces it, so that an override does not hide a value of the wrong
kind.
-/

namespace CoroutineVM

/-- Why there are no settings, or why they cannot be written. -/
inductive SettingsError where
  /-- The file is not there or does not follow its format. -/
  | unreadable
  /-- A value is of the wrong kind. -/
  | unconvertible
  | noValueCapacity
  | noFrameCapacity
  /-- A capacity is beyond the integers of the written format. -/
  | unwritable
  deriving DecidableEq, Repr

/-- What is reported of settings that cannot be used. -/
def SettingsError.message : SettingsError → String
  | .unreadable => "Failed to read configuration sources"
  | .unconvertible => "Failed to parse configuration"
  | .noValueCapacity => "value_stack_capacity must be greater than zero"
  | .noFrameCapacity => "execution_stack_capacity must be greater than zero"
  | .unwritable => "Failed to render configuration"

/-- Settings that are given directly. -/
structure Overrides where
  valueCapacity : Option Nat
  frameCapacity : Option Nat
  counting : Option Bool

/-- No setting is given directly. -/
def Overrides.none : Overrides := ⟨.none, .none, .none⟩

/-- Everything that the settings depend on. -/
structure SettingsSources where
  folder : Folder
  /-- The variables of the environment, by name. -/
  environment : List (String × String)
  /-- The file that is asked for. -/
  path : Option String
  overrides : Overrides

/-- Which file is consulted. -/
inductive Consulted where
  /-- The file at a path, which must be there. -/
  | required (path : String)
  /-- The file with the usual name, if there is one. -/
  | usual
  deriving DecidableEq, Repr

namespace SettingsSources

/-- The variable that names the file. -/
def pathVariable : String := "LUNE_CONFIG_PATH"

/-- The usual name of the file, without its ending. -/
def usualPath : String := "lune"

/-- The file that is asked for, or else the one that the environment names, or else the usual
one. -/
def consulted (sources : SettingsSources) : Consulted :=
  match sources.path.or (sources.environment.lookup pathVariable) with
  | some path => .required path
  | none => .usual

/-- The values of the consulted file. -/
def fileLayer (sources : SettingsSources) : Except SettingsError Layer :=
  let found := match sources.consulted with
    | .required path => (sources.folder.settingsFile? path, true)
    | .usual => (sources.folder.settingsFile? usualPath, false)
  match found with
  | (some (format, text), _) =>
    match format.layer? text with
    | some layer => .ok layer
    | none => .error .unreadable
  | (none, true) => .error .unreadable
  | (none, false) => .ok []

end SettingsSources

namespace Settings

/-! ### The names of the settings -/

def valueCapacityName : String := "value_stack_capacity"

def frameCapacityName : String := "execution_stack_capacity"

def countingName : String := "performance_stats"

def logFilterName : String := "log_filter"

/-- A setting as the environment gives it, or else the file, or else as it usually is. -/
def layered {α : Type} (convert : RawValue → Option α) (name : String) (usual : α)
    (file environment : Layer) : Except SettingsError α :=
  match (environment.get? name).or (file.get? name) with
  | none => .ok usual
  | some raw =>
    match convert raw with
    | some value => .ok value
    | none => .error .unconvertible

/-- The settings of the file and the environment. -/
def ofLayers (file environment : Layer) : Except SettingsError Settings := do
  let valueCapacity ←
    layered RawValue.toNatural? valueCapacityName usual.valueCapacity file environment
  let frameCapacity ←
    layered RawValue.toNatural? frameCapacityName usual.frameCapacity file environment
  let counting ← layered RawValue.toBoolean? countingName usual.counting file environment
  let logFilter ← layered RawValue.toText? logFilterName usual.logFilter file environment
  return { valueCapacity, frameCapacity, counting, logFilter }

/-- The settings with some given directly. -/
def override (settings : Settings) (overrides : Overrides) : Settings :=
  { settings with
    valueCapacity := overrides.valueCapacity.getD settings.valueCapacity
    frameCapacity := overrides.frameCapacity.getD settings.frameCapacity
    counting := overrides.counting.getD settings.counting }

/-- Accepts settings under which a processor has room for something on both stacks. -/
def checkCapacities (settings : Settings) : Except SettingsError Settings :=
  if settings.valueCapacity = 0 then .error .noValueCapacity
  else if settings.frameCapacity = 0 then .error .noFrameCapacity
  else .ok settings

/-- The settings that the sources give. -/
def resolve (sources : SettingsSources) : Except SettingsError Settings := do
  let file ← sources.fileLayer
  let settings ← ofLayers file (Layer.ofEnvironment sources.environment)
  (settings.override sources.overrides).checkCapacities

/-- The settings as a document that the file may consist of. -/
def write (settings : Settings) : Except SettingsError String :=
  match Toml.writeNatural? settings.valueCapacity, Toml.writeNatural? settings.frameCapacity with
  | some valueCapacity, some frameCapacity =>
    .ok (String.ofList
      (Toml.writeEntry valueCapacityName valueCapacity ++
        Toml.writeEntry frameCapacityName frameCapacity ++
        Toml.writeEntry countingName (Toml.writeBoolean settings.counting) ++
        Toml.writeEntry logFilterName (Toml.writeText settings.logFilter)))
  | _, _ => .error .unwritable

end Settings

end CoroutineVM
