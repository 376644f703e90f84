import CoroutineVM.Settings.Resolution
import Mathlib

/-!
# Each setting is resolved on its own

What the settings come to is said here without the order in which they are put together: which file
is consulted (`Consults`), where it is found (`Folder.Finds`), what it gives (`Opens`) or why it
cannot be used (`Unreadable`), and for one setting at a time which value is taken (`Takes`) and what
comes of it (`Gives`, `Rejects`).
`settings_resolved_apart` says that the settings are what these relations say, and that there are
none in exactly four cases.

An override stands apart from the other layers: it replaces what they give, but the value that they
take is converted all the same. A value of the file that a variable hides is not converted, so that
nothing is asked of it.
-/

namespace CoroutineVM

/-- Where the consulted file is looked for. -/
def Consulted.path : Consulted → String
  | .required path => path
  | .usual => SettingsSources.usualPath

/-! ### Finding a file -/

/-- Nothing can be read at a path. -/
def Folder.Lacks (folder : Folder) (path : String) : Prop :=
  ∀ text, folder.read path ≠ .ok text

/-- The file that a path means, and its format. A file at the path itself comes first, and then its
name has to tell a known format: no ending is tried in its place. Where nothing can be read at the
path, the path is taken for a name without its ending, and a TOML file comes before a JSON file. -/
inductive Folder.Finds (folder : Folder) (path : String) : FileFormat → String → Prop
  | exact {format : FileFormat} {text : String} (present : folder.read path = .ok text)
      (known : FileFormat.ofPath? path = some format) : Finds folder path format text
  | toml {text : String} (absent : folder.Lacks path) (named : path ≠ "")
      (present : folder.read (path ++ "." ++ FileFormat.toml.ending) = .ok text) :
      Finds folder path .toml text
  | json {text : String} (absent : folder.Lacks path) (named : path ≠ "")
      (other : folder.Lacks (path ++ "." ++ FileFormat.toml.ending))
      (present : folder.read (path ++ "." ++ FileFormat.json.ending) = .ok text) :
      Finds folder path .json text

namespace Folder

variable {folder : Folder} {path text : String} {format : FileFormat}

/-- Where a path cannot be read there is no file at it, whatever the reason that is given. -/
theorem lacks_of_error {error : FileError} (fails : folder.read path = .error error) :
    folder.Lacks path := by
  intro text present
  rw [fails] at present
  cases present

/-- The other way round, a path without a file cannot be read. -/
theorem Lacks.error (absent : folder.Lacks path) : ∃ error, folder.read path = .error error := by
  cases present : folder.read path with
  | ok text => exact absurd present (absent text)
  | error error => exact ⟨error, rfl⟩

/-- Where nothing is at the path, the endings are tried in their order. -/
theorem settingsFile?_of_lacks (absent : folder.Lacks path) (named : path ≠ "") :
    folder.settingsFile? path =
      ((folder.read (path ++ "." ++ FileFormat.toml.ending)).toOption.map (FileFormat.toml, ·)).or
        ((folder.read (path ++ "." ++ FileFormat.json.ending)).toOption.map
          (FileFormat.json, ·)) := by
  obtain ⟨error, fails⟩ := absent.error
  have some : path.isEmpty = false := by simpa [String.isEmpty_iff] using named
  rw [settingsFile?, fails]
  simp only [some, List.findSome?_cons, List.findSome?_nil]
  cases folder.read (path ++ "." ++ FileFormat.toml.ending) <;>
    cases folder.read (path ++ "." ++ FileFormat.json.ending) <;> rfl

/-- The search for a file gives the one that the path means and no other. With this nothing below
looks into the search again. -/
theorem settingsFile?_eq_some_iff :
    folder.settingsFile? path = some (format, text) ↔ folder.Finds path format text := by
  constructor
  · intro found
    cases here : folder.read path with
    | ok whole =>
      rw [settingsFile?, here] at found
      simp only [Option.map_eq_some_iff, Prod.mk.injEq] at found
      obtain ⟨_, known, rfl, rfl⟩ := found
      exact .exact here known
    | error error =>
      have absent : folder.Lacks path := lacks_of_error here
      have named : path ≠ "" := by
        rintro rfl
        rw [settingsFile?, here] at found
        cases found
      rw [settingsFile?_of_lacks absent named] at found
      cases first : folder.read (path ++ "." ++ FileFormat.toml.ending) with
      | ok whole =>
        rw [first] at found
        cases found
        exact .toml absent named first
      | error _ =>
        rw [first] at found
        cases second : folder.read (path ++ "." ++ FileFormat.json.ending) with
        | ok whole =>
          rw [second] at found
          cases found
          exact .json absent named (lacks_of_error first) second
        | error _ =>
          rw [second] at found
          cases found
  · intro finds
    cases finds with
    | exact present known => rw [settingsFile?, present]; simp only [known, Option.map_some]
    | toml absent named present => rw [settingsFile?_of_lacks absent named, present]; rfl
    | json absent named other present =>
      obtain ⟨error, fails⟩ := other.error
      rw [settingsFile?_of_lacks absent named, fails, present]
      rfl

/-- Nothing is found exactly if there is nothing to be found, neither at the path nor with an ending
added to it. -/
theorem settingsFile?_eq_none_iff :
    folder.settingsFile? path = none ↔ ∀ format text, ¬ folder.Finds path format text := by
  simp only [← settingsFile?_eq_some_iff, Option.eq_none_iff_forall_ne_some, Prod.forall]

end Folder

/-- A name without an ending means the TOML file, also where there is a JSON file of that name. -/
example :
    (Folder.ofReadings [("lune.json", .ok "1"), ("lune.toml", .ok "2")]).settingsFile? "lune" =
      some (.toml, "2") := by
  decide +kernel

namespace SettingsSources

variable {α : Type}

/-! ### The layers -/

/-- The file that is consulted: the one that is asked for, else the one that a variable names, else
the usual one. -/
inductive Consults (sources : SettingsSources) : Consulted → Prop
  | asked {path : String} (given : sources.path = some path) : Consults sources (.required path)
  | named {path : String} (unasked : sources.path = none)
      (given : sources.environment.lookup pathVariable = some path) :
      Consults sources (.required path)
  | usual (unasked : sources.path = none)
      (unnamed : sources.environment.lookup pathVariable = none) : Consults sources .usual

/-- The values that the file gives. Only the usual file may be missing. -/
inductive Opens (sources : SettingsSources) : Layer → Prop
  | found {consulted : Consulted} {format : FileFormat} {text : String} {layer : Layer}
      (consults : sources.Consults consulted)
      (present : sources.folder.Finds consulted.path format text)
      (follows : format.layer? text = some layer) : Opens sources layer
  | missing (consults : sources.Consults .usual)
      (absent : ∀ format text, ¬ sources.folder.Finds usualPath format text) : Opens sources []

/-- A file that must be there is missing, or the file does not follow its format. -/
inductive Unreadable (sources : SettingsSources) : Prop
  | missing {path : String} (consults : sources.Consults (.required path))
      (absent : ∀ format text, ¬ sources.folder.Finds path format text)
  | malformed {consulted : Consulted} {format : FileFormat} {text : String}
      (consults : sources.Consults consulted)
      (present : sources.folder.Finds consulted.path format text)
      (breaks : format.layer? text = none)

/-- The text of the variable that stands for a setting. Names are compared without regard to case;
of several such variables the last one counts. -/
def settingText? (sources : SettingsSources) (name : String) : Option String :=
  (sources.environment.reverse.find? fun entry =>
    entry.1.toLower = Layer.variablePrefix ++ name).map (·.2)

/-- The value that is taken for a setting: the variable's, or else the file's. -/
inductive Takes (sources : SettingsSources) (file : Layer) (name : String) : RawValue → Prop
  | environment {text : String} (present : sources.settingText? name = some text) :
      Takes sources file name (.ofVariable text)
  | file {raw : RawValue} (absent : sources.settingText? name = none)
      (present : file.get? name = some raw) : Takes sources file name raw

/-- What a setting is before the overrides. -/
inductive Gives (sources : SettingsSources) (file : Layer) (name : String)
    (convert : RawValue → Option α) (usual : α) : α → Prop
  | taken {raw : RawValue} {value : α} (takes : sources.Takes file name raw)
      (converts : convert raw = some value) : Gives sources file name convert usual value
  | usual (untaken : ∀ raw, ¬ sources.Takes file name raw) :
      Gives sources file name convert usual usual

/-- The value that is taken for a setting is of the wrong kind. -/
def Rejects (sources : SettingsSources) (file : Layer) (name : String)
    (convert : RawValue → Option α) : Prop :=
  ∃ raw, sources.Takes file name raw ∧ convert raw = none

end SettingsSources

/-! ### The settings together -/

open Settings
open RawValue (toNatural? toBoolean? toText?)

/-- Every setting is as the layers give it. -/
structure SettingsSources.Layered (sources : SettingsSources) (file : Layer) (settings : Settings) :
    Prop where
  valueCapacity : sources.Gives file valueCapacityName toNatural? usual.valueCapacity
    settings.valueCapacity
  frameCapacity : sources.Gives file frameCapacityName toNatural? usual.frameCapacity
    settings.frameCapacity
  counting : sources.Gives file countingName toBoolean? usual.counting settings.counting
  logFilter : sources.Gives file logFilterName toText? usual.logFilter settings.logFilter

/-- The value that is taken for one of the settings is of the wrong kind. -/
inductive SettingsSources.Clashes (sources : SettingsSources) (file : Layer) : Prop
  | valueCapacity (rejects : sources.Rejects file valueCapacityName toNatural?)
  | frameCapacity (rejects : sources.Rejects file frameCapacityName toNatural?)
  | counting (rejects : sources.Rejects file countingName toBoolean?)
  | logFilter (rejects : sources.Rejects file logFilterName toText?)

/-- Every setting is the override, if there is one, and otherwise as it was. -/
structure Settings.Overridden (before : Settings) (overrides : Overrides) (after : Settings) :
    Prop where
  valueCapacity : after.valueCapacity = overrides.valueCapacity.getD before.valueCapacity
  frameCapacity : after.frameCapacity = overrides.frameCapacity.getD before.frameCapacity
  counting : after.counting = overrides.counting.getD before.counting
  logFilter : after.logFilter = before.logFilter

/-- The settings of all layers and overrides, whether a processor could do with them or not. -/
inductive SettingsSources.Amounts (sources : SettingsSources) (settings : Settings) : Prop
  | of {file : Layer} {layered : Settings} (opens : sources.Opens file)
      (gives : sources.Layered file layered)
      (overridden : layered.Overridden sources.overrides settings) : Amounts sources settings

/-- What comes of the sources. -/
inductive SettingsSources.Yields (sources : SettingsSources) :
    Except SettingsError Settings → Prop
  | unreadable (unreadable : sources.Unreadable) : Yields sources (.error .unreadable)
  | unconvertible {file : Layer} (opens : sources.Opens file) (clashes : sources.Clashes file) :
      Yields sources (.error .unconvertible)
  | noValueCapacity {settings : Settings} (amounts : sources.Amounts settings)
      (none : settings.valueCapacity = 0) : Yields sources (.error .noValueCapacity)
  | noFrameCapacity {settings : Settings} (amounts : sources.Amounts settings)
      (some : 0 < settings.valueCapacity) (none : settings.frameCapacity = 0) :
      Yields sources (.error .noFrameCapacity)
  | settings {settings : Settings} (amounts : sources.Amounts settings)
      (values : 0 < settings.valueCapacity) (frames : 0 < settings.frameCapacity) :
      Yields sources (.ok settings)

/-! ### Variables -/

/-- The names of the settings. -/
def Settings.names : List String :=
  [valueCapacityName, frameCapacityName, countingName, logFilterName]

/-- The names of the settings are written in small letters. -/
theorem lower_of_name : ∀ name ∈ names, name.toLower = name := by
  decide +kernel

/-- Small letters stay as they are when they are made small. -/
theorem toLower_toLower (text : String) : text.toLower.toLower = text.toLower := by
  rw [← String.toList_inj]
  simp only [String.toLower, String.toList_map, List.map_map, Function.comp_def,
    Char.toLower_toLower_eq_toLower]

namespace Layer

variable {name : String}

/-- What is left of a variable's name is a name in lower case only if the whole name spells it. -/
theorem names_iff (lower : name.toLower = name) (entry : String) :
    (entry.toLower.startsWith variablePrefix = true ∧
      (String.ofList (entry.toLower.toList.drop variablePrefix.length)).toLower = name) ↔
        entry.toLower = variablePrefix ++ name := by
  have fixed : entry.toLower.toList.map Char.toLower = entry.toLower.toList := by
    rw [← String.toList_map]
    exact congrArg String.toList (toLower_toLower entry)
  have length : variablePrefix.length = variablePrefix.toList.length := rfl
  rw [String.startsWith_string_iff]
  constructor
  · rintro ⟨⟨rest, whole⟩, named⟩
    rw [← whole, length, List.drop_left] at named
    have kept : rest.map Char.toLower = rest := by
      rw [← whole, List.map_append] at fixed
      exact (List.append_inj' fixed (by simp)).2
    rw [← String.toList_inj, ← whole, String.toList_append, ← named]
    simp [String.toLower, kept]
  · intro same
    rw [same, String.toList_append, length, List.drop_left, String.ofList_toList]
    exact ⟨⟨_, rfl⟩, lower⟩

/-- What the environment gives under a name is said by the variable that stands for it. The layer is
searched from the back, so that of several variables with the same name the last one is taken. -/
theorem get?_ofEnvironment (known : name ∈ names) (sources : SettingsSources) :
    (ofEnvironment sources.environment).get? name =
      (sources.settingText? name).map RawValue.ofVariable := by
  have lower := lower_of_name name known
  rw [get?, ofEnvironment, ← List.filterMap_reverse, List.find?_filterMap,
    SettingsSources.settingText?, Option.map_map]
  have same : ∀ entry : String × String,
      (Option.any (fun value : String × RawValue => decide (value.1.toLower = name))
        (if entry.1.toLower.startsWith variablePrefix then
          some (String.ofList (entry.1.toLower.toList.drop variablePrefix.length),
            .ofVariable entry.2)
        else none)) = decide (entry.1.toLower = variablePrefix ++ name) := by
    intro entry
    rw [Bool.eq_iff_iff, decide_eq_true_iff, ← names_iff lower]
    split <;> simp_all
  simp only [same]
  cases found : sources.environment.reverse.find? fun entry =>
      decide (entry.1.toLower = variablePrefix ++ name) with
  | none => rfl
  | some entry =>
    have spelt := List.find?_some found
    have named := (names_iff lower entry.1).2 (of_decide_eq_true spelt)
    simp only [Option.map_some, Option.bind_some, named.1, if_true, Function.comp]

end Layer

/-! ### Reading the layers -/

namespace SettingsSources

variable {α : Type} {sources : SettingsSources} {file : Layer} {name : String}
  {convert : RawValue → Option α} {usual value : α}

/-- Which file is consulted is told by the first of the ways to name one that has been used. -/
theorem consults_iff {consulted : Consulted} :
    sources.Consults consulted ↔ sources.consulted = consulted := by
  rw [SettingsSources.consulted]
  constructor
  · intro consults
    cases consults with
    | asked given => rw [given]; rfl
    | named unasked given => rw [unasked, given]; rfl
    | usual unasked unnamed => rw [unasked, unnamed]; rfl
  · rintro rfl
    cases asked : sources.path with
    | some path => exact .asked asked
    | none =>
      cases named : sources.environment.lookup pathVariable with
      | some path => exact .named asked named
      | none => exact .usual asked named

/-- What a file gives is what its layer is. A file that need not be there and is not gives
nothing. -/
theorem Opens.reads (opens : sources.Opens file) : sources.fileLayer = .ok file := by
  cases opens with
  | @found consulted _ _ _ consults present follows =>
    have found := Folder.settingsFile?_eq_some_iff.2 present
    rw [fileLayer, consults_iff.1 consults]
    cases consulted <;> simp_all [Consulted.path]
  | missing consults absent =>
    rw [fileLayer, consults_iff.1 consults]
    simp only [Folder.settingsFile?_eq_none_iff.2 absent]

/-- Otherwise there is no layer of the file: it has to be there and is not, or its text breaks the
rules of its format. -/
theorem Unreadable.fails (unreadable : sources.Unreadable) :
    sources.fileLayer = .error .unreadable := by
  cases unreadable with
  | missing consults absent =>
    rw [fileLayer, consults_iff.1 consults]
    simp only [Folder.settingsFile?_eq_none_iff.2 absent]
  | @malformed consulted _ _ consults present breaks =>
    have found := Folder.settingsFile?_eq_some_iff.2 present
    rw [fileLayer, consults_iff.1 consults]
    cases consulted <;> simp_all [Consulted.path]

/-- Either the file gives its values, or it cannot be used. It is found or not, and what is found
follows its format or does not. -/
theorem opens_or_unreadable (sources : SettingsSources) :
    (∃ file, sources.Opens file) ∨ sources.Unreadable := by
  have consults : sources.Consults sources.consulted := consults_iff.2 rfl
  cases search : sources.folder.settingsFile? sources.consulted.path with
  | some found =>
    have present := Folder.settingsFile?_eq_some_iff.1 search
    cases follows : found.1.layer? found.2 with
    | some layer => exact .inl ⟨layer, .found consults present follows⟩
    | none => exact .inr (.malformed consults present follows)
  | none =>
    have absent := Folder.settingsFile?_eq_none_iff.1 search
    cases place : sources.consulted with
    | required path =>
      rw [place] at consults absent
      exact .inr (.missing consults absent)
    | usual =>
      rw [place] at consults absent
      exact .inl ⟨[], .missing consults absent⟩

/-- The value that is taken is the first one in the order of the layers. A variable hides the file,
and of several variables with one name the last one hides the others. -/
theorem takes_iff (known : name ∈ names) {raw : RawValue} :
    sources.Takes file name raw ↔
      ((Layer.ofEnvironment sources.environment).get? name).or (file.get? name) = some raw := by
  rw [Layer.get?_ofEnvironment known]
  constructor
  · intro takes
    cases takes with
    | environment present => rw [present]; rfl
    | file absent present => rw [absent]; exact present
  · intro first
    cases present : sources.settingText? name with
    | some text =>
      rw [present] at first
      obtain rfl := Option.some.inj first
      exact .environment present
    | none =>
      rw [present] at first
      exact .file present first

/-- The layers together come to the value that a setting gives: what is taken, converted, or the
usual one if nothing is taken. -/
theorem Gives.layered (known : name ∈ names)
    (gives : sources.Gives file name convert usual value) :
    layered convert name usual file (Layer.ofEnvironment sources.environment) = .ok value := by
  rw [Settings.layered]
  cases gives with
  | taken takes converts => simp only [(takes_iff known).1 takes, converts]
  | usual untaken =>
    have none := Option.eq_none_iff_forall_ne_some.2 fun raw taken =>
      untaken raw ((takes_iff known).2 taken)
    simp only [none]

/-- They come to nothing if what is taken cannot be converted. -/
theorem Rejects.layered (known : name ∈ names) (usual : α)
    (rejects : sources.Rejects file name convert) :
    layered convert name usual file (Layer.ofEnvironment sources.environment) =
      .error .unconvertible := by
  obtain ⟨raw, takes, converts⟩ := rejects
  rw [Settings.layered]
  simp only [(takes_iff known).1 takes, converts]

/-- Either a setting has a value before the overrides, or what is taken for it is of the wrong
kind. -/
theorem layered_cases (sources : SettingsSources) (file : Layer) (name : String)
    (known : name ∈ names) (convert : RawValue → Option α) (usual : α) :
    (∃ value, sources.Gives file name convert usual value ∧
      layered convert name usual file (Layer.ofEnvironment sources.environment) = .ok value) ∨
    (sources.Rejects file name convert ∧
      layered convert name usual file (Layer.ofEnvironment sources.environment) =
        .error .unconvertible) := by
  by_cases taken : ∃ raw, sources.Takes file name raw
  · obtain ⟨raw, takes⟩ := taken
    cases converts : convert raw with
    | some value =>
      have gives : sources.Gives file name convert usual value := .taken takes converts
      exact .inl ⟨value, gives, gives.layered known⟩
    | none =>
      have rejects : sources.Rejects file name convert := ⟨raw, takes, converts⟩
      exact .inr ⟨rejects, rejects.layered known usual⟩
  · have gives : sources.Gives file name convert usual usual :=
      .usual fun raw takes => taken ⟨raw, takes⟩
    exact .inl ⟨usual, gives, gives.layered known⟩

/-- A setting does not give a value and reject one at the same time, because one value is taken and
it is converted in one way. -/
theorem Gives.not_rejects (known : name ∈ names)
    (gives : sources.Gives file name convert usual value) :
    ¬ sources.Rejects file name convert := by
  intro rejects
  have same := (gives.layered known).symm.trans (rejects.layered known usual)
  cases same

/-- A value of the file that a variable hides has no part in a setting. -/
theorem layered_hidden {other : Layer} (known : name ∈ names)
    (agree : sources.settingText? name = none → other.get? name = file.get? name) :
    layered convert name usual other (Layer.ofEnvironment sources.environment) =
      layered convert name usual file (Layer.ofEnvironment sources.environment) := by
  rw [Settings.layered, Settings.layered, Layer.get?_ofEnvironment known]
  cases hides : sources.settingText? name with
  | some text => rfl
  | none => rw [agree hides]

end SettingsSources

/-! ### The settings that come out -/

namespace SettingsSources

variable {sources : SettingsSources} {file : Layer} {settings layered : Settings}
  {outcome : Except SettingsError Settings}

/-- If every setting gives a value, these values are what the layers come to. -/
theorem Layered.resolves (gives : sources.Layered file layered) :
    ofLayers file (Layer.ofEnvironment sources.environment) = .ok layered := by
  rw [ofLayers, gives.valueCapacity.layered (by simp [names]),
    gives.frameCapacity.layered (by simp [names]), gives.counting.layered (by simp [names]),
    gives.logFilter.layered (by simp [names])]
  rfl

/-- Then none of the settings clashes. -/
theorem Layered.not_clashes (gives : sources.Layered file layered) : ¬ sources.Clashes file := by
  intro clashes
  cases clashes with
  | valueCapacity rejects => exact gives.valueCapacity.not_rejects (by simp [names]) rejects
  | frameCapacity rejects => exact gives.frameCapacity.not_rejects (by simp [names]) rejects
  | counting rejects => exact gives.counting.not_rejects (by simp [names]) rejects
  | logFilter rejects => exact gives.logFilter.not_rejects (by simp [names]) rejects

/-- Either every setting has a value before the overrides, or the first one that has none decides.
It fails as any other of them would. -/
theorem ofLayers_cases (sources : SettingsSources) (file : Layer) :
    (∃ layered, sources.Layered file layered) ∨ (sources.Clashes file ∧
      ofLayers file (Layer.ofEnvironment sources.environment) = .error .unconvertible) := by
  obtain ⟨valueCapacity, values, first⟩ | ⟨rejects, fails⟩ :=
    sources.layered_cases file valueCapacityName (by simp [names]) toNatural? usual.valueCapacity
  on_goal 2 =>
    refine .inr ⟨.valueCapacity rejects, ?_⟩
    rw [ofLayers, fails]
    rfl
  obtain ⟨frameCapacity, frames, second⟩ | ⟨rejects, fails⟩ :=
    sources.layered_cases file frameCapacityName (by simp [names]) toNatural? usual.frameCapacity
  on_goal 2 =>
    refine .inr ⟨.frameCapacity rejects, ?_⟩
    rw [ofLayers, first, fails]
    rfl
  obtain ⟨counting, counts, third⟩ | ⟨rejects, fails⟩ :=
    sources.layered_cases file countingName (by simp [names]) toBoolean? usual.counting
  on_goal 2 =>
    refine .inr ⟨.counting rejects, ?_⟩
    rw [ofLayers, first, second, fails]
    rfl
  obtain ⟨logFilter, filters, fourth⟩ | ⟨rejects, fails⟩ :=
    sources.layered_cases file logFilterName (by simp [names]) toText? usual.logFilter
  on_goal 2 =>
    refine .inr ⟨.logFilter rejects, ?_⟩
    rw [ofLayers, first, second, third, fails]
    rfl
  exact .inl ⟨⟨valueCapacity, frameCapacity, counting, logFilter⟩, values, frames, counts, filters⟩

/-- If one of them clashes, the layers come to nothing, whatever the others give. -/
theorem Clashes.fails (clashes : sources.Clashes file) :
    ofLayers file (Layer.ofEnvironment sources.environment) = .error .unconvertible := by
  rcases sources.ofLayers_cases file with ⟨layered, gives⟩ | ⟨_, fails⟩
  · exact absurd clashes gives.not_clashes
  · exact fails

/-- An override replaces the settings that it names and leaves the others. -/
theorem overridden_iff {overrides : Overrides} :
    layered.Overridden overrides settings ↔ settings = layered.override overrides := by
  constructor
  · intro overridden
    cases settings
    obtain ⟨rfl, rfl, rfl, rfl⟩ := overridden
    rfl
  · rintro rfl
    exact ⟨rfl, rfl, rfl, rfl⟩

/-- Once the file has been opened, the settings are put together from the layers, overridden and
checked, in this order. -/
theorem resolve_of_opens (opens : sources.Opens file) : resolve sources = (do
    let settings ← ofLayers file (Layer.ofEnvironment sources.environment)
    (settings.override sources.overrides).checkCapacities) := by
  rw [resolve, opens.reads]
  rfl

/-- A file that cannot be used is reported before anything else. -/
theorem resolve_of_unreadable (unreadable : sources.Unreadable) :
    resolve sources = .error .unreadable := by
  rw [resolve, unreadable.fails]
  rfl

/-- A value that cannot be converted is reported before overrides are looked at, which is why an
override does not hide it. -/
theorem resolve_of_clashes (opens : sources.Opens file) (clashes : sources.Clashes file) :
    resolve sources = .error .unconvertible := by
  rw [resolve_of_opens opens, clashes.fails]
  rfl

/-- Where nothing clashes only the capacities are left to be checked, and they are checked after the
overrides. -/
theorem resolve_of_amounts (amounts : sources.Amounts settings) :
    resolve sources = settings.checkCapacities := by
  obtain ⟨opens, gives, overridden⟩ := amounts
  rw [resolve_of_opens opens, gives.resolves, overridden_iff.1 overridden]
  rfl

/-- Each of the five outcomes is what the settings are resolved to: four errors, in the order in
which they are reported, and the settings. -/
theorem Yields.resolves (yields : sources.Yields outcome) : resolve sources = outcome := by
  cases yields with
  | unreadable unreadable => exact resolve_of_unreadable unreadable
  | unconvertible opens clashes => exact resolve_of_clashes opens clashes
  | noValueCapacity amounts none => rw [resolve_of_amounts amounts, checkCapacities, if_pos none]
  | noFrameCapacity amounts some none =>
    rw [resolve_of_amounts amounts, checkCapacities, if_neg (Nat.ne_of_gt some), if_pos none]
  | settings amounts values frames =>
    rw [resolve_of_amounts amounts, checkCapacities, if_neg (Nat.ne_of_gt values),
      if_neg (Nat.ne_of_gt frames)]

/-- All sources come to something: the file is read or it is not, a setting clashes or all give
values, and the capacities are some or none. -/
theorem yields_resolve (sources : SettingsSources) : sources.Yields (resolve sources) := by
  obtain ⟨file, opens⟩ | unreadable := sources.opens_or_unreadable
  · obtain ⟨layered, gives⟩ | ⟨clashes, _⟩ := sources.ofLayers_cases file
    · have amounts : sources.Amounts (layered.override sources.overrides) :=
        .of opens gives (overridden_iff.2 rfl)
      rw [resolve_of_amounts amounts, checkCapacities]
      split
      next none => exact .noValueCapacity amounts none
      next some =>
        split
        next none => exact .noFrameCapacity amounts (Nat.pos_of_ne_zero some) none
        next others => exact .settings amounts (Nat.pos_of_ne_zero some) (Nat.pos_of_ne_zero others)
    · rw [resolve_of_clashes opens clashes]
      exact .unconvertible opens clashes
  · rw [resolve_of_unreadable unreadable]
    exact .unreadable unreadable

/-- What the settings of these sources come to. -/
structure ResolvedApart (sources : SettingsSources) : Prop where
  outcome : ∀ outcome, resolve sources = outcome ↔ sources.Yields outcome
  /-- A processor can do with all settings that come out. -/
  capacities : ∀ settings, resolve sources = .ok settings →
    0 < settings.valueCapacity ∧ 0 < settings.frameCapacity
  /-- Another file that gives the same values where no variable hides them makes no difference. -/
  hidden : ∀ others : SettingsSources, others.environment = sources.environment →
    others.overrides = sources.overrides → ∀ file other, sources.Opens file → others.Opens other →
      (∀ name ∈ names, sources.settingText? name = none → other.get? name = file.get? name) →
        resolve others = resolve sources

/-- The settings come out field by field, and of the values only those that are taken can make them
fail. There is one outcome for any sources; it is the one that the relations above say, in which no
field asks for another one and no order of the layers is mentioned. -/
theorem settings_resolved_apart (sources : SettingsSources) : sources.ResolvedApart := by
  refine ⟨fun outcome => ?_, fun settings resolved => ?_, ?_⟩
  · constructor
    · rintro rfl
      exact sources.yields_resolve
    · exact Yields.resolves
  · have yields := sources.yields_resolve
    rw [resolved] at yields
    cases yields with
    | settings amounts values frames => exact ⟨values, frames⟩
  · intro others environment overrides file other opens otherOpens agree
    rw [resolve_of_opens opens, resolve_of_opens otherOpens, environment, overrides, ofLayers,
      ofLayers]
    rw [layered_hidden (by simp [names]) (agree valueCapacityName (by simp [names])),
      layered_hidden (by simp [names]) (agree frameCapacityName (by simp [names])),
      layered_hidden (by simp [names]) (agree countingName (by simp [names])),
      layered_hidden (by simp [names]) (agree logFilterName (by simp [names]))]

/-- The usual file is found without being asked for, and what it leaves out is as it usually is. -/
example : resolve ⟨Folder.ofReadings [("lune.toml", .ok "log_filter = 'x'")], [], none, .none⟩ =
    .ok { Settings.usual with logFilter := "x" } := by
  cbv

end SettingsSources

end CoroutineVM
