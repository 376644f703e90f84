/-!
Settings of a script.
-/

namespace CoroutineVM

/-- What a script is made with. -/
structure Settings where
  /-- The greatest number of values on one processor. -/
  valueCapacity : Nat
  /-- The greatest number of frames on one processor. -/
  frameCapacity : Nat
  /-- Whether calls and resumes are counted. -/
  counting : Bool
  /-- Which messages the command line program logs. -/
  logFilter : String
  deriving DecidableEq, Repr

namespace Settings

/-- Both stacks are this high unless something else is asked for. -/
def usualCapacity : Nat := 131072

/-- What is taken where nothing is said. -/
def usual : Settings := ⟨usualCapacity, usualCapacity, true, "info"⟩

end Settings

end CoroutineVM
