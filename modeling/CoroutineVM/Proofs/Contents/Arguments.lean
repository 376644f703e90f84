import CoroutineVM.Proofs.Contents.Values

/-!
# What a list of arguments gives

Of a list of arguments only the last one can give several values; each of the others gives one. The
law of the splice, `spread_append`, says this for any cut of the list, and everything else about the
values of a list follows from it and from what the last argument gives.

No value that is given is a tuple, so that a list which has been spread is its own spread. Arguments
are spread by whoever takes them and again where they are pushed; `arguments_given_once` says of
each place that takes a list that this comes to the same as spreading them there alone.
-/

namespace CoroutineVM

namespace Value

variable {arguments rest : List Value}

/-- The last argument gives all the values that it stands for. -/
theorem spread_singleton (value : Value) : spread [value] = value.expand.map collapse := by
  cases value with
  | tuple items => rfl
  | _ => rfl

/-- Arguments that are followed by others give a value each. -/
theorem spread_append (arguments : List Value) (followed : rest ≠ []) :
    spread (arguments ++ rest) = arguments.map collapse ++ spread rest := by
  induction arguments with
  | nil => rfl
  | cons first others inductionHypothesis =>
    obtain ⟨next, later, more⟩ : ∃ next later, others ++ rest = next :: later :=
      List.exists_cons_of_ne_nil (List.append_ne_nil_of_right_ne_nil others followed)
    rw [List.map_cons, List.cons_append, List.cons_append, ← inductionHypothesis, more, spread]

/-- Arguments before the last give a value each. -/
theorem spread_concat (before : List Value) (last : Value) :
    spread (before ++ [last]) = before.map collapse ++ spread [last] :=
  spread_append before (List.cons_ne_nil last [])

/-- What becomes of a list of arguments, whatever stands in it and however deep. -/
structure Splices (arguments : List Value) : Prop where
  /-- Followed by others, each argument gives the single value that stands for it. -/
  followed : ∀ rest, rest ≠ [] → spread (arguments ++ rest) = arguments.map collapse ++ spread rest
  /-- Followed by a tuple only, they are followed by each of its items. -/
  tuple : ∀ items,
    spread (arguments ++ [.tuple items]) = arguments.map collapse ++ items.map collapse
  counted : ∀ items,
    (spread (arguments ++ [.tuple items])).length = arguments.length + items.length
  /-- No tuple is left. -/
  single : ∀ value ∈ spread arguments, ∀ items, value ≠ .tuple items
  /-- The values stand for themselves. -/
  settled : spread (spread arguments) = spread arguments

/-- Whoever takes the arguments gets the same from them as from the values that they stand for. -/
structure TakenOnce (arguments : List Value) : Prop where
  pushed : Processor.pushArguments (spread arguments) = Processor.pushArguments arguments
  called : ∀ chunk callee, Processor.enterFromHost chunk callee (spread arguments) =
    Processor.enterFromHost chunk callee arguments
  resumed : ∀ chunk, Processor.enterFromResume chunk (spread arguments) =
    Processor.enterFromResume chunk arguments

/-- How the last argument is taken apart follows from the law of the splice for a list of one. -/
theorem splices (arguments : List Value) : Splices arguments where
  followed rest followed := spread_append arguments followed
  tuple items := spread_concat arguments (.tuple items)
  counted items := by
    rw [spread_concat, spread_singleton, List.length_append, List.length_map, List.length_map,
      expand]
  single value member items same := by
    have none := isTuple_of_mem_spread member
    rw [same] at none
    cases none
  settled := spread_spread arguments

/-- Everybody who takes a list of arguments spreads it, and spreading it once more changes
nothing. -/
theorem takenOnce (arguments : List Value) : TakenOnce arguments := by
  have pushed : Processor.pushArguments (spread arguments) = Processor.pushArguments arguments := by
    rw [Processor.pushArguments, Processor.pushArguments, spread_spread]
  have called : ∀ chunk callee, Processor.enterFromHost chunk callee (spread arguments) =
      Processor.enterFromHost chunk callee arguments := by
    intro chunk callee
    simp only [Processor.enterFromHost, pushed]
  refine ⟨pushed, called, fun chunk => funext fun processor => ?_⟩
  rw [Processor.enterFromResume, Processor.enterFromResume, spread_spread]
  cases processor.savedPointer with
  | some pointer => rfl
  | none =>
    cases processor.entry with
    | some closure => simp only [called]
    | none => rfl

/-- Only the last of some arguments is spliced, and splicing them twice is splicing them once. The
second part matters where a list passes through two hands each of which takes the arguments for
given as they were written. -/
theorem arguments_given_once (arguments : List Value) : Splices arguments ∧ TakenOnce arguments :=
  ⟨splices arguments, takenOnce arguments⟩

end Value

end CoroutineVM
