import CoroutineVM.Value.Basic

/-!
Lists of arguments.

Only the last expression of a list gives several values: a tuple there is spread in place, its items
collapsed, and a tuple anywhere else collapses to its first item. An empty tuple is therefore nil in
the middle and nothing at the end.
-/

namespace CoroutineVM.Value

/-- The values that a list of arguments stands for. -/
def spread : List Value → List Value
  | [] => []
  | [.tuple items] => items.map collapse
  | [value] => [value]
  | value :: next :: rest => value.collapse :: spread (next :: rest)

end CoroutineVM.Value
