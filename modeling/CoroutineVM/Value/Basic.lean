import CoroutineVM.Number.Text

/-!
Values of scripts.

Tables, functions, closures, coroutines and userdata are references: two of them are the same value
when they name the same object. A tuple is the transient result of something that gives several
values; where a single value is wanted it collapses to its first one. How a list of arguments
treats tuples is the subject of `CoroutineVM.Value.Arguments`.
-/

namespace CoroutineVM

/-! ### Identities -/

/-- Names of objects that live in a store. -/
abbrev TableId := Nat

abbrev CellId := Nat

abbrev ScopeId := Nat

abbrev CoroutineId := Nat

abbrev CallbackId := Nat

abbrev UserdataId := Nat

/-- The text of an object's identity: its number, written the way addresses are. -/
def identityText (id : Nat) : String := String.ofList ('0' :: 'x' :: Nat.toDigits 16 id)

/-- A digit tells its value: the sixteen digits differ from one another. -/
theorem eq_of_digitChar {first second : Nat} (small : first < 16) (other : second < 16)
    (same : first.digitChar = second.digitChar) : first = second := by
  have apart : ∀ a : Fin 16, ∀ b : Fin 16, a.val.digitChar = b.val.digitChar → a = b := by
    decide
  exact Fin.mk.inj (apart ⟨first, small⟩ ⟨second, other⟩ same)

/-- The last hexadecimal digit stands behind those of the rest of the number, or alone. -/
theorem hexDigits_split (number : Nat) :
    ∃ higher, Nat.toDigits 16 number = higher ++ [(number % 16).digitChar] ∧
      if number < 16 then higher = [] else higher = Nat.toDigits 16 (number / 16) := by
  by_cases small : number < 16
  · refine ⟨[], ?_, by rw [if_pos small]⟩
    rw [Nat.toDigits_of_lt_base small, Nat.mod_eq_of_lt small, List.nil_append]
  · refine ⟨_, ?_, by rw [if_neg small]⟩
    exact Nat.toDigits_of_base_le (by decide) (Nat.not_lt.mp small)

/-- Hexadecimal digits tell the number. The last digits agree, and what stands before them is
nothing in both numbers or tells the rest of both. -/
theorem eq_of_hexDigits {first second : Nat}
    (same : Nat.toDigits 16 first = Nat.toDigits 16 second) : first = second := by
  induction first using Nat.strongRecOn generalizing second with
  | ind first inductionHypothesis =>
    obtain ⟨left, digits, leftRest⟩ := hexDigits_split first
    obtain ⟨right, otherDigits, rightRest⟩ := hexDigits_split second
    rw [digits, otherDigits] at same
    obtain ⟨rfl, lowest⟩ := List.append_inj' same rfl
    have remainder : first % 16 = second % 16 :=
      eq_of_digitChar (Nat.mod_lt _ (by decide)) (Nat.mod_lt _ (by decide))
        (List.cons.inj lowest).1
    split at leftRest <;> split at rightRest
    · omega
    · exact absurd (rightRest.symm.trans leftRest) Nat.toDigits_ne_nil
    · exact absurd (leftRest.symm.trans rightRest) Nat.toDigits_ne_nil
    · have quotient : first / 16 = second / 16 :=
        inductionHypothesis _ (by omega) (leftRest.symm.trans rightRest)
      omega

/-- Different objects have different texts. -/
@[simp]
theorem identityText_inj {first second : Nat} :
    identityText first = identityText second ↔ first = second := by
  constructor
  · intro same
    have digits := String.ofList_injective same
    exact eq_of_hexDigits (List.cons.inj (List.cons.inj digits).2).2
  · rintro rfl
    rfl

/-! ### Values -/

/-- The captured variables of a function. Each closure that is made gets a scope of its own; the
cells in it may be shared with other scopes. -/
structure Scope where
  id : ScopeId
  cells : List CellId
  deriving DecidableEq, Repr

/-- A function of the chunk with the scope that it runs in. -/
structure Closure where
  function : Nat
  scope : Scope
  deriving DecidableEq, Repr

/-- A function that the host implements. -/
structure HostFunction where
  name : String
  callback : CallbackId
  deriving DecidableEq, Repr

/-- What a script computes with. Tables, coroutines and what the host gives are held by name, so
that two values can be the same object; a tuple stands for several values on their way. -/
inductive Value where
  | nil
  | boolean (value : Bool)
  | number (value : Float)
  | string (value : String)
  | table (id : TableId)
  | host (made : HostFunction)
  | closure (made : Closure)
  | coroutine (id : CoroutineId)
  | tuple (items : List Value)
  | userdata (id : UserdataId)
  deriving Inhabited

namespace Value

/-- The name of the kind of a value, as scripts see it. -/
def typeName : Value → String
  | .nil => "nil"
  | .boolean _ => "boolean"
  | .number _ => "number"
  | .string _ => "string"
  | .table _ => "table"
  | .host _ | .closure _ => "function"
  | .coroutine _ => "thread"
  | .tuple _ => "tuple"
  | .userdata _ => "userdata"

/-- The single value that stands for this one: a tuple gives its first item's, or nil. -/
def collapse : Value → Value
  | .tuple [] => .nil
  | .tuple (first :: _) => first.collapse
  | value => value

/-- A value that stands for a single one stands for itself. -/
@[simp]
theorem collapse_collapse (value : Value) : value.collapse.collapse = value.collapse := by
  fun_induction collapse value with
  | case1 => rfl
  | case2 first rest inductionHypothesis => exact inductionHypothesis
  | case3 value notEmpty notTuple =>
    cases value with
    | tuple items =>
      cases items with
      | nil => exact absurd rfl notEmpty
      | cons first rest => exact absurd rfl (notTuple first rest)
    | _ => rfl

/-- Only nil and false, or a tuple that collapses to one of them, are not truthy. -/
def isTruthy (value : Value) : Bool :=
  match value.collapse with
  | .nil | .boolean false => false
  | _ => true

/-- The list of values that this one stands for. -/
def expand : Value → List Value
  | .tuple items => items
  | value => [value]

/-- The one value that stands for a list: nil for none, a tuple for several. -/
def pack : List Value → Value
  | [] => .nil
  | [value] => value
  | values => .tuple values

def toNumber? : Value → Option Float
  | .number x => some x
  | _ => none

def toString? : Value → Option String
  | .string s => some s
  | _ => none

/-- Whether two values are the same to a script. Numbers compare as numbers, so that NaN differs
from itself; tuples compare item by item. -/
def same : Value → Value → Bool
  | .nil, .nil => true
  | .boolean a, .boolean b => a == b
  | .number x, .number y => x == y
  | .string s, .string t => s == t
  | .table a, .table b => a == b
  | .host f, .host g => f.callback == g.callback
  | .closure f, .closure g => f.function == g.function && f.scope.id == g.scope.id
  | .coroutine a, .coroutine b => a == b
  | .tuple xs, .tuple ys => sameItems xs ys
  | .userdata a, .userdata b => a == b
  | _, _ => false
where
  /-- Two lists are the same when they are of one length and the same at each place. -/
  sameItems : List Value → List Value → Bool
    | [], [] => true
    | x :: xs, y :: ys => same x y && sameItems xs ys
    | _, _ => false

/-- The text of a value. A table, a coroutine or userdata is shown by its identity, so that a script
that gets hold of such a text can tell two objects of one kind apart by it. -/
def display : Value → String
  | .nil => "nil"
  | .boolean true => "true"
  | .boolean false => "false"
  | .number x => String.ofList (Number.display x)
  | .string s => s
  | .table id => "table: " ++ identityText id
  | .host made => "function: builtin '" ++ made.name ++ "'"
  | .closure made => "function: #" ++ made.function.repr
  | .coroutine id => "thread: " ++ identityText id
  | .tuple items => displayItems items
  | .userdata id => "userdata: " ++ identityText id
where
  /-- The texts of the items, separated by tabs. -/
  displayItems : List Value → String
    | [] => ""
    | [item] => display item
    | item :: rest => display item ++ "\t" ++ displayItems rest

/-- The text of a table, a coroutine or userdata tells which object it is: what stands before the
identity is the same for all objects of the kind, and identities differ. -/
theorem display_inj (kind : TableId → Value)
    (reference : kind ∈ [Value.table, Value.coroutine, Value.userdata]) (first second : Nat) :
    (kind first).display = (kind second).display ↔ first = second := by
  simp only [List.mem_cons, List.not_mem_nil, or_false] at reference
  have texts : ∀ word : String, word ++ identityText first = word ++ identityText second ↔
      first = second := by
    intro word
    rw [String.append_right_inj, identityText_inj]
  obtain rfl | rfl | rfl := reference
  · exact texts "table: "
  · exact texts "thread: "
  · exact texts "userdata: "

end Value

end CoroutineVM
