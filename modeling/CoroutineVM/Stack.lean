/-!
Stacks of bounded height.

The items lie in an array, the bottom first, and `toList` is the view that the operations are
understood through. A stack takes no item above its capacity; `push?` checks that, and `append` is
for those who have checked it.
-/

namespace CoroutineVM

/-- A stack that takes no item beyond its capacity. The last item is the top. -/
structure BoundedStack (α : Type) where
  items : Array α
  capacity : Nat

namespace BoundedStack

variable {α : Type}

def empty (capacity : Nat) : BoundedStack α := ⟨#[], capacity⟩

/-- The items, the bottom first. -/
def toList (stack : BoundedStack α) : List α := stack.items.toList

def height (stack : BoundedStack α) : Nat := stack.items.size

def isEmpty (stack : BoundedStack α) : Bool := stack.height == 0

/-- Whether there is no room for another item. -/
def isFull (stack : BoundedStack α) : Bool := decide (stack.capacity ≤ stack.height)

/-- Puts an item on top. -/
def append (stack : BoundedStack α) (item : α) : BoundedStack α :=
  { stack with items := stack.items.push item }

/-- Puts an item on top if there is room. -/
def push? (stack : BoundedStack α) (item : α) : Option (BoundedStack α) :=
  if stack.isFull then none else some (stack.append item)

/-- The item at this height above the bottom. -/
def get? (stack : BoundedStack α) (index : Nat) : Option α := stack.items[index]?

/-- Replaces the item at this height, if there is one. -/
def set (stack : BoundedStack α) (index : Nat) (item : α) : BoundedStack α :=
  { stack with items := stack.items.setIfInBounds index item }

/-- The item on top, if there is one. -/
def top? (stack : BoundedStack α) : Option α := stack.items.back?

/-- Drops everything above this height. -/
def truncate (stack : BoundedStack α) (height : Nat) : BoundedStack α :=
  { stack with items := stack.items.shrink height }

/-- The top item and the stack without it. -/
def pop? (stack : BoundedStack α) : Option (α × BoundedStack α) :=
  stack.top?.map fun item => (item, stack.truncate (stack.height - 1))

/-- The top `count` items, the bottom one first. -/
def topItems (stack : BoundedStack α) (count : Nat) : List α :=
  (stack.items.extract (stack.height - count) stack.height).toList

/-- The top `count` items and the stack without them, if it has so many. -/
def popMany? (stack : BoundedStack α) (count : Nat) : Option (List α × BoundedStack α) :=
  if count ≤ stack.height then
    some (stack.topItems count, stack.truncate (stack.height - count))
  else none

def clear (stack : BoundedStack α) : BoundedStack α := { stack with items := #[] }

/-! ### The stack as a list -/

/-- A new stack is the empty list. -/
@[simp]
theorem toList_empty (capacity : Nat) : (empty capacity : BoundedStack α).toList = [] := rfl

/-- The height is the length of the list. -/
@[simp]
theorem length_toList (stack : BoundedStack α) : stack.toList.length = stack.height := rfl

/-- The top of a stack is the end of the list. `append` does not look at the capacity, so the
equation has no condition. -/
@[simp]
theorem toList_append (stack : BoundedStack α) (item : α) :
    (stack.append item).toList = stack.toList ++ [item] := by
  simp [append, toList]

/-- To drop what is above a height is to take that many items from the bottom: a height above the
top drops nothing. -/
@[simp]
theorem toList_truncate (stack : BoundedStack α) (height : Nat) :
    (stack.truncate height).toList = stack.toList.take height := by
  simp [truncate, toList]

/-- Writing above the top changes nothing on either side, so that the place need not be one of the
stack. -/
@[simp]
theorem toList_set (stack : BoundedStack α) (index : Nat) (item : α) :
    (stack.set index item).toList = stack.toList.set index item := by
  simp [set, toList]

/-- Clearing a stack leaves the empty list. -/
@[simp]
theorem toList_clear (stack : BoundedStack α) : stack.clear.toList = [] := rfl

/-- With this and the next two lemmas whatever is read off a stack is read off the list: the array
is not looked at again. -/
theorem get?_eq (stack : BoundedStack α) (index : Nat) :
    stack.get? index = stack.toList[index]? := by
  simp [get?, toList]

/-- The top is the last item of the list, and an empty stack has none. -/
theorem top?_eq (stack : BoundedStack α) : stack.top? = stack.toList.getLast? := by
  simp [top?, toList]

/-- The items on top are what is left of the list without the others. When fewer items are asked for
than there are, the subtraction is exact; otherwise it gives zero, and all items are meant. -/
theorem topItems_eq (stack : BoundedStack α) (count : Nat) :
    stack.topItems count = stack.toList.drop (stack.height - count) := by
  simp only [topItems, toList, height, Array.toList_extract, List.extract_eq_take_drop]
  exact List.take_of_length_le (by simp)

/-- Full is said with an inequality: nothing here says that a stack keeps within its capacity, which
only `push?` sees to. -/
theorem isFull_iff (stack : BoundedStack α) :
    stack.isFull = true ↔ stack.capacity ≤ stack.height := by
  simp [isFull]

/-- Like `toList_append` without a condition, for those who have seen that there is room. -/
@[simp]
theorem height_append (stack : BoundedStack α) (item : α) :
    (stack.append item).height = stack.height + 1 := by
  simp [append, height]

/-- A stack never grows by dropping items, whatever height is given. -/
@[simp]
theorem height_truncate (stack : BoundedStack α) (height : Nat) :
    (stack.truncate height).height = min height stack.height := by
  simp [← length_toList]

/-- Dropping what is above the top leaves the stack itself and not only the same items: the capacity
is untouched as well. -/
@[simp]
theorem truncate_height (stack : BoundedStack α) : stack.truncate stack.height = stack := by
  simp [truncate, height]

/-- Of two heights the lower one counts, in whichever order they come. Several drops in the source
are brought together with it before they are compared. -/
theorem truncate_truncate (stack : BoundedStack α) (first second : Nat) :
    (stack.truncate first).truncate second = stack.truncate (min second first) := by
  have items :
      (stack.items.shrink first).shrink second = stack.items.shrink (min second first) := by
    apply Array.toList_inj.mp
    simp
  simp only [truncate, items]

/-- Writing in place never makes a stack higher, so that a bound on the height survives it. -/
@[simp]
theorem height_set (stack : BoundedStack α) (index : Nat) (item : α) :
    (stack.set index item).height = stack.height := by
  simp [← length_toList]

/-- No operation changes the capacity: it is fixed when the stack is made. The next lemmas say so of
the other operations. -/
@[simp]
theorem capacity_append (stack : BoundedStack α) (item : α) :
    (stack.append item).capacity = stack.capacity := rfl

/-- The capacity is a setting of the stack, so that no operation changes it. -/
@[simp]
theorem capacity_truncate (stack : BoundedStack α) (height : Nat) :
    (stack.truncate height).capacity = stack.capacity := rfl

/-- Writing to a slot does not. -/
@[simp]
theorem capacity_set (stack : BoundedStack α) (index : Nat) (item : α) :
    (stack.set index item).capacity = stack.capacity := rfl

/-- Nor does clearing the stack. -/
@[simp]
theorem capacity_clear (stack : BoundedStack α) : stack.clear.capacity = stack.capacity := rfl

end BoundedStack

end CoroutineVM
