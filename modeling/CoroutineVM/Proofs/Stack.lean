import CoroutineVM.Stack

/-!
# A stack is a list of bounded length

`Use` lists all that can be done with a stack, and `BoundedStack.use` does it. `Use.onList` says
what a plain list does instead, whose end is the top and which takes no item beyond its capacity.
One use comes to the same on both, so any number of them do, one after the other. What else there is
to say about a stack is said about the list.
-/

namespace CoroutineVM.BoundedStack

variable {α : Type}

/-- What can be done with a stack. -/
inductive Use (α : Type) where
  | push (item : α)
  | pop
  | top
  | get (index : Nat)
  /-- To write in place. -/
  | set (index : Nat) (item : α)
  | popMany (count : Nat)
  | truncate (height : Nat)
  | clear
  /-- To go through all items, the bottom first. -/
  | iterate

/-- What comes of it, besides the stack that is left. -/
inductive Answer (α : Type) where
  | done
  /-- There is no room for the item. -/
  | full
  /-- The item that is asked for, or that was there before another one was written, if there is
  one. -/
  | item (found : Option α)
  | items (found : Option (List α))
  deriving DecidableEq

/-- What a stack answers, and the stack after it. A use that fails leaves the stack that there
was. -/
def use (stack : BoundedStack α) : Use α → Answer α × BoundedStack α
  | .push item =>
    match stack.push? item with
    | some grown => (.done, grown)
    | none => (.full, stack)
  | .pop =>
    match stack.pop? with
    | some (item, rest) => (.item (some item), rest)
    | none => (.item none, stack)
  | .top => (.item stack.top?, stack)
  | .get index => (.item (stack.get? index), stack)
  | .set index item => (.item (stack.get? index), stack.set index item)
  | .popMany count =>
    match stack.popMany? count with
    | some (items, rest) => (.items (some items), rest)
    | none => (.items none, stack)
  | .truncate height => (.done, stack.truncate height)
  | .clear => (.done, stack.clear)
  | .iterate => (.items (some stack.toList), stack)

/-- What a list answers that may have so many items, and the list after it. -/
def Use.onList (capacity : Nat) (items : List α) : Use α → Answer α × List α
  | .push item => if items.length = capacity then (.full, items) else (.done, items ++ [item])
  | .pop => (.item items.getLast?, items.dropLast)
  | .top => (.item items.getLast?, items)
  | .get index => (.item items[index]?, items)
  | .set index item => (.item items[index]?, items.set index item)
  | .popMany count =>
    if count ≤ items.length then
      (.items (some (items.drop (items.length - count))), items.take (items.length - count))
    else (.items none, items)
  | .truncate height => (.done, items.take height)
  | .clear => (.done, [])
  | .iterate => (.items (some items), items)

/-- Several uses one after the other: all answers, and what is left after the last one. -/
def inTurn {σ : Type} (act : σ → Use α → Answer α × σ) : List (Use α) → σ → List (Answer α) × σ
  | [], state => ([], state)
  | next :: rest, state =>
    let others := inTurn act rest (act state next).2
    ((act state next).1 :: others.1, others.2)

/-! ### One use -/

variable {limit : Nat} {items : List α} {stack : BoundedStack α}

/-- The stack has these items, which are no more than it may have. -/
structure Holds (limit : Nat) (items : List α) (stack : BoundedStack α) : Prop where
  contents : stack.toList = items
  capacity : stack.capacity = limit
  within : items.length ≤ limit

/-- The height of a stack is counted on the array and the length on the list; they agree because the
list is the array's. -/
theorem Holds.height (holds : Holds limit items stack) : stack.height = items.length := by
  rw [← holds.contents, length_toList]

/-- Nothing but the items and the capacity makes a stack. Two stacks that hold the same list are
therefore equal and not only alike, which `Lists.restores` asks for. -/
theorem Holds.unique {other : BoundedStack α} (holds : Holds limit items stack)
    (also : Holds limit items other) : other = stack := by
  obtain ⟨array, capacity⟩ := stack
  obtain ⟨otherArray, otherCapacity⟩ := other
  have same : otherArray = array := Array.toList_inj.mp (also.contents.trans holds.contents.symm)
  have alike : otherCapacity = capacity := also.capacity.trans holds.capacity.symm
  rw [same, alike]

/-- A new stack is where every history of uses begins. -/
theorem holds_empty (limit : Nat) : Holds limit ([] : List α) (empty limit) :=
  ⟨rfl, rfl, Nat.zero_le limit⟩

/-- A stack of some height has a top: what is popped after a look at the height is there. -/
theorem exists_top? (something : 0 < stack.height) : ∃ item, stack.top? = some item := by
  have there : stack.toList ≠ [] := by
    rw [← List.length_pos_iff, length_toList]
    exact something
  exact ⟨_, by rw [top?_eq, List.getLast?_eq_some_getLast there]⟩

/-- An item is refused for want of room and for no other reason. The stack may be above its capacity
here; for one that holds a list, `Holds.push_refused_iff` makes the inequality an equality. -/
theorem push?_eq_none_iff (item : α) : stack.push? item = none ↔ stack.capacity ≤ stack.height := by
  rw [push?, ← isFull_iff]
  split <;> simp_all

/-- A stack that holds a list refuses an item exactly when the list is as long as it may be: it is
never longer. -/
theorem Holds.push_refused_iff (holds : Holds limit items stack) (item : α) :
    stack.push? item = none ↔ items.length = limit := by
  rw [push?_eq_none_iff, holds.capacity, holds.height]
  have within := holds.within
  omega

/-- A stack that is not full takes the item, and holds the longer list. Room is asked for strictly,
because the new list has to keep within the limit as well. -/
theorem Holds.pushed (holds : Holds limit items stack) (room : items.length < limit) (item : α) :
    stack.push? item = some (stack.append item) ∧
      Holds limit (items ++ [item]) (stack.append item) := by
  have notFull : ¬ stack.isFull = true := by
    rw [isFull_iff, holds.capacity, holds.height]
    omega
  refine ⟨if_neg notFull, ?_, holds.capacity, ?_⟩
  · rw [toList_append, holds.contents]
  · rw [List.length_append, List.length_singleton]
    exact room

/-- Cutting a stack and cutting its list go together. A shorter list keeps within the limit that the
longer one kept, so there is no condition on the height. -/
theorem Holds.truncated (holds : Holds limit items stack) (height : Nat) :
    Holds limit (items.take height) (stack.truncate height) where
  contents := by rw [toList_truncate, holds.contents]
  capacity := holds.capacity
  within := Nat.le_trans (List.length_take_le' height items) holds.within

/-- The items on top are taken off, the bottom one first: the order in which they were pushed, not
the one in which single pops would give them. -/
theorem Holds.popped (holds : Holds limit items stack) {count : Nat}
    (enough : count ≤ items.length) :
    stack.popMany? count =
      some (items.drop (items.length - count), stack.truncate (items.length - count)) := by
  rw [popMany?, topItems_eq, holds.contents, holds.height, if_pos enough]

/-- If fewer items are there than asked for, nothing is taken: the stack is not emptied on the
way. -/
theorem Holds.tooFew (holds : Holds limit items stack) {count : Nat} (few : items.length < count) :
    stack.popMany? count = none := by
  rw [popMany?, holds.height, if_neg (Nat.not_le.mpr few)]

/-- A use comes to the same on a stack and on the list of its items. This is the only place where
the operations are opened one by one; a push and a removal of several items split on whether they
succeed, and all others always do. -/
theorem Holds.use (holds : Holds limit items stack) (use : Use α) :
    (stack.use use).1 = (use.onList limit items).1 ∧
      Holds limit (use.onList limit items).2 (stack.use use).2 := by
  cases use with
  | push item =>
    by_cases full : items.length = limit
    · have refused := (holds.push_refused_iff item).mpr full
      simp only [BoundedStack.use, refused, Use.onList, full, if_true]
      exact ⟨trivial, holds⟩
    · obtain ⟨taken, grown⟩ := holds.pushed (Nat.lt_of_le_of_ne holds.within full) item
      simp only [BoundedStack.use, taken, Use.onList, full, if_false]
      exact ⟨trivial, grown⟩
  | pop =>
    have top : stack.top? = items.getLast? := by rw [top?_eq, holds.contents]
    simp only [BoundedStack.use, pop?, top, holds.height, Use.onList, List.dropLast_eq_take]
    cases last : items.getLast? with
    | none =>
      rw [List.getLast?_eq_none_iff.mp last] at holds ⊢
      exact ⟨rfl, holds⟩
    | some item => exact ⟨rfl, holds.truncated (items.length - 1)⟩
  | top => exact ⟨congrArg Answer.item (by rw [top?_eq, holds.contents]), holds⟩
  | get index => exact ⟨congrArg Answer.item (by rw [get?_eq, holds.contents]), holds⟩
  | set index item =>
    refine ⟨congrArg Answer.item (by rw [get?_eq, holds.contents]), ?_, holds.capacity, ?_⟩
    · simp only [BoundedStack.use, toList_set, holds.contents, Use.onList]
    · simpa only [Use.onList, List.length_set] using holds.within
  | popMany count =>
    by_cases enough : count ≤ items.length
    · simp only [BoundedStack.use, holds.popped enough, Use.onList, enough, if_true]
      exact ⟨trivial, holds.truncated (items.length - count)⟩
    · simp only [BoundedStack.use, holds.tooFew (Nat.not_le.mp enough), Use.onList, enough,
        if_false]
      exact ⟨trivial, holds⟩
  | truncate height => exact ⟨rfl, holds.truncated height⟩
  | clear => exact ⟨rfl, rfl, holds.capacity, Nat.zero_le limit⟩
  | iterate => exact ⟨congrArg (fun found => Answer.items (some found)) holds.contents, holds⟩

/-! ### Any number of uses -/

/-- So do several uses one after the other, by induction on the uses: each one leaves a stack that
holds the list which the next one starts from. -/
theorem Holds.inTurn (holds : Holds limit items stack) (uses : List (Use α)) :
    (inTurn BoundedStack.use uses stack).1 = (BoundedStack.inTurn (Use.onList limit) uses items).1 ∧
      Holds limit (BoundedStack.inTurn (Use.onList limit) uses items).2
        (BoundedStack.inTurn BoundedStack.use uses stack).2 := by
  induction uses generalizing items stack with
  | nil => exact ⟨rfl, holds⟩
  | cons next rest inductionHypothesis =>
    obtain ⟨answer, reached⟩ := holds.use next
    obtain ⟨answers, last⟩ := inductionHypothesis reached
    exact ⟨congr (congrArg List.cons answer) answers, last⟩

/-- A history that goes on is the first part and then the rest from what it has left, on stacks as
on lists. -/
theorem inTurn_append {σ : Type} (act : σ → Use α → Answer α × σ) (first second : List (Use α))
    (state : σ) :
    inTurn act (first ++ second) state =
      ((inTurn act first state).1 ++ (inTurn act second (inTurn act first state).2).1,
        (inTurn act second (inTurn act first state).2).2) := by
  induction first generalizing state with
  | nil => rfl
  | cons next rest inductionHypothesis =>
    rw [List.cons_append, inTurn, inductionHypothesis]
    rfl

/-- Items for which there is room are put one above the other. By induction on the items: after each
of them there is room for the ones that are left. -/
theorem inTurn_pushes {below added : List α} (room : below.length + added.length ≤ limit) :
    inTurn (Use.onList limit) (added.map .push) below =
      (List.replicate added.length .done, below ++ added) := by
  induction added generalizing below with
  | nil => simp [inTurn]
  | cons item rest inductionHypothesis =>
    rw [List.length_cons] at room
    have notFull : below.length ≠ limit := by omega
    have next : (below ++ [item]).length + rest.length ≤ limit := by
      rw [List.length_append, List.length_singleton]
      omega
    rw [List.map_cons, inTurn, Use.onList, if_neg notFull]
    simp only [inductionHypothesis next, List.length_cons, List.replicate_succ, List.append_assoc,
      List.singleton_append]

/-- What has just been put on top is taken off again in one piece, and what was below is as
before. -/
theorem inTurn_pushes_popMany {below added : List α} (room : below.length + added.length ≤ limit) :
    inTurn (Use.onList limit) (added.map .push ++ [.popMany added.length]) below =
      (List.replicate added.length .done ++ [.items (some added)], below) := by
  have enough : added.length ≤ (below ++ added).length := by simp
  have rest : (below ++ added).length - added.length = below.length := by simp
  rw [inTurn_append, inTurn_pushes room]
  simp only [inTurn, Use.onList, enough, if_true, rest, List.drop_left, List.take_left]

/-! ### The law of stacks -/

/-- What can be told of a stack of this capacity that has been used so since it was empty. -/
structure Lists (capacity : Nat) (uses : List (Use α)) (stack : BoundedStack α) : Prop where
  /-- It has answered as a list does, and has the items of the list. -/
  answers : (inTurn BoundedStack.use uses (empty capacity)).1 =
    (inTurn (Use.onList capacity) uses []).1
  contents : stack.toList = (inTurn (Use.onList capacity) uses []).2
  within : stack.height ≤ capacity
  /-- An item is refused exactly if there is no room for it, and nothing changes then. -/
  full_iff : ∀ item, (stack.use (.push item)).1 = .full ↔ stack.height = capacity
  refused : ∀ item, (stack.use (.push item)).1 = .full → (stack.use (.push item)).2 = stack
  /-- As many items as there are can be taken from the top, the bottom one first, and no more. -/
  takes : ∀ count ≤ stack.height, ∃ rest, stack.use (.popMany count) =
      (.items (some (stack.toList.drop (stack.height - count))), rest) ∧
    rest.toList = stack.toList.take (stack.height - count)
  lacks : ∀ count, stack.height < count → stack.use (.popMany count) = (.items none, stack)
  /-- Items that are put on top and taken together come back in order, and nothing else changes. -/
  restores : ∀ added : List α, stack.height + added.length ≤ capacity →
    inTurn BoundedStack.use (added.map .push ++ [.popMany added.length]) stack =
      (List.replicate added.length .done ++ [.items (some added)], stack)

/-- After any history of uses the stack is the list of that history. Every part is read off `Holds`
at its end, so that nothing depends on which uses there were. -/
theorem lists_inTurn (capacity : Nat) (uses : List (Use α)) :
    Lists capacity uses (inTurn BoundedStack.use uses (empty capacity)).2 := by
  obtain ⟨answers, holds⟩ := (holds_empty capacity).inTurn uses
  have height := holds.height
  have contents := holds.contents
  refine ⟨answers, contents, height ▸ holds.within, fun item => ?_, fun item => ?_,
    fun count enough => ?_, fun count few => ?_, fun added room => ?_⟩
  · rw [height, ← holds.push_refused_iff item, BoundedStack.use]
    split <;> simp_all
  · rw [BoundedStack.use]
    split
    · rintro ⟨⟩
    · exact fun _ => rfl
  · rw [height] at enough
    rw [height, contents]
    refine ⟨_, by rw [BoundedStack.use, holds.popped enough], (holds.truncated _).contents⟩
  · rw [height] at few
    rw [BoundedStack.use, holds.tooFew few]
  · rw [height] at room
    obtain ⟨same, after⟩ := holds.inTurn (added.map .push ++ [.popMany added.length])
    rw [inTurn_pushes_popMany room] at same after
    exact Prod.ext same (holds.unique after)

end CoroutineVM.BoundedStack
