import CoroutineVM.Json.Token

/-!
From tokens to values.

The reader looks at each token once. Between two tokens it is in a `Stage`: what may come next, and
the containers that are open around that place, innermost first. The first token that no stage
allows decides the fault, also where a later one is broken as well.
-/

namespace CoroutineVM.Json

/-- An open container around the value that is being read, with what came before, latest first. -/
inductive Slot where
  | item (before : List Json)
  | member (before : List (Option String × Json)) (name : Option String)

/-- What may come next. -/
inductive Stage where
  /-- A value. -/
  | wantValue (around : List Slot)
  /-- The first item of an array, or its end. -/
  | firstItem (around : List Slot)
  /-- A comma or the end of the array. -/
  | afterItem (items : List Json) (around : List Slot)
  /-- The first name of an object, or its end. -/
  | firstName (around : List Slot)
  /-- A name. -/
  | wantName (members : List (Option String × Json)) (around : List Slot)
  /-- The colon after a name. -/
  | wantColon (members : List (Option String × Json)) (name : Option String) (around : List Slot)
  /-- A comma or the end of the object. -/
  | afterMember (members : List (Option String × Json)) (around : List Slot)
  /-- Nothing; the whole value has been read. -/
  | complete (value : Json)

/-- The stage after a value at the innermost open place. -/
def Stage.deliver (value : Json) : List Slot → Stage
  | [] => .complete value
  | .item before :: around => .afterItem (value :: before) around
  | .member before name :: around => .afterMember ((name, value) :: before) around

/-- An object from its members, latest first; unsound when a name is. -/
def objectOf (members : List (Option String × Json)) : Json :=
  match members.reverse.mapM fun member => member.1.map (·, member.2) with
  | some members => .object members
  | none => .unsound

/-- The stage after the first token of a value. -/
def Stage.beginValue (around : List Slot) : Token → Except Fault Stage
  | .null => .ok (deliver .null around)
  | .boolean value => .ok (deliver (.boolean value) around)
  | .number value => .ok (deliver (value.elim .unsound .number) around)
  | .text value => .ok (deliver (value.elim .unsound .string) around)
  | .openArray => .ok (.firstItem around)
  | .openObject => .ok (.firstName around)
  | .brokenText fault | .brokenWord fault => .error fault
  | .closeArray | .closeObject | .comma | .colon => .error .malformed

/-- The stage after a name. -/
def Stage.beginMember (members : List (Option String × Json)) (around : List Slot) :
    Token → Except Fault Stage
  | .text name => .ok (.wantColon members name around)
  | .brokenText fault => .error fault
  | _ => .error .malformed

/-- The stage after one more token. -/
def Stage.next : Stage → Token → Except Fault Stage
  | .wantValue around, token => beginValue around token
  | .firstItem around, token =>
    match token with
    | .closeArray => .ok (deliver (.array []) around)
    | token => beginValue (.item [] :: around) token
  | .afterItem items around, token =>
    match token with
    | .comma => .ok (.wantValue (.item items :: around))
    | .closeArray => .ok (deliver (.array items.reverse) around)
    | _ => .error .malformed
  | .firstName around, token =>
    match token with
    | .closeObject => .ok (deliver (.object []) around)
    | token => beginMember [] around token
  | .wantName members around, token => beginMember members around token
  | .wantColon members name around, token =>
    match token with
    | .colon => .ok (.wantValue (.member members name :: around))
    | _ => .error .malformed
  | .afterMember members around, token =>
    match token with
    | .comma => .ok (.wantName members around)
    | .closeObject => .ok (deliver (objectOf members) around)
    | _ => .error .malformed
  | .complete _, _ => .error .malformed

/-- The stage after the tokens. -/
def Stage.run (stage : Stage) : List Token → Except Fault Stage
  | [] => .ok stage
  | token :: rest => do run (← stage.next token) rest

/-- The value at the end of the text. -/
def Stage.finish : Stage → Except Fault Json
  | .complete value => .ok value
  | _ => .error .truncated

/-- Reads a text that is one value; unsound parts are kept. -/
def read (text : String) : Except Fault Json := do
  (← (Stage.wantValue []).run (tokens text.toList)).finish

/-- Reads a text in full: every part must be sound and no part too deeply nested. -/
def readSound (text : String) : Except Fault Json := do
  let value ← read text
  if value.fits greatestDepth then .ok value else .error .malformed

end CoroutineVM.Json
