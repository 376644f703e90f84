import CoroutineVM.Chunk.Basic
import CoroutineVM.Json.Writer

/-!
The canonical text of a chunk.

Every field is written, in one fixed order, so that equal chunks have equal texts. An instruction is
an object whose `t` names it; a constant or a capture is an object of its name `t` and its content
`v`.
-/

namespace CoroutineVM

/-- A number of the chunk format. -/
def Json.index (n : Nat) : Json := .number (.natural n)

/-- A named alternative with its content. -/
def Json.alternative (name : String) (content : Json) : Json :=
  .object [("t", .string name), ("v", content)]

/-- The record of a constant: the name of its kind and its content, if the kind has any. -/
def Constant.toJson : Constant → Json
  | .nil => .object [("t", .string "Nil")]
  | .boolean value => .alternative "Bool" (.boolean value)
  | .number value => .alternative "Num" (.number (.real value))
  | .string value => .alternative "Str" (.string value)

def Capture.toJson : Capture → Json
  | .copyLocal index => .alternative "Local" (.index index)
  | .shareUpvalue index => .alternative "Upvalue" (.index index)

/-- The name of an instruction in chunk text. -/
def Instruction.tag : Instruction → String
  | .nop => "Nop"
  | .literal _ => "Literal"
  | .pop => "Pop"
  | .arguments => "Args"
  | .loadLocal _ => "Local"
  | .storeLocal _ => "StoreLocal"
  | .loadUpvalue _ => "Upvalue"
  | .storeUpvalue _ => "StoreUpvalue"
  | .loadGlobal _ => "Global"
  | .storeGlobal _ => "StoreGlobal"
  | .makeClosure _ _ => "Closure"
  | .call _ => "Call"
  | .ret _ => "Ret"
  | .yield _ => "Yield"
  | .tuple _ => "Tuple"
  | .jump _ => "Jump"
  | .jumpIfFalse _ => "JumpIfFalse"
  | .add => "Add"
  | .subtract => "Sub"
  | .less => "Lt"
  | .equal => "Eq"
  | .not => "Not"
  | .concat => "Concat"
  | .raise => "Error"
  | .createCoroutine => "CoCreate"
  | .resumeCoroutine _ => "CoResume"
  | .coroutineStatus => "CoStatus"
  | .currentCoroutine => "CoRunning"

/-- The operands of an instruction with their names in chunk text. -/
def Instruction.operands : Instruction → List (String × Json)
  | .literal value => [("v", value.toJson)]
  | .loadLocal index | .storeLocal index | .loadUpvalue index | .storeUpvalue index =>
    [("index", .index index)]
  | .loadGlobal name | .storeGlobal name => [("name", .string name)]
  | .makeClosure function captures =>
    [("function", .index function), ("captures", .array (captures.map Capture.toJson))]
  | .call count | .resumeCoroutine count => [("argc", .index count)]
  | .ret count | .yield count | .tuple count => [("count", .index count)]
  | .jump target | .jumpIfFalse target => [("target", .index target)]
  | _ => []

/-- The record of an instruction: its name and its operands, each under its own name. -/
def Instruction.toJson (instruction : Instruction) : Json :=
  .object (("t", .string instruction.tag) :: instruction.operands)

/-- The record of a function, with all of its four fields. -/
def FunctionEntry.toJson (function : FunctionEntry) : Json :=
  .object [("name", .string function.name), ("entry_point", .index function.entryPoint),
    ("params", .index function.parameters), ("variadic", .boolean function.variadic)]

namespace Chunk

/-- The record of a chunk: its functions and its code, in order. -/
def toJson (chunk : Chunk) : Json :=
  .object [("functions", .array (chunk.functions.toList.map FunctionEntry.toJson)),
    ("code", .array (chunk.code.toList.map Instruction.toJson))]

/-- The one text that all layouts of a chunk share. -/
def canonicalText (chunk : Chunk) : String := chunk.toJson.render

end Chunk

end CoroutineVM
