import CoroutineVM.Chunk.Format
import CoroutineVM.Chunk.Validity
import CoroutineVM.Json.Reader

/-!
Chunks from text.

The format leaves some freedom: fields may come in any order, unknown fields are skipped, parameters
and variadicity may be missing, and a record may be an array of its fields in their order. A known
field that is repeated, missing without need or of the wrong kind makes the text misshapen.

The fields of a chunk and of a function are read one by one, so skipped ones need not be sound. An
instruction is read in full before its name is known; every part of it must be sound and not nested
too deeply, and surplus items of an array belong to its shape, where those of a chunk or a function
break the text.
-/

namespace CoroutineVM

namespace Json

/-- The fault of a value of the wrong kind; an unsound one is found first. -/
def kindFault : Json → Fault
  | .unsound => .malformed
  | _ => .misshapen

def asIndex : Json → Except Fault Nat
  | .number (.natural n) => .ok n
  | value => .error value.kindFault

def asBoolean : Json → Except Fault Bool
  | .boolean value => .ok value
  | value => .error value.kindFault

def asString : Json → Except Fault String
  | .string value => .ok value
  | value => .error value.kindFault

def asArray : Json → Except Fault (List Json)
  | .array items => .ok items
  | value => .error value.kindFault

/-- A double; an integer is one as well. -/
def asDouble : Json → Except Fault Float
  | .number (.natural n) => .ok (Float.ofNat n)
  | .number (.negative n) => .ok (-Float.ofNat n)
  | .number (.real x) => .ok x
  | value => .error value.kindFault

/-- The one member of this name, if there is one; a repeated name is a fault. -/
def fieldOf (members : List (String × Json)) (name : String) : Except Fault (Option Json) :=
  match valuesAt name members with
  | [] => .ok none
  | [value] => .ok (some value)
  | _ => .error .misshapen

/-- The fields of these names, from an object or from an array of them in order. Items of an array
beyond the names are the given fault. -/
def fields (surplus : Fault) (names : List String) : Json → Except Fault (List (Option Json))
  | .object members => names.mapM (fieldOf members)
  | .array items =>
    if names.length < items.length then .error surplus
    else .ok (items.map some ++ List.replicate (names.length - items.length) none)
  | value => .error value.kindFault

/-- A field that must be there. -/
def required (read : Json → Except Fault α) : Option Json → Except Fault α
  | some value => read value
  | none => .error .misshapen

/-- A field that may be missing. -/
def optional (missing : α) (read : Json → Except Fault α) : Option Json → Except Fault α
  | some value => read value
  | none => .ok missing

/-- A name of an alternative: a string, or an object with the name as its only member and nothing
in it. -/
def asTag : Json → Except Fault String
  | .string name => .ok name
  | .object [(name, .null)] | .object [(name, .object [])] => .ok name
  | _ => .error .misshapen

/-- The name of an alternative and its content, which an object may lack. -/
def asAlternative : Json → Except Fault (String × Option Json)
  | .object members => do
    let name ← required asTag (← fieldOf members "t")
    return (name, ← fieldOf members "v")
  | .array [name, content] => do return (← asTag name, some content)
  | _ => .error .misshapen

/-- An alternative without content. -/
def noContent (result : α) : Option Json → Except Fault α
  | none | some .null => .ok result
  | _ => .error .misshapen

end Json

open Json in
/-- A constant is told by the name of its kind, and its content is read as that kind has it. -/
def Constant.ofJson (value : Json) : Except Fault Constant := do
  let (name, content) ← asAlternative value
  if name = "Nil" then noContent .nil content
  else if name = "Bool" then return .boolean (← required asBoolean content)
  else if name = "Num" then return .number (← required asDouble content)
  else if name = "Str" then return .string (← required asString content)
  else .error .misshapen

open Json in
def Capture.ofJson (value : Json) : Except Fault Capture := do
  let (name, content) ← asAlternative value
  if name = "Local" then return .copyLocal (← required asIndex content)
  else if name = "Upvalue" then return .shareUpvalue (← required asIndex content)
  else .error .misshapen

namespace Instruction

open Json in
/-- An instruction with one operand. -/
def ofOperand (make : α → Instruction) (read : Json → Except Fault α) (name : String)
    (body : Json) : Except Fault Instruction := do
  match ← fields .misshapen [name] body with
  | [operand] => return make (← required read operand)
  | _ => .error .misshapen

open Json in
/-- The instruction that makes a closure; it is the only one with two operands. -/
def closureOfJson (body : Json) : Except Fault Instruction := do
  match ← fields .misshapen ["function", "captures"] body with
  | [function, captures] =>
    let function ← required asIndex function
    let captures ← required asArray captures
    return .makeClosure function (← captures.mapM Capture.ofJson)
  | _ => .error .misshapen

open Json in
/-- An instruction without operands; other members are skipped. -/
def ofNothing (instruction : Instruction) (body : Json) : Except Fault Instruction := do
  let _ ← fields .misshapen [] body
  return instruction

open Json in
/-- The instruction of this name with its operands read from the rest of its record. -/
def ofTag (name : String) : Json → Except Fault Instruction :=
  match name with
  | "Nop" => ofNothing .nop
  | "Literal" => ofOperand .literal Constant.ofJson "v"
  | "Pop" => ofNothing .pop
  | "Args" => ofNothing .arguments
  | "Local" => ofOperand .loadLocal asIndex "index"
  | "StoreLocal" => ofOperand .storeLocal asIndex "index"
  | "Upvalue" => ofOperand .loadUpvalue asIndex "index"
  | "StoreUpvalue" => ofOperand .storeUpvalue asIndex "index"
  | "Global" => ofOperand .loadGlobal asString "name"
  | "StoreGlobal" => ofOperand .storeGlobal asString "name"
  | "Closure" => closureOfJson
  | "Call" => ofOperand .call asIndex "argc"
  | "Ret" => ofOperand .ret asIndex "count"
  | "Yield" => ofOperand .yield asIndex "count"
  | "Tuple" => ofOperand .tuple asIndex "count"
  | "Jump" => ofOperand .jump asIndex "target"
  | "JumpIfFalse" => ofOperand .jumpIfFalse asIndex "target"
  | "Add" => ofNothing .add
  | "Sub" => ofNothing .subtract
  | "Lt" => ofNothing .less
  | "Eq" => ofNothing .equal
  | "Not" => ofNothing .not
  | "Concat" => ofNothing .concat
  | "Error" => ofNothing .raise
  | "CoCreate" => ofNothing .createCoroutine
  | "CoResume" => ofOperand .resumeCoroutine asIndex "argc"
  | "CoStatus" => ofNothing .coroutineStatus
  | "CoRunning" => ofNothing .currentCoroutine
  | _ => fun _ => .error .misshapen

/-- Chunk, code and instruction are three containers; this many may be inside an instruction's. -/
def greatestDepth : Nat := Json.greatestDepth - 2

open Json in
def ofJson (value : Json) : Except Fault Instruction := do
  if !value.fits greatestDepth then .error .malformed
  else match value with
    | .object members =>
      let name ← required asString (← fieldOf members "t")
      ofTag name value
    | .array (name :: operands) => do ofTag (← asString name) (.array operands)
    | _ => .error .misshapen

end Instruction

open Json in
/-- Name and entry point are required; parameters and variadicity stand for none if they are left
out. -/
def FunctionEntry.ofJson (value : Json) : Except Fault FunctionEntry := do
  match ← fields .malformed ["name", "entry_point", "params", "variadic"] value with
  | [name, entryPoint, parameters, variadic] =>
    return {
      name := ← required asString name
      entryPoint := ← required asIndex entryPoint
      parameters := ← optional 0 asIndex parameters
      variadic := ← optional false asBoolean variadic }
  | _ => .error .misshapen

namespace Chunk

open Json in
def ofJson (value : Json) : Except Fault Chunk := do
  match ← fields .malformed ["functions", "code"] value with
  | [functions, code] =>
    let functions ← (← required asArray functions).mapM FunctionEntry.ofJson
    let code ← (← required asArray code).mapM Instruction.ofJson
    return { functions := functions.toArray, code := code.toArray }
  | _ => .error .misshapen

/-- Reads a chunk without asking whether it is fit to be run. -/
def parse (text : String) : Except LoadError Chunk :=
  match (do ofJson (← Json.read text) : Except Fault Chunk) with
  | .ok chunk => .ok chunk
  | .error fault => .error (.unreadable fault)

/-- Reads a chunk and validates it. -/
def load (text : String) : Except LoadError Chunk := do
  let chunk ← parse text
  chunk.validate
  return chunk

end Chunk

end CoroutineVM
