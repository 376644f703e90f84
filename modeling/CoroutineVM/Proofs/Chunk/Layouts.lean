import CoroutineVM.Proofs.Chunk.Arrangements
import CoroutineVM.Proofs.Json.Cutting

/-!
# The layout of a chunk text does not matter

A chunk has one canonical text and many others that say the same (`Chunk.IsLayout`). They differ in
how records are arranged and, as texts, in their blanks and in the spellings of their strings. What
a text is laid out with is gone when its value has been read (`Json.read_of_laidOut`), and how its
records are arranged when the value has been read as a chunk (`Chunk.Arranged.reads`).

So all texts of a chunk are loaded alike (`Chunk.load_ignores_layout`). Nothing is asked of the
chunk: its canonical text may well not be readable, and then the fault is the same.
-/

namespace CoroutineVM

open Json

namespace Chunk

variable {chunk : Chunk} {text : String}

/-- A text of the chunk: the tokens of a value that says it, each in one of its spellings, and
blanks anywhere around them. -/
def IsLayout (chunk : Chunk) (text : String) : Prop :=
  ∃ value, chunk.Arranged value ∧ LaidOut value.spelling text.toList

/-- The canonical text is one of them. -/
theorem isLayout_canonicalText (chunk : Chunk) : chunk.IsLayout chunk.canonicalText := by
  refine ⟨chunk.toJson.reread, chunk.arranged_self, ?_⟩
  rw [canonicalText, render, String.toList_ofList]
  exact laidOut_write chunk.toJson

/-- All texts of a chunk are read alike. -/
theorem parse_of_isLayout (layout : chunk.IsLayout text) :
    parse text = parse chunk.canonicalText := by
  obtain ⟨value, arranged, laidOut⟩ := layout
  have read : (do ofJson (← Json.read text) : Except Fault Chunk) = ofJson value := by
    rw [read_of_laidOut laidOut]
    rfl
  have readCanonical : (do ofJson (← Json.read chunk.canonicalText) : Except Fault Chunk) =
      ofJson chunk.toJson.reread := by
    rw [canonicalText, read_render]
    rfl
  rw [parse, parse, read, readCanonical, arranged.reads]

/-- Nothing of the layout of a chunk text is left once it is loaded. -/
structure LoadsAsCanonical (chunk : Chunk) (text : String) : Prop where
  /-- The text is read as the canonical text is, be it as a chunk or with the same fault. -/
  parsed : parse text = parse chunk.canonicalText
  /-- Loading it gives the same chunk or the same error. -/
  loaded : load text = load chunk.canonicalText
  /-- So the fingerprint of what has been loaded is the same. -/
  fingerprinted : (load text).map fingerprint = (load chunk.canonicalText).map fingerprint
  /-- Where the canonical text holds the whole chunk, this is the chunk or what is wrong with it. -/
  judged : chunk.Representable → chunk.NumbersReadBack →
    load text = chunk.validate.map fun _ => chunk

/-- Every layout of a chunk's text is loaded as its canonical text is. The reader of texts gives the
same value for both, as it cuts them into the tokens of their values, and the reader of chunks the
same chunk or the same fault, as it asks for fields by their names. -/
theorem load_ignores_layout (chunk : Chunk) (text : String) (layout : chunk.IsLayout text) :
    chunk.LoadsAsCanonical text := by
  have parsed := parse_of_isLayout layout
  have loaded : load text = load chunk.canonicalText := by rw [load, load, parsed]
  refine ⟨parsed, loaded, by rw [loaded], fun representable readBack => ?_⟩
  rw [loaded, load_canonicalText representable readBack]

/-- A chunk with records on all levels. -/
def nestedChunk : Chunk where
  functions := #[⟨"main😀", 0, 0, false⟩]
  code := #[.makeClosure 0 [.copyLocal 0], .literal .nil, .ret 1]

/-- A value of it: the fields of every record are reversed, with unknown ones before them, and what
may be left out is left out. -/
def reversedValue : Json :=
  .object [("version", .number (.natural 2)),
    ("code", .array [
      .object [
        ("captures", .array [.object [("note", .null), ("v", .index 0), ("t", .string "Local")]]),
        ("function", .index 0), ("t", .string "Closure")],
      .object [("line", .array [.number (.real 1.5), .object []]),
        ("v", .object [("v", .null), ("t", .string "Nil")]), ("t", .string "Literal")],
      .object [("count", .index 1), ("t", .string "Ret")]]),
    ("functions", .array [.object [("entry_point", .index 0), ("name", .string "main😀")]])]

/-- The lines of a text of this value with blanks and escapes. -/
def reversedLines : List String :=
  ["\n\x7b \"version\": 2, \"code\" : [\n",
    "\x7b\"captures\": [\x7b\"note\":null,\"v\":0,\"\\u0074\":\"Local\"\x7d],\n",
    "\"function\":0, \"t\":\"Closure\"\x7d,\n",
    "\x7b\"line\": [1.50, \x7b\x7d],\r\n",
    "\"v\": \x7b\"v\":null, \"t\":\"\\u004Eil\"\x7d, \"t\":\"Literal\"\x7d,\t\n",
    "\x7b\"count\":1, \"t\":\"Ret\"\x7d], \"functions\":\n",
    "[\x7b\"entry_point\":0, \"n\\u0061me\":\"main\\ud83D\\uDE00\"\x7d]\x7d "]

def reversedText : String := String.join reversedLines

/-- The value above is an arrangement of the chunk: its fields are turned round, those are left out
that may be, and there are fields that nobody knows in the chunk, in an instruction and in a
capture. -/
theorem arranged_reversedValue : nestedChunk.Arranged reversedValue := by
  have function : FunctionEntry.Arranged ⟨"main😀", 0, 0, false⟩
      (.object [("entry_point", .index 0), ("name", .string "main😀")]) :=
    .fields (.inr ⟨rfl, rfl⟩) (.inr ⟨rfl, rfl⟩) ⟨[], List.reverse_perm [_, _], by simp⟩
  have capture : (Capture.copyLocal 0).Arranged
      (.object [("note", .null), ("v", .index 0), ("t", .string "Local")]) :=
    .fields ⟨[("note", .null)], List.reverse_perm [_, _, _],
      List.forall_mem_singleton.2 ⟨by decide, rfl⟩⟩
  have closure : (Instruction.makeClosure 0 [.copyLocal 0]).Arranged _ :=
    .fields ⟨_, .cons capture .nil, rfl⟩ ⟨[], List.reverse_perm [_, _, _], by simp⟩
  have constant : Constant.nil.Arranged (.object [("v", .null), ("t", .string "Nil")]) :=
    .emptied rfl ⟨[], List.reverse_perm [_, _], by simp⟩
  have literal : (Instruction.literal .nil).Arranged _ :=
    .fields ⟨_, constant, rfl⟩ ⟨[("line", .array [.number (.real 1.5), .object []])],
      List.reverse_perm [_, _, _], List.forall_mem_singleton.2 ⟨by decide, rfl⟩⟩
  have ret : (Instruction.ret 1).Arranged (.object [("count", .index 1), ("t", .string "Ret")]) :=
    .fields rfl ⟨[], List.reverse_perm [_, _], by simp⟩
  exact .fields (.cons function .nil) (.cons closure (.cons literal (.cons ret .nil)))
    ⟨[("version", .number (.natural 2))], List.reverse_perm [_, _, _], by simp⟩

/-- The text above is one of the chunk's texts, and it loads. -/
theorem load_ignores_layout_reversedText :
    nestedChunk.IsLayout reversedText ∧ nestedChunk.LoadsAsCanonical reversedText ∧
      load reversedText = .ok nestedChunk := by
  have cut : tokens (reversedLines.flatMap String.toList) = reversedValue.spelling := by
    decide +kernel
  have layout : nestedChunk.IsLayout reversedText := by
    refine ⟨reversedValue, arranged_reversedValue, laidOut_iff.2 ?_⟩
    rw [reversedText, String.toList_join, cut]
  have same := load_ignores_layout nestedChunk reversedText layout
  refine ⟨layout, same, ?_⟩
  rw [same.judged (by decide +kernel) (by decide +kernel)]
  rfl

end Chunk

end CoroutineVM
