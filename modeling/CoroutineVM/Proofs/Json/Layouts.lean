import CoroutineVM.Proofs.Json.Numerals
import CoroutineVM.Proofs.Json.Strings
import Mathlib.Data.List.Chain

/-!
# A text is cut into its tokens, however they are laid out

A text lays out its tokens in their order, each in one of its spellings, with blanks before, between
and after them (`LaidOut`). It is cut back into these tokens (`LaidOut.tokens`).

Two things could go wrong. A number could run into what follows it. Between two numbers a blank
would have to stand, and a layout need not have one; in the text of a value two numbers are never
next to each other, which is what `Apart` asks. And the budget of `tokensWithin` could run out;
`Cuts` asks the same tokens of every budget that covers the text, so that no proof has to count what
is left of it.
-/

namespace CoroutineVM.Json

variable {rest text word : List Char} {found more : List Token}

/-! ### Cutting a text -/

/-- The text is cut into these tokens, with any budget that covers it. -/
def Cuts (text : List Char) (found : List Token) : Prop :=
  ∀ budget, text.length ≤ budget → tokensWithin budget text = found

/-- The empty text is cut into no tokens. -/
theorem cuts_nil : Cuts [] [] := by
  intro budget _
  cases budget <;> rfl

/-- The budget that the reader begins with covers the text. -/
theorem Cuts.tokens (cuts : Cuts text found) : tokens text = found :=
  cuts text.length (Nat.le_refl _)

variable {c : Char} {token : Token}

/-- A blank is passed over. -/
theorem cuts_blank (blank : isBlank c = true) (cuts : Cuts rest found) :
    Cuts (c :: rest) found := by
  intro budget covers
  cases budget with
  | zero => cases covers
  | succ budget => simp [tokensWithin, blank, cuts budget (Nat.le_of_succ_le_succ covers)]

/-- The six marks. -/
theorem of_punctuation (mark : punctuation? c = some token) :
    c = '[' ∨ c = ']' ∨ c = '\x7b' ∨ c = '\x7d' ∨ c = ',' ∨ c = ':' := by
  unfold punctuation? at mark
  split at mark <;> simp_all

/-- A bracket, a comma or a colon is cut off as itself. -/
theorem cuts_punctuation (mark : punctuation? c = some token) (cuts : Cuts rest found) :
    Cuts (c :: rest) (token :: found) := by
  have solid : isBlank c = false := by
    rcases of_punctuation mark with rfl | rfl | rfl | rfl | rfl | rfl <;> rfl
  intro budget covers
  cases budget with
  | zero => cases covers
  | succ budget =>
    simp only [tokensWithin, solid, mark, cuts budget (Nat.le_of_succ_le_succ covers)]
    rfl

/-- A token of several characters is followed by the tokens of what its reader leaves. -/
theorem cuts_longer (solid : isBlank c = false) (unmarked : punctuation? c = none)
    (read : readLonger c (word ++ rest) = .ok (token, rest)) (cuts : Cuts rest found) :
    Cuts (c :: (word ++ rest)) (token :: found) := by
  intro budget covers
  cases budget with
  | zero => cases covers
  | succ budget =>
    have left : rest.length ≤ budget := by
      rw [List.length_cons, List.length_append] at covers
      omega
    simp only [tokensWithin, solid, unmarked, read, cuts budget left]
    rfl

/-- A string is cut off up to its closing mark, in whatever forms its characters are spelt. -/
theorem cuts_text {characters forms : List Char} (spelt : TextSpelt characters forms)
    (cuts : Cuts rest found) :
    Cuts ('"' :: (forms ++ ['"']) ++ rest) (.text (some (String.ofList characters)) :: found) := by
  have read : readLonger '"' ((forms ++ ['"']) ++ rest) =
      .ok (.text (some (String.ofList characters)), rest) := by
    rw [List.append_assoc, readLonger, if_pos rfl]
    simp only [List.cons_append, List.nil_append, readText_spelt spelt]
  exact cuts_longer rfl rfl read cuts

/-- Neither the sign nor a digit is a blank, a mark or the beginning of another word. -/
theorem first_of_number (first : c = '-' ∨ c.isDigit = true) :
    isBlank c = false ∧ punctuation? c = none ∧ c ≠ '"' ∧ c ≠ 't' ∧ c ≠ 'f' ∧ c ≠ 'n' := by
  rcases first with rfl | digit
  · exact ⟨rfl, rfl, by decide⟩
  · have other : ∀ d : Char, d.isDigit = false → c ≠ d := by
      rintro d plain rfl
      rw [plain] at digit
      cases digit
    refine ⟨?_, ?_, other '"' rfl, other 't' rfl, other 'f' rfl, other 'n' rfl⟩
    · simp [isBlank, other ' ' rfl, other '\n' rfl, other '\t' rfl, other '\r' rfl]
    · exact punctuation?.eq_7 c (other '[' rfl) (other ']' rfl) (other '\x7b' rfl)
        (other '\x7d' rfl) (other ',' rfl) (other ':' rfl)

/-- A number is cut off as far as its numeral goes, if what follows cannot belong to a numeral. -/
theorem cuts_number {numeral : List Char} {number : Option JsonNumber}
    (reads : readNumber numeral = .ok (number, [])) (ends : EndsNumber rest)
    (cuts : Cuts rest found) : Cuts (numeral ++ rest) (.number number :: found) := by
  obtain ⟨c, word, shape, first⟩ := readNumber_first reads
  obtain ⟨solid, unmarked, quote, yes, no, none⟩ := first_of_number first
  have read : readNumber (c :: (word ++ rest)) = .ok (number, rest) := by
    have whole := readNumber_append ends reads
    rwa [shape, List.cons_append, List.nil_append] at whole
  rw [shape, List.cons_append]
  refine cuts_longer solid unmarked ?_ cuts
  simp only [readLonger, quote, yes, no, none, first, read, if_true, if_false]
  rfl

/-! ### Layouts -/

/-- The forms of a token. A number may have any numeral that is read as it. -/
inductive Token.SpeltAs : Token → List Char → Prop
  | mark {c : Char} {token : Token} (mark : punctuation? c = some token) : SpeltAs token [c]
  | null : SpeltAs .null ['n', 'u', 'l', 'l']
  | yes : SpeltAs (.boolean true) ['t', 'r', 'u', 'e']
  | no : SpeltAs (.boolean false) ['f', 'a', 'l', 's', 'e']
  | number {number : Option JsonNumber} {numeral : List Char}
      (reads : readNumber numeral = .ok (number, [])) : SpeltAs (.number number) numeral
  | text {characters forms : List Char} (spelt : TextSpelt characters forms) :
      SpeltAs (.text (some (String.ofList characters))) ('"' :: (forms ++ ['"']))

/-- A text of these tokens in this order, with blanks anywhere around them. -/
inductive LaidOut : List Token → List Char → Prop
  | nil : LaidOut [] []
  | blank {c : Char} {found : List Token} {text : List Char} (blank : isBlank c = true)
      (rest : LaidOut found text) : LaidOut found (c :: text)
  | token {token : Token} {word text : List Char} {found : List Token}
      (spelt : token.SpeltAs word) (rest : LaidOut found text) :
      LaidOut (token :: found) (word ++ text)

/-- Two layouts one after the other lay out the tokens of both. -/
theorem LaidOut.append (first : LaidOut found text) (second : LaidOut more rest) :
    LaidOut (found ++ more) (text ++ rest) := by
  induction first with
  | nil => exact second
  | blank blank _ inductionHypothesis => exact .blank blank inductionHypothesis
  | token spelt _ inductionHypothesis =>
    rw [List.append_assoc]
    exact .token spelt inductionHypothesis

/-- Whether the token is a number. -/
def Token.isNumber : Token → Bool
  | .number _ => true
  | _ => false

/-- Whether the token has a form: it is not broken, and no string with half of a surrogate pair. -/
def Token.isSound : Token → Bool
  | .brokenText _ | .brokenWord _ | .text none => false
  | _ => true

/-- The tokens do not begin with a number. -/
def NoNumberFirst (found : List Token) : Prop := ∀ token ∈ found.head?, token.isNumber = false

/-- A list of tokens does not begin with a number if its first token is none. -/
theorem noNumberFirst_cons (other : token.isNumber = false) : NoNumberFirst (token :: found) := by
  intro first member
  cases member
  exact other

/-- No two numbers are next to each other. -/
def Apart (found : List Token) : Prop :=
  found.IsChain fun token next => token.isNumber = true → next.isNumber = false

/-- Tokens are apart if the first of them is apart from the next one and the others are apart. -/
theorem apart_cons :
    Apart (token :: found) ↔ (token.isNumber = true → NoNumberFirst found) ∧ Apart found := by
  rw [Apart, List.isChain_cons]
  exact and_congr_left fun _ => ⟨fun all number next member => all next member number,
    fun all next member number => all number next member⟩

/-- No blank and no token but a number begins with what could belong to a number. So a number in a
layout ends where its numeral does, unless another number stands next to it. -/
theorem LaidOut.endsNumber (laidOut : LaidOut found text) (first : NoNumberFirst found) :
    EndsNumber text := by
  intro c begins
  cases laidOut with
  | nil => cases begins
  | blank blank _ =>
    cases begins
    simp only [isBlank, Bool.or_eq_true, decide_eq_true_eq] at blank
    rcases blank with ((rfl | rfl) | rfl) | rfl <;> decide
  | @token token word text _ spelt _ =>
    have other := first token rfl
    cases spelt with
    | mark mark =>
      cases begins
      rcases of_punctuation mark with rfl | rfl | rfl | rfl | rfl | rfl <;> decide
    | null | yes | no | text =>
      cases begins
      decide
    | number => cases other

/-- A text is cut into the tokens that it lays out. The induction is on the layout, which puts a
blank or a token in front; a number needs that what follows is not a number. -/
theorem LaidOut.cuts (laidOut : LaidOut found text) (apart : Apart found) : Cuts text found := by
  induction laidOut with
  | nil => exact cuts_nil
  | blank blank _ inductionHypothesis => exact cuts_blank blank (inductionHypothesis apart)
  | @token token word text _ spelt rest inductionHypothesis =>
    obtain ⟨beside, apart⟩ := apart_cons.1 apart
    have cuts := inductionHypothesis apart
    cases spelt with
    | mark mark => exact cuts_punctuation mark cuts
    | null =>
      have read : readLonger 'n' (['u', 'l', 'l'] ++ text) = .ok (.null, text) := rfl
      exact cuts_longer rfl rfl read cuts
    | yes =>
      have read : readLonger 't' (['r', 'u', 'e'] ++ text) = .ok (.boolean true, text) := rfl
      exact cuts_longer rfl rfl read cuts
    | no =>
      have read : readLonger 'f' (['a', 'l', 's', 'e'] ++ text) = .ok (.boolean false, text) := rfl
      exact cuts_longer rfl rfl read cuts
    | number reads => exact cuts_number reads (rest.endsNumber (beside rfl)) cuts
    | text spelt => exact cuts_text spelt cuts

/-- A text is cut into the tokens that it lays out, as long as no two numbers are next to each
other. -/
theorem LaidOut.tokens (laidOut : LaidOut found text) (apart : Apart found) :
    tokens text = found :=
  (laidOut.cuts apart).tokens

end CoroutineVM.Json
