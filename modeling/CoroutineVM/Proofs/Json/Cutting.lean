import CoroutineVM.Proofs.Json.Spelling
import Mathlib

/-!
# A text lays out the tokens it is cut into

That every layout is cut into its tokens says nothing of how many layouts there are. This is the
other direction: a text that is cut into tokens none of which is broken is a layout of them
(`laidOut_of_tokens`). So `LaidOut` leaves out no form that the reader takes, and the layouts of a
value are the texts that are cut into its tokens (`laidOut_iff`).

Each reader is inverted by a lemma that ends in `_inv`: what it has taken off the text is one of the
forms of what it has read. Strings need one step more, because a reader holds pieces, and only
joining them says which of their units make up a character.
-/

namespace CoroutineVM.Json

open Number

variable {text after rest digits word : List Char}

/-! ### Numbers -/

/-- What is taken off the text are digits, and the rest follows them. -/
theorem spanDigits_inv (span : spanDigits text = (digits, rest)) :
    text = digits ++ rest ∧ ∀ c ∈ digits, c.isDigit = true := by
  rw [spanDigits_eq] at span
  cases span
  exact ⟨List.takeWhile_append_dropWhile.symm, fun c member => List.mem_takeWhile_imp member⟩

/-- The part of a numeral before its point is taken as it stands there, and it has the form that it
is read back from. -/
theorem readWhole_inv (read : readWhole text = .ok (digits, rest)) :
    text = digits ++ rest ∧ Whole digits := by
  rw [readWhole] at read
  rcases span : spanDigits text with ⟨found, left⟩
  obtain ⟨joined, decimal⟩ := spanDigits_inv span
  rw [span] at read
  dsimp only at read
  split at read
  · cases read
  · cases read
  · next nonempty leading =>
    cases read
    refine ⟨joined, decimal, ?_⟩
    rcases digits with _ | ⟨c, others⟩
    · exact (nonempty rfl).elim
    · rcases others with _ | ⟨d, others⟩
      · by_cases zero : c = '0'
        · exact .inl (by rw [zero])
        · exact .inr ⟨c, [], rfl, zero⟩
      · exact .inr ⟨c, d :: others, rfl, fun zero => leading d others (by rw [zero])⟩

/-- What follows the whole part of a number and its fraction. -/
def EndsFraction (rest : List Char) : Prop := EndsDigits rest ∧ ∀ more, rest ≠ '.' :: more

/-- The fraction is taken as it stands there too, or there is none. It is read back from this form
before anything that does not go on with it. -/
theorem readFraction_inv {fraction : Option (List Char)}
    (read : readFraction text = .ok (fraction, after)) :
    ∃ word, text = word ++ after ∧ ∀ rest, EndsFraction rest →
      EndsDigits (word ++ rest) ∧ readFraction (word ++ rest) = .ok (fraction, rest) := by
  by_cases point : ∃ more, text = '.' :: more
  · obtain ⟨more, rfl⟩ := point
    rcases span : spanDigits more with ⟨digits, left⟩
    obtain ⟨rfl, decimal⟩ := spanDigits_inv span
    simp only [readFraction, span] at read
    by_cases nonempty : digits = []
    · simp [nonempty] at read
    · simp only [List.isEmpty_iff, nonempty, if_false] at read
      cases read
      refine ⟨'.' :: digits, rfl, fun rest ends => ⟨endsDigits_cons rfl, ?_⟩⟩
      exact readFraction_of_digits decimal nonempty ends.1
  · rw [readFraction_of_no_point fun more same => point ⟨more, same⟩] at read
    cases read
    exact ⟨[], rfl, fun rest ends => ⟨ends.1, readFraction_of_no_point ends.2⟩⟩

/-- So is the sign of an exponent, which may be missing. What is taken is a minus, a plus or
nothing, and put before other digits it is taken again. -/
theorem signOf_inv (text : List Char) :
    ∃ sign, text = sign ++ (signOf text).2 ∧ ∀ digits : List Char, digits ≠ [] →
      (∀ c ∈ digits, c.isDigit = true) → signOf (sign ++ digits) = ((signOf text).1, digits) := by
  by_cases minus : ∃ more, text = '-' :: more
  · obtain ⟨more, rfl⟩ := minus
    exact ⟨['-'], rfl, fun digits _ _ => rfl⟩
  · by_cases plus : ∃ more, text = '+' :: more
    · obtain ⟨more, rfl⟩ := plus
      exact ⟨['+'], rfl, fun digits _ _ => rfl⟩
    · have unsigned : signOf text = (false, text) :=
        signOf.eq_3 text (fun more same => minus ⟨more, same⟩) fun more same => plus ⟨more, same⟩
      rw [unsigned]
      refine ⟨[], rfl, fun digits nonempty decimal => ?_⟩
      obtain ⟨c, others, rfl⟩ := List.exists_cons_of_ne_nil nonempty
      have digit := decimal c List.mem_cons_self
      refine signOf.eq_3 _ ?_ ?_
      · rintro more same
        cases same
        cases digit
      · rintro more same
        cases same
        cases digit

/-- And the exponent, with its mark, its sign and its digits. Without a mark there is no exponent,
and then nothing is taken off the text. -/
theorem readExponent_inv {exponent : Option Int}
    (read : readExponent text = .ok (exponent, after)) :
    ∃ word, text = word ++ after ∧ EndsFraction word ∧ readExponent word = .ok (exponent, []) := by
  have absent : EndsFraction [] := ⟨endsDigits_nil, fun _ same => by cases same⟩
  rcases text with _ | ⟨mark, text⟩
  · cases read
    exact ⟨[], rfl, absent, rfl⟩
  · rw [readExponent_cons] at read
    by_cases marked : mark = 'e' ∨ mark = 'E'
    · obtain ⟨sign, joined, signed⟩ := signOf_inv text
      rcases span : spanDigits (signOf text).2 with ⟨digits, left⟩
      obtain ⟨split, decimal⟩ := spanDigits_inv span
      simp only [marked, if_true, span] at read
      by_cases nonempty : digits = []
      · simp [nonempty] at read
      · simp only [List.isEmpty_iff, nonempty, if_false] at read
        cases read
        have alone := spanDigits_of_digits decimal endsDigits_nil
        rw [List.append_nil] at alone
        refine ⟨mark :: (sign ++ digits), ?_, ⟨?_, ?_⟩, ?_⟩
        · rw [joined, split]
          simp
        · refine endsDigits_cons ?_
          rcases marked with rfl | rfl <;> rfl
        · rintro more same
          cases same
          simp at marked
        · rw [readExponent_cons, if_pos marked, signed digits nonempty decimal, alone]
          simp [nonempty]
    · rw [if_neg marked] at read
      cases read
      exact ⟨[], rfl, absent, rfl⟩

variable {number : Option JsonNumber}

/-- Put together: a number is read back from the numeral that it was taken from. -/
theorem readUnsigned_inv {negative : Bool}
    (read : readUnsigned negative text = .ok (number, after)) :
    ∃ numeral, text = numeral ++ after ∧ readUnsigned negative numeral = .ok (number, []) := by
  obtain ⟨⟨whole, left⟩, readsWhole, read⟩ := ok_of_bind read
  obtain ⟨⟨fraction, left⟩, readsFraction, read⟩ := ok_of_bind read
  obtain ⟨⟨exponent, left⟩, readsExponent, read⟩ := ok_of_bind read
  cases read
  obtain ⟨rfl, isWhole⟩ := readWhole_inv readsWhole
  obtain ⟨point, rfl, fractionReads⟩ := readFraction_inv readsFraction
  obtain ⟨mark, rfl, ends, exponentReads⟩ := readExponent_inv readsExponent
  obtain ⟨endsWhole, fractionReads⟩ := fractionReads mark ends
  refine ⟨whole ++ (point ++ mark), by simp, ?_⟩
  exact readUnsigned_of_whole isWhole endsWhole fractionReads exponentReads

/-- What is read as a number is a numeral, and what follows it. -/
theorem readNumber_inv (read : readNumber text = .ok (number, after)) :
    ∃ numeral, text = numeral ++ after ∧ readNumber numeral = .ok (number, []) := by
  rcases text with _ | ⟨c, text⟩
  · cases read
  · by_cases minus : c = '-'
    · subst minus
      rw [readNumber_minus] at read
      obtain ⟨numeral, rfl, reads⟩ := readUnsigned_inv read
      exact ⟨'-' :: numeral, rfl, reads⟩
    · rw [readNumber_of_ne minus] at read
      obtain ⟨numeral, joined, reads⟩ := readUnsigned_inv read
      exact ⟨numeral, joined, readNumber_of_unsigned reads⟩

/-! ### Strings -/

/-- A digit of an escape is less than sixteen, be it a decimal one or a letter of either case. -/
theorem hexDigit?_lt {c : Char} {digit : Nat} (names : hexDigit? c = some digit) : digit < 16 := by
  have order : ∀ {a b : Char}, a ≤ b → a.toNat ≤ b.toNat := UInt32.le_iff_toNat_le.1
  rw [hexDigit?] at names
  split at names
  · next range =>
    have upper : c.toNat ≤ 57 := order range.2
    cases names
    change c.toNat - 48 < 16
    omega
  · split at names
    · next range =>
      have upper : c.toNat ≤ 102 := order range.2
      cases names
      change c.toNat - 97 + 10 < 16
      omega
    · split at names
      · next range =>
        have upper : c.toNat ≤ 70 := order range.2
        cases names
        change c.toNat - 65 + 10 < 16
        omega
      · cases names

/-- So four of them make a unit of 16 bits. -/
theorem hexUnit?_lt {d₁ d₂ d₃ d₄ : Char} {code : Nat} (names : hexUnit? d₁ d₂ d₃ d₄ = some code) :
    code < 0x10000 := by
  simp only [hexUnit?, Option.bind_eq_bind, Option.bind_eq_some_iff] at names
  obtain ⟨a, first, b, second, c, third, d, fourth, same⟩ := names
  cases same
  have := hexDigit?_lt first
  have := hexDigit?_lt second
  have := hexDigit?_lt third
  have := hexDigit?_lt fourth
  omega

/-- A form that a piece is read from. -/
inductive PieceSpelt : Piece → List Char → Prop
  | plain {c : Char} (closing : c ≠ '"') (escaped : c ≠ '\\') (control : ¬ c.toNat < 0x20) :
      PieceSpelt (.char c) [c]
  | letter {c mark : Char} (names : simpleEscape? mark = some c) : PieceSpelt (.char c) ['\\', mark]
  | unit {d₁ d₂ d₃ d₄ : Char} {code : Nat} (names : hexUnit? d₁ d₂ d₃ d₄ = some code) :
      PieceSpelt (.unit code) ['\\', 'u', d₁, d₂, d₃, d₄]

/-- A form that pieces are read from. -/
inductive PiecesSpelt : List Piece → List Char → Prop
  | nil : PiecesSpelt [] []
  | cons {piece : Piece} {pieces : List Piece} {form forms : List Char}
      (first : PieceSpelt piece form) (rest : PiecesSpelt pieces forms) :
      PiecesSpelt (piece :: pieces) (form ++ forms)

/-- What has been changed after reading has been read. -/
theorem ok_of_map {α β : Type} {first : Except Fault α} {next : α → β} {result : β}
    (read : first.map next = .ok result) :
    ∃ between, first = .ok between ∧ next between = result := by
  cases first with
  | error fault => cases read
  | ok between => exact ⟨between, rfl, Except.ok.inj read⟩

/-- A piece that has been read spells itself before those that are read after it. -/
theorem spelt_of_map {form rest after : List Char} {piece : Piece} {pieces : List Piece}
    (spelt : PieceSpelt piece form)
    (later : ∀ {pieces}, readPieces rest = .ok (pieces, after) →
      ∃ forms, PiecesSpelt pieces forms ∧ rest = forms ++ '"' :: after)
    (read : (readPieces rest).map (prepend [piece]) = .ok (pieces, after)) :
    ∃ forms, PiecesSpelt pieces forms ∧ form ++ rest = forms ++ '"' :: after := by
  obtain ⟨⟨others, left⟩, reads, same⟩ := ok_of_map read
  cases same
  obtain ⟨forms, spelts, rfl⟩ := later reads
  exact ⟨form ++ forms, .cons spelt spelts, by rw [List.append_assoc]⟩

/-- The pieces of a string are spelt by the text up to the closing mark. The induction is that of
the reader, which takes one piece at a time. -/
theorem readPieces_inv {text after : List Char} {pieces : List Piece}
    (read : readPieces text = .ok (pieces, after)) :
    ∃ forms, PiecesSpelt pieces forms ∧ text = forms ++ '"' :: after := by
  fun_induction readPieces text generalizing pieces with
  | case1 | case3 | case5 | case6 | case7 | case9 => cases read
  | case2 rest =>
    cases read
    exact ⟨[], .nil, rfl⟩
  | case4 d₁ d₂ d₃ d₄ rest code names inductionHypothesis =>
    exact spelt_of_map (.unit names) inductionHypothesis read
  | case8 mark rest _ _ c names inductionHypothesis =>
    exact spelt_of_map (.letter names) inductionHypothesis read
  | case10 c rest closing _ _ alone escape control inductionHypothesis =>
    have escaped : c ≠ '\\' := by
      rintro rfl
      cases rest with
      | nil => exact alone rfl rfl
      | cons mark rest => exact escape mark rest rfl rfl
    exact spelt_of_map (.plain closing escaped control) inductionHypothesis read

/-- A unit that is not half of a pair spells the character of that code. -/
theorem charSpelt_unit {d₁ d₂ d₃ d₄ : Char} {code : Nat} (names : hexUnit? d₁ d₂ d₃ d₄ = some code)
    (single : ¬ (0xD800 ≤ code ∧ code < 0xE000)) :
    CharSpelt (Char.ofNat code) ['\\', 'u', d₁, d₂, d₃, d₄] := by
  have small := hexUnit?_lt names
  have valid : code.isValidChar := by
    simp only [Nat.isValidChar]
    omega
  refine .unit ?_
  rw [names, Char.toNat_ofNat, if_pos valid]

/-- Two units that are halves of a pair spell a character above 16 bits. -/
theorem charSpelt_pair {d₁ d₂ d₃ d₄ e₁ e₂ e₃ e₄ : Char} {high low : Nat}
    (first : hexUnit? d₁ d₂ d₃ d₄ = some high) (second : hexUnit? e₁ e₂ e₃ e₄ = some low)
    (range : 0xD800 ≤ high ∧ high < 0xDC00 ∧ 0xDC00 ≤ low ∧ low < 0xE000) :
    CharSpelt (Char.ofNat (0x10000 + (high - 0xD800) * 0x400 + (low - 0xDC00)))
      ['\\', 'u', d₁, d₂, d₃, d₄, '\\', 'u', e₁, e₂, e₃, e₄] := by
  have valid : (0x10000 + (high - 0xD800) * 0x400 + (low - 0xDC00)).isValidChar := by
    simp only [Nat.isValidChar]
    omega
  refine .pair first second ⟨range.1, range.2.1⟩ range.2.2 ?_
  rw [Char.toNat_ofNat, if_pos valid]

/-- Pieces that can be joined spell the characters that come of it. Only here it is seen which units
belong together, and the induction is that of the joining for this reason. -/
theorem textSpelt_of_join {pieces : List Piece} {forms characters : List Char}
    (spelt : PiecesSpelt pieces forms) (joined : joinPieces pieces = some characters) :
    TextSpelt characters forms := by
  fun_induction joinPieces pieces generalizing forms characters with
  | case1 =>
    cases joined
    cases spelt
    exact .nil
  | case2 c rest inductionHypothesis =>
    obtain ⟨others, rejoined, rfl⟩ := Option.map_eq_some_iff.1 joined
    obtain - | ⟨first, later⟩ := spelt
    have spelts := inductionHypothesis later rejoined
    cases first with
    | plain closing escaped control => exact .cons (.plain closing escaped control) spelts
    | letter names => exact .cons (.letter names) spelts
  | case3 high low rest range code =>
    rename_i inductionHypothesis
    obtain ⟨others, rejoined, rfl⟩ := Option.map_eq_some_iff.1 joined
    obtain - | ⟨first, spelt⟩ := spelt
    obtain - | ⟨second, later⟩ := spelt
    cases first with
    | unit names =>
      cases second with
      | unit secondNames =>
        have spelts := TextSpelt.cons (charSpelt_pair names secondNames range)
          (inductionHypothesis later rejoined)
        exact spelts
  | case4 | case6 => cases joined
  | case5 high low rest _ single inductionHypothesis =>
    obtain ⟨others, rejoined, rfl⟩ := Option.map_eq_some_iff.1 joined
    obtain - | ⟨first, later⟩ := spelt
    cases first with
    | unit names => exact .cons (charSpelt_unit names single) (inductionHypothesis later rejoined)
  | case7 code rest _ single inductionHypothesis =>
    obtain ⟨others, rejoined, rfl⟩ := Option.map_eq_some_iff.1 joined
    obtain - | ⟨first, later⟩ := spelt
    cases first with
    | unit names => exact .cons (charSpelt_unit names single) (inductionHypothesis later rejoined)

/-! ### Texts -/

/-- A word that is expected and read stands there. -/
theorem expectChars_inv {expected : List Char} (read : expectChars expected text = .ok after) :
    text = expected ++ after := by
  fun_induction expectChars expected text with
  | case1 =>
    cases read
    rfl
  | case2 | case4 => cases read
  | case3 expected more rest inductionHypothesis =>
    rw [inductionHypothesis read]
    rfl

/-- So does the word of the token that is told by it. -/
theorem word_inv {expected : List Char} {token found : Token}
    (read : (expectChars expected rest).map (token, ·) = .ok (found, after)) :
    found = token ∧ rest = expected ++ after := by
  obtain ⟨left, reads, same⟩ := ok_of_map read
  cases same
  exact ⟨rfl, expectChars_inv reads⟩

/-- A string that is read is spelt by what stands between its marks. -/
theorem readText_inv {characters : String} (read : readText text = .ok (some characters, after)) :
    ∃ forms, Token.SpeltAs (.text (some characters)) ('"' :: (forms ++ ['"'])) ∧
      text = forms ++ '"' :: after := by
  obtain ⟨⟨pieces, left⟩, reads, same⟩ := ok_of_map read
  obtain ⟨forms, spelt, rfl⟩ := readPieces_inv reads
  simp only [Prod.mk.injEq, Option.map_eq_some_iff] at same
  obtain ⟨⟨characters, joined, rfl⟩, rfl⟩ := same
  exact ⟨forms, .text (textSpelt_of_join spelt joined), rfl⟩

/-- A word is read, or broken. -/
theorem ok_of_word {found : Except Fault (Token × List Char)} {result : Token × List Char}
    (read : (match found with
      | .ok found => .ok found
      | .error fault => .error (.brokenWord fault) : Except Token (Token × List Char)) =
        .ok result) : found = .ok result := by
  cases found with
  | error fault => cases read
  | ok found =>
    cases read
    rfl

/-- A token of several characters is spelt by those that it was read from, if it is not broken. Its
first character says which it is: a string, one of three words, or a number. -/
theorem readLonger_inv {c : Char} {token : Token} (read : readLonger c rest = .ok (token, after))
    (sound : token.isSound = true) : ∃ word, token.SpeltAs word ∧ c :: rest = word ++ after := by
  rw [readLonger] at read
  split at read
  · next quote =>
    split at read
    · next found left reads =>
      cases read
      cases found with
      | none => cases sound
      | some characters =>
        obtain ⟨forms, spelt, rfl⟩ := readText_inv reads
        exact ⟨_, spelt, by simp [quote]⟩
    · cases read
  · replace read := ok_of_word read
    split at read
    · next yes =>
      obtain ⟨rfl, rfl⟩ := word_inv read
      exact ⟨_, .yes, by rw [yes]; rfl⟩
    · split at read
      · next no =>
        obtain ⟨rfl, rfl⟩ := word_inv read
        exact ⟨_, .no, by rw [no]; rfl⟩
      · split at read
        · next null =>
          obtain ⟨rfl, rfl⟩ := word_inv read
          exact ⟨_, .null, by rw [null]; rfl⟩
        · split at read
          · obtain ⟨⟨number, left⟩, reads, same⟩ := ok_of_map read
            cases same
            obtain ⟨numeral, joined, reads⟩ := readNumber_inv reads
            exact ⟨numeral, .number reads, joined⟩
          · cases read

/-- Where no token is read the text is broken. -/
theorem isSound_of_error {c : Char} {token : Token} (read : readLonger c rest = .error token) :
    token.isSound = false := by
  rw [readLonger] at read
  split at read
  · split at read
    · cases read
    · cases read
      rfl
  · dsimp only at read
    split at read
    · cases read
    · cases read
      rfl

/-- No token is spelt by nothing, so that each one that is cut off leaves less of the text. -/
theorem Token.SpeltAs.nonempty {token : Token} (spelt : token.SpeltAs word) : word ≠ [] := by
  rintro rfl
  cases spelt with
  | number reads => cases reads

/-- What a text is cut into within some budget is laid out by it, if the budget covers the text and
nothing in it is broken. The induction is on the budget, which every token leaves less of. -/
theorem laidOut_tokensWithin (budget : Nat) (covers : text.length ≤ budget)
    (sound : ∀ token ∈ tokensWithin budget text, token.isSound = true) :
    LaidOut (tokensWithin budget text) text := by
  induction budget generalizing text with
  | zero =>
    rw [List.length_eq_zero_iff.1 (Nat.le_zero.1 covers)]
    exact .nil
  | succ budget inductionHypothesis =>
    cases text with
    | nil => exact .nil
    | cons c rest =>
      have left : rest.length ≤ budget := Nat.le_of_succ_le_succ covers
      rw [tokensWithin] at sound ⊢
      by_cases blank : isBlank c = true
      · rw [if_pos blank] at sound ⊢
        exact .blank blank (inductionHypothesis left sound)
      · rw [if_neg blank] at sound ⊢
        split at sound
        · next token mark =>
          have later := inductionHypothesis left fun token member =>
            sound token (List.mem_cons_of_mem _ member)
          exact .token (.mark mark) later
        · split at sound
          · next token after read =>
            obtain ⟨word, spelt, joined⟩ := readLonger_inv read (sound token List.mem_cons_self)
            have shorter : after.length ≤ budget := by
              have nonempty := List.length_pos_of_ne_nil spelt.nonempty
              have lengths := congrArg List.length joined
              rw [List.length_cons, List.length_append] at lengths
              omega
            rw [joined]
            exact .token spelt (inductionHypothesis shorter fun token member =>
              sound token (List.mem_cons_of_mem _ member))
          · next broken read =>
            have unsound := isSound_of_error read
            rw [sound broken List.mem_cons_self] at unsound
            cases unsound

/-- A text that is cut into sound tokens is a layout of them. -/
theorem laidOut_of_tokens {found : List Token} (cut : tokens text = found)
    (sound : ∀ token ∈ found, token.isSound = true) : LaidOut found text := by
  subst cut
  exact laidOut_tokensWithin text.length (Nat.le_refl _) sound

/-! ### Values -/

deriving instance DecidableEq for Token

/-- All tokens of a value have a form. -/
theorem passes_sound : Passes fun found => ∀ token ∈ found, token.isSound = true where
  other _ sound all := List.forall_mem_cons.2 ⟨sound, all⟩
  number _ all := List.forall_mem_cons.2 ⟨rfl, all⟩

/-- The layouts of a value are the texts that are cut into its tokens. -/
theorem laidOut_iff {value : Json} : LaidOut value.spelling text ↔ tokens text = value.spelling :=
  ⟨tokens_of_laidOut, fun cut =>
    laidOut_of_tokens cut (passes_sound.alone (by simp) value)⟩

end CoroutineVM.Json
