import InlineComponents.Json.Printer
import InlineComponents.Json.Reader
import InlineComponents.Script.Lexer

/-!
# Quoted texts

What may stand between the quotes of a literal, and the text that it spells. What is written for a
text spells that text. JSON texts and scripts have these literals in common: either reader takes one
up to its closing quote and no further, and decodes it to the text that it spells.
-/

namespace InlineComponents

namespace Text

/-- A hexadecimal digit is no control character, and its value is less than sixteen. -/
theorem hexDigit?_bounds {c : Char} {value : Nat} (h : hexDigit? c = some value) :
    48 ≤ c.toNat ∧ value < 16 := by
  have hle (d e : Char) : d ≤ e ↔ d.toNat ≤ e.toNat := by
    rw [Char.le_def, UInt32.le_iff_toNat_le]
    rfl
  unfold hexDigit? at h
  simp only [Bool.and_eq_true, decide_eq_true_eq, hle, Char.reduceToNat] at h
  split at h
  · have := Option.some.inj h
    omega
  · split at h
    · have := Option.some.inj h
      omega
    · split at h
      · have := Option.some.inj h
        omega
      · exact absurd h.symm (Option.some_ne_none value)

/-- Four hexadecimal digits are no control characters, and write a number of sixteen bits. -/
theorem hexUnit?_bounds {a b c d : Char} {point : Nat} (h : hexUnit? a b c d = some point) :
    (∀ digit ∈ [a, b, c, d], 48 ≤ digit.toNat) ∧ point < 65536 := by
  unfold hexUnit? at h
  obtain ⟨first, hfirst, h⟩ := Option.bind_eq_some_iff.mp h
  obtain ⟨second, hsecond, h⟩ := Option.bind_eq_some_iff.mp h
  obtain ⟨third, hthird, h⟩ := Option.bind_eq_some_iff.mp h
  obtain ⟨fourth, hfourth, h⟩ := Option.bind_eq_some_iff.mp h
  have hpoint := Option.some.inj h
  have hfirst := hexDigit?_bounds hfirst
  have hsecond := hexDigit?_bounds hsecond
  have hthird := hexDigit?_bounds hthird
  have hfourth := hexDigit?_bounds hfourth
  constructor
  · simp only [List.forall_mem_cons, List.not_mem_nil, false_imp_iff, implies_true, and_true]
    exact ⟨hfirst.1, hsecond.1, hthird.1, hfourth.1⟩
  · omega

end Text

open Text

namespace Json

/-- How a character stands between the quotes of a literal. Quotes, backslashes and control
characters below the space stand there only as what an escape stands for. -/
inductive StandsFor : (piece : Text) → Char → Prop
  /-- A character stands for itself. -/
  | plain {c : Char} (hquote : c ≠ '"') (hbackslash : c ≠ '\\') (hcontrol : 32 ≤ c.toNat) :
      StandsFor [c] c
  /-- A letter behind a backslash stands for a character. -/
  | letter {c meant : Char} (hletter : shortEscape? c = some meant) : StandsFor ['\\', c] meant
  /-- Four hexadecimal digits stand for a character that is no half of a pair. -/
  | unit {a b c d : Char} {point : Nat} (hunit : hexUnit? a b c d = some point)
      (hpoint : isSurrogate point = false) :
      StandsFor ['\\', 'u', a, b, c, d] (Char.ofNat point)

/-- What stands between the quotes of a literal, and the text that it spells. -/
inductive Spells : (content spelled : Text) → Prop
  | nil : Spells [] []
  | cons {piece content spelled : Text} {c : Char} (hpiece : StandsFor piece c)
      (h : Spells content spelled) : Spells (piece ++ content) (c :: spelled)

/-- What stands for a character is not empty. -/
theorem StandsFor.length_pos {piece : Text} {c : Char} (h : StandsFor piece c) :
    0 < piece.length := by
  cases h <;> exact Nat.succ_pos _

/-- No control character stands in a literal, not even as a part of an escape. -/
theorem StandsFor.le_toNat {piece : Text} {c : Char} (h : StandsFor piece c) :
    ∀ d ∈ piece, 32 ≤ d.toNat := by
  cases h with
  | plain _ _ hcontrol => exact List.forall_mem_singleton.mpr hcontrol
  | @letter d _ hletter =>
    have hd : 32 ≤ d.toNat := by
      unfold shortEscape? at hletter
      split at hletter
      case h_9 => contradiction
      all_goals decide
    exact List.forall_mem_cons.mpr ⟨by decide, List.forall_mem_singleton.mpr hd⟩
  | unit hunit _ =>
    have hdigits := (hexUnit?_bounds hunit).1
    refine List.forall_mem_cons.mpr ⟨by decide, List.forall_mem_cons.mpr ⟨by decide, ?_⟩⟩
    exact fun d hd => Nat.le_trans (by decide) (hdigits d hd)

/-- No control character stands in a literal. -/
theorem Spells.le_toNat {content spelled : Text} (h : Spells content spelled) :
    ∀ c ∈ content, 32 ≤ c.toNat := by
  induction h with
  | nil => exact List.forall_mem_nil _
  | cons hpiece _ ih => exact List.forall_mem_append.mpr ⟨hpiece.le_toNat, ih⟩

/-! ### Writing -/

/-- What is written for a character stands for it. -/
theorem standsFor_escapeChar (c : Char) : StandsFor (escapeChar c) c := by
  have hdigits : ∀ value < 16, hexDigit? (hexLetter value) = some value := by decide
  have hzero : hexDigit? '0' = some 0 := rfl
  unfold escapeChar
  split
  case h_8 hquote hbackslash _ _ _ _ _ =>
    split
    · rename_i hlow
      have hunit : hexUnit? '0' '0' (hexLetter (c.toNat / 16)) (hexLetter (c.toNat % 16)) =
          some c.toNat := by
        rw [hexUnit?, hzero, hdigits (c.toNat / 16) (by omega), hdigits _ (Nat.mod_lt _ (by omega))]
        change some _ = some _
        congr 1
        omega
      have hpoint : isSurrogate c.toNat = false := by
        simp only [isSurrogate, isHighSurrogate, isLowSurrogate, Bool.or_eq_false_iff,
          Bool.and_eq_false_iff, decide_eq_false_iff_not]
        omega
      have hstands := StandsFor.unit hunit hpoint
      rwa [Char.ofNat_toNat] at hstands
    · rename_i hhigh
      exact .plain hquote hbackslash (Nat.le_of_not_lt hhigh)
  all_goals exact .letter rfl

/-- What is written for a text spells it. -/
theorem spells_escape (text : Text) : Spells (escape text) text := by
  induction text with
  | nil => exact .nil
  | cons c rest ih => exact .cons (standsFor_escapeChar c) ih

/-! ### Reading JSON texts -/

/-- A character that stands for itself is read. -/
theorem readQuoted?_plain {c : Char} (hquote : c ≠ '"') (hbackslash : c ≠ '\\')
    (hcontrol : 32 ≤ c.toNat) (text : Text) :
    readQuoted? (c :: text) =
      (readQuoted? text).map fun (chars, after) => (c :: chars, after) := by
  have hraw : ¬ (decide (c.toNat < 32) || decide (c = '\\')) = true := by
    simpa [hbackslash] using hcontrol
  rw [readQuoted?.eq_def]
  split
  case h_6 heq =>
    obtain ⟨rfl, rfl⟩ := List.cons.inj heq
    rw [if_neg hraw]
  all_goals simp_all

/-- An escape of one letter is read. -/
theorem readQuoted?_letter {c meant : Char} (h : shortEscape? c = some meant) (text : Text) :
    readQuoted? ('\\' :: c :: text) =
      (readQuoted? text).map fun (chars, after) => (meant :: chars, after) := by
  unfold shortEscape? at h
  split at h
  case h_9 => contradiction
  all_goals
    obtain rfl := Option.some.inj h
    rfl

/-- An escape of four hexadecimal digits is read, whatever stands behind it. -/
theorem readQuoted?_unit {a b c d : Char} {point : Nat} (hunit : hexUnit? a b c d = some point)
    (hpoint : isSurrogate point = false) (text : Text) :
    readQuoted? ('\\' :: 'u' :: a :: b :: c :: d :: text) =
      (readQuoted? text).map fun (chars, after) => (Char.ofNat point :: chars, after) := by
  obtain ⟨hhigh, hlow⟩ := Bool.or_eq_false_iff.mp hpoint
  rw [readQuoted?.eq_def]
  split
  case h_5 hnone heq =>
    obtain ⟨rfl, rfl⟩ := List.cons.inj (List.cons.inj heq).2
    exact absurd rfl (hnone _ _ _ _ _ rfl)
  case h_6 hnone heq =>
    obtain ⟨rfl, rfl⟩ := List.cons.inj heq
    exact absurd rfl (hnone _ _ rfl)
  all_goals simp_all

/-- What stands for a character is read as that character. -/
theorem StandsFor.readQuoted?_append {piece : Text} {c : Char} (h : StandsFor piece c)
    (text : Text) : readQuoted? (piece ++ text) =
      (readQuoted? text).map fun (chars, after) => (c :: chars, after) := by
  cases h with
  | plain hquote hbackslash hcontrol => exact readQuoted?_plain hquote hbackslash hcontrol text
  | letter hletter => exact readQuoted?_letter hletter text
  | unit hunit hpoint => exact readQuoted?_unit hunit hpoint text

/-- A literal is read up to its closing quote. -/
theorem Spells.readQuoted?_append {content spelled : Text} (h : Spells content spelled)
    (rest : Text) : readQuoted? (content ++ '"' :: rest) = some (spelled, rest) := by
  induction h with
  | nil => rfl
  | cons hpiece _ ih =>
    rw [List.append_assoc, hpiece.readQuoted?_append, ih]
    rfl

/-- A quoted text is a JSON text, of the text that was quoted. -/
theorem parse?_quoteString (value : String) : parse? (quoteString value) = some (.string value) := by
  have hvalue : readValue? depthLimit (quote value.toList) = some (.string value, []) := by
    change (readQuoted? (escape value.toList ++ ['"'])).map _ = _
    rw [(spells_escape value.toList).readQuoted?_append [], Option.map_some]
    simp only [String.ofList_toList]
  have hstart : skipGap (quoteString value).toList = quote value.toList := by
    rw [quoteString, String.toList_ofList]
    rfl
  rw [parse?, hstart, hvalue]
  rfl

end Json

/-! ### Reading scripts -/

namespace Script

open Json

section

variable {fuel : Nat} {reversed : List Nat}

/-- A character that stands for itself is read. -/
theorem readStringFrom_plain {c : Char} (hquote : c ≠ '"') (hbackslash : c ≠ '\\')
    (hcontrol : 32 ≤ c.toNat) (text : Text) :
    readStringFrom '"' (fuel + 1) reversed (c :: text) =
      readStringFrom '"' fuel (c.toNat :: reversed) text := by
  have hend : c ≠ '\n' ∧ c ≠ '\r' := by
    constructor <;> (rintro rfl; contradiction)
  rw [readStringFrom.eq_def]
  simp only
  split
  case h_7 heq =>
    obtain ⟨rfl, rfl⟩ := List.cons.inj heq
    simp [hquote, hbackslash, hend]
  all_goals simp_all

/-- An escape of one letter is read. -/
theorem readStringFrom_letter {c meant : Char} (h : shortEscape? c = some meant) (text : Text) :
    readStringFrom '"' (fuel + 1) reversed ('\\' :: c :: text) =
      readStringFrom '"' fuel (meant.toNat :: reversed) text := by
  unfold shortEscape? at h
  split at h
  case h_9 => contradiction
  all_goals
    obtain rfl := Option.some.inj h
    rfl

/-- Four hexadecimal digits are read, whatever stands behind them. -/
theorem readQuotedPoint?_unit {a b c d : Char} {point : Nat} (hunit : hexUnit? a b c d = some point)
    (hpoint : isSurrogate point = false) (text : Text) :
    readQuotedPoint? (a :: b :: c :: d :: text) = some (point, text) := by
  obtain ⟨hhigh, -⟩ := Bool.or_eq_false_iff.mp hpoint
  have hsingle : readCodePoint? (a :: b :: c :: d :: text) = some (point, text) := by
    have hbrace : a ≠ '{' := by
      rintro rfl
      contradiction
    rw [readCodePoint?.eq_def]
    split
    case h_1 heq => exact absurd (List.cons.inj heq).1 hbrace
    case h_2 heq =>
      obtain ⟨rfl, rfl, rfl, rfl, rfl⟩ := by simpa using heq
      rw [hunit]
      rfl
    case h_3 hnone => exact absurd rfl (hnone a b c d text)
  rw [readQuotedPoint?.eq_def]
  split
  case h_1 heq =>
    obtain ⟨rfl, rfl, rfl, rfl, -⟩ := by simpa using heq
    rw [hunit]
    split
    · rename_i hsome _
      rw [← Option.some.inj hsome, hhigh]
      exact hsingle
    · exact hsingle
  case h_2 => exact hsingle

/-- An escape of four hexadecimal digits is read, whatever stands behind it. -/
theorem readStringFrom_unit {a b c d : Char} {point : Nat} (hunit : hexUnit? a b c d = some point)
    (hpoint : isSurrogate point = false) (text : Text) :
    readStringFrom '"' (fuel + 1) reversed ('\\' :: 'u' :: a :: b :: c :: d :: text) =
      readStringFrom '"' fuel ((Char.ofNat point).toNat :: reversed) text := by
  have hvalue : (Char.ofNat point).toNat = point := by
    have hlt := (hexUnit?_bounds hunit).2
    simp only [isSurrogate, isHighSurrogate, isLowSurrogate, Bool.or_eq_false_iff,
      Bool.and_eq_false_iff, decide_eq_false_iff_not] at hpoint
    have hvalid : point.isValidChar := by
      rw [Nat.isValidChar]
      omega
    rw [Char.ofNat, dif_pos hvalid]
    rfl
  have hread := readQuotedPoint?_unit hunit hpoint text
  rw [readStringFrom, hread, hvalue]

/-- A quoted string that is read to its end is one token. -/
theorem readToken_quote {text after : Text} {reversed : List Nat}
    (hread : readStringFrom '"' (text.length + 1) [] text = some (reversed, after)) :
    readToken ('"' :: text) = (.string reversed.reverse, after) := by
  have hdigit : '"'.isDigit = false := by decide
  simp [readToken, hdigit, hread]

end

end Script

namespace Json

open Script

/-- What stands for a character is read as that character. -/
theorem StandsFor.readStringFrom_append {piece : Text} {c : Char} (h : StandsFor piece c)
    (fuel : Nat) (reversed : List Nat) (text : Text) :
    readStringFrom '"' (fuel + 1) reversed (piece ++ text) =
      readStringFrom '"' fuel (c.toNat :: reversed) text := by
  cases h with
  | plain hquote hbackslash hcontrol => exact readStringFrom_plain hquote hbackslash hcontrol text
  | letter hletter => exact readStringFrom_letter hletter text
  | unit hunit hpoint => exact readStringFrom_unit hunit hpoint text

/-- A literal is read up to its closing quote, when there is fuel for each of its characters. -/
theorem Spells.readStringFrom_append {content spelled : Text} (h : Spells content spelled)
    (rest : Text) {fuel : Nat} (hfuel : content.length < fuel) (reversed : List Nat) :
    readStringFrom '"' fuel reversed (content ++ '"' :: rest) =
      some ((spelled.map Char.toNat).reverse ++ reversed, rest) := by
  induction h generalizing fuel reversed with
  | nil =>
    obtain ⟨fuel, rfl⟩ := Nat.exists_eq_add_one_of_ne_zero (Nat.ne_zero_of_lt hfuel)
    rfl
  | cons hpiece _ ih =>
    obtain ⟨fuel, rfl⟩ := Nat.exists_eq_add_one_of_ne_zero (Nat.ne_zero_of_lt hfuel)
    have hpos := hpiece.length_pos
    rw [List.length_append] at hfuel
    rw [List.append_assoc, hpiece.readStringFrom_append, ih (by omega), List.map_cons,
      List.reverse_cons, List.append_assoc, List.singleton_append]

/-- A script reads a literal as one token, with the characters that the literal spells. -/
theorem Spells.readToken_append {content spelled : Text} (h : Spells content spelled) (rest : Text) :
    readToken ('"' :: content ++ '"' :: rest) = (.string (spelled.map Char.toNat), rest) := by
  have hfuel : content.length < (content ++ '"' :: rest).length + 1 := by
    rw [List.length_append]
    omega
  have hread := h.readStringFrom_append rest hfuel []
  rw [List.cons_append, readToken_quote hread, List.append_nil, List.reverse_reverse]

end Json

end InlineComponents
