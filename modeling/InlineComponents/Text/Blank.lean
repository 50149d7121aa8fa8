import InlineComponents.Text.Basic

/-!
# Blanks and trimming

A blank is a character with the Unicode property `White_Space`. Among them are the next-line
character, the no-break space and the ideographic space; the byte order mark and the zero-width
space are not blank.
-/

namespace InlineComponents.Text

/-- The property `White_Space`. -/
def isBlank (c : Char) : Bool :=
  (9 ≤ c.toNat && c.toNat ≤ 13) || c = ' ' || c = '\u0085' || c = '\u00a0' || c = '\u1680' ||
    (0x2000 ≤ c.toNat && c.toNat ≤ 0x200a) || c = '\u2028' || c = '\u2029' || c = '\u202f' ||
    c = '\u205f' || c = '\u3000'

/-- A space or a tab. -/
def isSpaceOrTab (c : Char) : Bool := c = ' ' || c = '\t'

/-- The text from its first character that is not blank. -/
def skipBlanks (text : Text) : Text := text.dropWhile isBlank

/-- The text without blanks at its end. -/
def trimEnd (text : Text) : Text := dropEndWhile isBlank text

/-- The text without blanks at either end. -/
def trim (text : Text) : Text := trimEnd (skipBlanks text)

/-- Whether the text is empty or blank throughout. -/
def isBlankText (text : Text) : Bool := text.all isBlank

/-- The rest of a text after at least one blank and all that follow it. -/
def skipSomeBlanks? : Text → Option Text
  | [] => none
  | c :: rest => if isBlank c then some (skipBlanks rest) else none

/-- Skipping blanks keeps an end of the text. -/
theorem skipBlanks_suffix (text : Text) : skipBlanks text <:+ text :=
  List.dropWhile_suffix _

/-- Nothing but the dropped end is lost. -/
theorem dropEndWhile_append_exists (p : Char → Bool) (text : Text) :
    ∃ tail, dropEndWhile p text ++ tail = text ∧ tail.all p = true := by
  induction text with
  | nil => exact ⟨[], rfl, rfl⟩
  | cons c rest ih =>
    obtain ⟨tail, happ, hall⟩ := ih
    simp only [dropEndWhile]
    split
    · rename_i hs
      rw [hs] at happ
      by_cases hc : p c
      · exact ⟨c :: tail, by simp_all, by simp_all⟩
      · exact ⟨tail, by simp_all, hall⟩
    · exact ⟨tail, by rw [List.cons_append, happ], hall⟩

end InlineComponents.Text
