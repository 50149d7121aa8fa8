import InlineComponents.Text.Blank
import InlineComponents.Text.Identifier
import Mathlib.Data.List.DropRight

/-!
# Stretches at the front of a text

What dropping and taking a stretch of characters, skipping blanks and reading an identifier say
about the shape of a text. Every statement gives the text as a concatenation, so that a reader
built from these cuts is determined by the forms of the texts it accepts.
-/

namespace InlineComponents.Text

/-- Whether a text is empty or starts with a character of another kind. -/
def Stops (p : Char → Bool) (text : Text) : Prop := ∀ c ∈ text.head?, p c = false

/-- The empty text goes on with nothing. -/
@[simp] theorem stops_nil (p : Char → Bool) : Stops p [] := by
  intro c hc
  contradiction

/-- Only the first character counts. -/
@[simp] theorem stops_cons {p : Char → Bool} {c : Char} {rest : Text} :
    Stops p (c :: rest) ↔ p c = false := by
  simp [Stops]

/-- A stretch of one kind stops the other kinds. -/
theorem Stops.append {p q : Char → Bool} {front back : Text} (hfront : front.all q = true)
    (hpq : ∀ c, q c = true → p c = false) (hback : Stops p back) : Stops p (front ++ back) := by
  cases front with
  | nil => exact hback
  | cons c rest => exact stops_cons.mpr (hpq c (List.all_eq_true.mp hfront c List.mem_cons_self))

/-- A stretch that is not empty stops the other kinds, whatever stands behind it. -/
theorem Stops.of_stretch {p q : Char → Bool} {front : Text} (hne : front ≠ [])
    (hfront : front.all q = true) (hpq : ∀ c, q c = true → p c = false) (back : Text) :
    Stops p (front ++ back) := by
  obtain ⟨c, rest, rfl⟩ := List.exists_cons_of_ne_nil hne
  exact stops_cons.mpr (hpq c (List.all_eq_true.mp hfront c List.mem_cons_self))

/-- A stretch ends where the text behind it does not go on. -/
theorem dropWhile_stretch {p : Char → Bool} {front back : Text} (hfront : front.all p = true)
    (hback : Stops p back) : (front ++ back).dropWhile p = back := by
  rw [List.dropWhile_append_of_pos (List.all_eq_true.mp hfront)]
  cases back with
  | nil => rfl
  | cons c rest => simp [stops_cons.mp hback]

/-- A stretch is taken as far as it goes. -/
theorem takeWhile_stretch {p : Char → Bool} {front back : Text} (hfront : front.all p = true)
    (hback : Stops p back) : (front ++ back).takeWhile p = front := by
  rw [List.takeWhile_append_of_pos (List.all_eq_true.mp hfront)]
  cases back with
  | nil => simp
  | cons c rest => simp [stops_cons.mp hback]

/-- Behind a dropped stretch stands a character that does not belong to it. -/
theorem stops_dropWhile {p : Char → Bool} {text : Text} :
    Stops p (text.dropWhile p) := by
  intro c hc
  have := List.head?_dropWhile_not p text
  rw [Option.mem_def.mp hc] at this
  exact this

/-- Every text is a stretch and a rest that does not go on with it. -/
theorem exists_stretch (p : Char → Bool) (text : Text) :
    ∃ front back, text = front ++ back ∧ front.all p = true ∧ Stops p back :=
  ⟨text.takeWhile p, text.dropWhile p, List.takeWhile_append_dropWhile.symm,
    List.all_takeWhile, stops_dropWhile⟩

/-- A kind of which a text holds no character is none of its characters. -/
theorem eq_false_of_any {p : Char → Bool} {text : Text} (h : text.any p = false) :
    ∀ c ∈ text, p c = false := by
  intro c hc
  rw [← Bool.not_eq_true]
  exact List.any_eq_false.mp h c hc

/-- Two cuts of a text before the first place of a character are one cut. -/
theorem cut_unique {c : Char} {front back front' back' : Text} (hfront : c ∉ front)
    (hfront' : c ∉ front') (h : front ++ c :: back = front' ++ c :: back') :
    front = front' ∧ back = back' := by
  have htake (rest : Text) {text : Text} (htext : c ∉ text) :
      (text ++ c :: rest).takeWhile (· ≠ c) = text :=
    takeWhile_stretch (List.all_eq_true.mpr fun d hd => by
      simpa using fun hdc : d = c => htext (hdc ▸ hd)) (by simp)
  have hsame : front = front' := by rw [← htake back hfront, h, htake back' hfront']
  subst hsame
  exact ⟨rfl, (List.cons.inj (List.append_cancel_left h)).2⟩

/-- A place of a character lies behind a text that does not hold it. -/
theorem cut_behind {c : Char} {lead rest front back : Text} (hlead : c ∉ lead)
    (h : lead ++ rest = front ++ c :: back) :
    ∃ left, front = lead ++ left ∧ rest = left ++ c :: back := by
  rcases List.append_eq_append_iff.mp h with ⟨left, rfl, hrest⟩ | ⟨left, rfl, hback⟩
  · exact ⟨left, rfl, hrest⟩
  · cases left with
    | nil => exact ⟨[], by simp, by simpa using hback.symm⟩
    | cons d left =>
      obtain ⟨rfl, -⟩ := List.cons.inj hback
      exact absurd (List.mem_append_right front List.mem_cons_self) hlead

/-- A part of a blank text is blank. -/
theorem isBlankText_append {front back : Text} :
    isBlankText (front ++ back) = true ↔ isBlankText front = true ∧ isBlankText back = true := by
  simp [isBlankText]

/-- The empty text is blank. -/
theorem isBlankText_nil : isBlankText [] = true := rfl

/-- A space is blank. -/
theorem isBlankText_space : isBlankText [' '] = true := rfl

/-- No blank text holds a character that is not blank. -/
theorem not_mem_of_isBlankText {text : Text} {c : Char} (hc : isBlank c = false)
    (h : isBlankText text = true) : c ∉ text := by
  intro hmem
  rw [List.all_eq_true.mp h c hmem] at hc
  contradiction

/-- Spaces and tabs are blank, and none of them is a dot. -/
theorem isBlankText_of_spaces {text : Text} (h : text.all isSpaceOrTab = true) :
    isBlankText text = true ∧ '.' ∉ text := by
  refine ⟨List.all_eq_true.mpr fun c hc => ?_, fun hmem =>
    absurd (List.all_eq_true.mp h _ hmem) (by decide)⟩
  have := List.all_eq_true.mp h c hc
  simp only [isSpaceOrTab, Bool.or_eq_true, decide_eq_true_eq] at this
  rcases this with rfl | rfl <;> decide

/-- Blanks are skipped up to a character that is none. -/
theorem skipBlanks_stretch {front back : Text} (hfront : isBlankText front = true)
    (hback : Stops isBlank back) : skipBlanks (front ++ back) = back :=
  dropWhile_stretch hfront hback

/-- What skipping leaves, and what it skips. -/
theorem skipBlanks_eq_iff {text rest : Text} :
    skipBlanks text = rest ↔
      (∃ front, isBlankText front = true ∧ text = front ++ rest) ∧
        Stops isBlank rest := by
  constructor
  · rintro rfl
    exact ⟨⟨text.takeWhile isBlank, List.all_takeWhile,
      List.takeWhile_append_dropWhile.symm⟩, stops_dropWhile⟩
  · rintro ⟨⟨front, hfront, rfl⟩, hrest⟩
    exact skipBlanks_stretch hfront hrest

/-- What is left after at least one blank. -/
theorem skipSomeBlanks?_eq_some_iff {text rest : Text} :
    skipSomeBlanks? text = some rest ↔
      (∃ front, isBlankText front = true ∧ front ≠ [] ∧ text = front ++ rest) ∧
        Stops isBlank rest := by
  cases text with
  | nil =>
    simp only [skipSomeBlanks?, reduceCtorEq, false_iff, not_and]
    rintro ⟨front, -, hne, happ⟩
    exact absurd (List.append_eq_nil_iff.mp happ.symm).1 hne
  | cons c tail =>
    by_cases hc : isBlank c = true
    · simp only [skipSomeBlanks?, hc, ↓reduceIte, Option.some.injEq, skipBlanks_eq_iff]
      refine and_congr_left fun _ => ⟨?_, ?_⟩
      · rintro ⟨front, hfront, rfl⟩
        exact ⟨c :: front, by simpa [isBlankText, hc] using hfront, List.cons_ne_nil c front, rfl⟩
      · rintro ⟨front, hfront, hne, happ⟩
        obtain ⟨d, front, rfl⟩ := List.exists_cons_of_ne_nil hne
        obtain ⟨rfl, rfl⟩ := List.cons.inj happ
        rw [isBlankText, List.all_cons, Bool.and_eq_true] at hfront
        exact ⟨front, hfront.2, rfl⟩
    · simp only [skipSomeBlanks?, hc, Bool.false_eq_true, ↓reduceIte, reduceCtorEq, false_iff,
        not_and]
      rintro ⟨front, hfront, hne, happ⟩
      obtain ⟨d, front, rfl⟩ := List.exists_cons_of_ne_nil hne
      obtain ⟨rfl, -⟩ := List.cons.inj happ
      exact absurd (List.all_eq_true.mp hfront c List.mem_cons_self) hc

/-- The letters are those in upper and those in lower case. -/
theorem isAlpha_eq (c : Char) : c.isAlpha = (c.isUpper || c.isLower) := rfl

/-- The letters in upper case stand in one row. -/
theorem isUpper_eq (c : Char) : c.isUpper = decide (c.val ≥ 'A'.val ∧ c.val ≤ 'Z'.val) := rfl

/-- The letters in lower case stand in one row. -/
theorem isLower_eq (c : Char) : c.isLower = (c.val ≥ 'a'.val && c.val ≤ 'z'.val) := rfl

/-- A character of an identifier is no blank. -/
theorem isBlank_of_isPlainCharacter {c : Char} (h : isPlainCharacter c = true) :
    isBlank c = false := by
  have hrange : 36 ≤ c.toNat ∧ c.toNat ≤ 122 := by
    change 36 ≤ c.val.toNat ∧ c.val.toNat ≤ 122
    simp only [isPlainCharacter, Char.isAlphanum, isAlpha_eq, isUpper_eq, isLower_eq,
      Char.isDigit, Bool.or_eq_true, Bool.and_eq_true, decide_eq_true_eq, ge_iff_le,
      UInt32.le_iff_toNat_le, Char.reduceVal, UInt32.reduceToNat] at h
    rcases h with (((h | h) | h) | rfl) | rfl
    · omega
    · omega
    · omega
    · exact ⟨by decide, by decide⟩
    · exact ⟨by decide, by decide⟩
  have hlow : ¬ c.toNat ≤ 13 := by omega
  have hhigh : ¬ 0x2000 ≤ c.toNat := by omega
  rw [← Bool.not_eq_true]
  simp only [isBlank, Bool.or_eq_true, Bool.and_eq_true, decide_eq_true_eq, hlow, hhigh, and_false,
    false_and, false_or, or_false]
  rintro ((((((((rfl | rfl) | rfl) | rfl) | rfl) | rfl) | rfl) | rfl) | rfl) <;>
    exact absurd hrange (by decide)

/-- A blank stands in no identifier. -/
theorem isPlainCharacter_of_isBlank {c : Char} (h : isBlank c = true) :
    isPlainCharacter c = false := by
  cases hc : isPlainCharacter c with
  | false => rfl
  | true => rw [isBlank_of_isPlainCharacter hc] at h; contradiction

/-- A character that starts an identifier may stand in one. -/
theorem isPlainCharacter_of_isPlainStart {c : Char} (h : isPlainStart c = true) :
    isPlainCharacter c = true := by
  simp only [isPlainStart, isPlainCharacter, Char.isAlphanum, Bool.or_eq_true] at h ⊢
  rcases h with (h | h) | h
  · exact Or.inl (Or.inl (Or.inl h))
  · exact Or.inl (Or.inr h)
  · exact Or.inr h

/-- An identifier starts with a character for it, and all its characters may stand in one. -/
theorem isPlainIdentifier_iff {name : Text} :
    isPlainIdentifier name = true ↔
      (∃ c rest, name = c :: rest ∧ isPlainStart c = true) ∧
        name.all isPlainCharacter = true := by
  cases name with
  | nil => simp [isPlainIdentifier]
  | cons c rest =>
    simp only [isPlainIdentifier, Bool.and_eq_true, List.all_cons, List.cons.injEq]
    constructor
    · rintro ⟨hc, hrest⟩
      exact ⟨⟨c, rest, ⟨rfl, rfl⟩, hc⟩, isPlainCharacter_of_isPlainStart hc, hrest⟩
    · rintro ⟨⟨d, tail, ⟨rfl, rfl⟩, hc⟩, -, hrest⟩
      exact ⟨hc, hrest⟩

/-- An identifier is not empty. -/
theorem ne_nil_of_isPlainIdentifier {name : Text} (h : isPlainIdentifier name = true) :
    name ≠ [] := by
  rintro rfl
  contradiction

/-- Reading an identifier takes the longest one at the front. -/
theorem readPlainIdentifier?_eq_some_iff {text name rest : Text} :
    readPlainIdentifier? text = some (name, rest) ↔
      isPlainIdentifier name = true ∧ text = name ++ rest ∧
        Stops isPlainCharacter rest := by
  cases text with
  | nil =>
    simp only [readPlainIdentifier?, reduceCtorEq, false_iff, not_and]
    intro hname happ
    obtain rfl := (List.append_eq_nil_iff.mp happ.symm).1
    simp [isPlainIdentifier] at hname
  | cons c tail =>
    constructor
    · intro h
      simp only [readPlainIdentifier?] at h
      split at h
      · rename_i hc
        obtain ⟨rfl, rfl⟩ := by simpa using h
        exact ⟨by simp [isPlainIdentifier, hc], by simp, stops_dropWhile⟩
      · contradiction
    · rintro ⟨hname, happ, hrest⟩
      cases name with
      | nil => simp [isPlainIdentifier] at hname
      | cons d name =>
        rw [List.cons_append] at happ
        obtain ⟨rfl, rfl⟩ := List.cons.inj happ
        simp only [isPlainIdentifier, Bool.and_eq_true] at hname
        simp only [readPlainIdentifier?, hname.1, ↓reduceIte]
        rw [takeWhile_stretch hname.2 hrest, dropWhile_stretch hname.2 hrest]

/-- A text is tight when it neither starts nor ends with a blank. -/
structure Tight (text : Text) : Prop where
  first : Stops isBlank text
  last : Stops isBlank text.reverse

/-- A text whose characters are no blanks is tight. -/
theorem tight_of_forall {text : Text} (h : ∀ c ∈ text, isBlank c = false) : Tight text := by
  refine ⟨fun c hc => h c (List.mem_of_head? hc), fun c hc => ?_⟩
  exact h c (List.mem_reverse.mp (List.mem_of_head? hc))

/-- A text that starts like a tight one and ends like a tight one is tight. -/
theorem Tight.append {front middle back : Text} (hfront : Tight front) (hback : Tight back)
    (hfrontne : front ≠ []) (hbackne : back ≠ []) : Tight (front ++ (middle ++ back)) := by
  obtain ⟨c, front, rfl⟩ := List.exists_cons_of_ne_nil hfrontne
  obtain ⟨d, rest, hd⟩ : ∃ d rest, back.reverse = d :: rest :=
    List.exists_cons_of_ne_nil (by simpa using hbackne)
  refine ⟨stops_cons.mpr (stops_cons.mp hfront.first), ?_⟩
  have hlast := hback.last
  rw [List.reverse_append, List.reverse_append, hd]
  rw [hd] at hlast
  exact stops_cons.mpr (stops_cons.mp hlast)

/-- A stretch at the end is dropped up to a character of another kind. -/
theorem dropEndWhile_stretch {p : Char → Bool} {front back : Text} (hback : back.all p = true)
    (hfront : Stops p front.reverse) : dropEndWhile p (front ++ back) = front := by
  induction front with
  | nil =>
    induction back with
    | nil => rfl
    | cons c rest ih =>
      rw [List.all_cons, Bool.and_eq_true] at hback
      have hrest : dropEndWhile p rest = [] := ih hback.2
      simp [dropEndWhile, hrest, hback.1]
  | cons c rest ih =>
    cases rest with
    | nil =>
      have hc : p c = false := stops_cons.mp hfront
      have hnil : dropEndWhile p back = [] := ih (stops_nil p)
      simp [dropEndWhile, hnil, hc]
    | cons d rest =>
      have hrest : Stops p (d :: rest).reverse := by
        obtain ⟨e, tail, he⟩ : ∃ e tail, (d :: rest).reverse = e :: tail :=
          List.exists_cons_of_ne_nil (by simp)
        rw [List.reverse_cons, he] at hfront
        rw [he]
        exact stops_cons.mpr (stops_cons.mp hfront)
      rw [List.cons_append, dropEndWhile, ih hrest]

/-- The blanks at the end of a tight text are trimmed. -/
theorem trimEnd_stretch {text blanks : Text} (htext : Tight text)
    (hblanks : isBlankText blanks = true) : trimEnd (text ++ blanks) = text :=
  dropEndWhile_stretch hblanks htext.last

/-- The blanks around a tight text are trimmed. -/
theorem trim_stretch {front text back : Text} (hfront : isBlankText front = true)
    (htext : Tight text) (hne : text ≠ []) (hback : isBlankText back = true) :
    trim (front ++ (text ++ back)) = text := by
  obtain ⟨c, rest, rfl⟩ := List.exists_cons_of_ne_nil hne
  have hskip : skipBlanks (front ++ (c :: rest ++ back)) = c :: rest ++ back :=
    skipBlanks_stretch hfront (stops_cons.mpr (stops_cons.mp htext.first))
  rw [trim, hskip, trimEnd_stretch htext hback]

/-- A tight text is trimmed already. -/
theorem trim_of_tight {text : Text} (h : Tight text) : trim text = text := by
  rw [trim, show skipBlanks text = text from skipBlanks_stretch isBlankText_nil h.first]
  have := trimEnd_stretch h isBlankText_nil
  rwa [List.append_nil] at this

/-- A text without the separator is one piece. -/
theorem splitAll_of_not_mem {separator : Char} {text : Text} (h : separator ∉ text) :
    splitAll separator text = [text] := by
  induction text with
  | nil => rfl
  | cons c rest ih =>
    rw [List.mem_cons, not_or] at h
    simp [splitAll, Ne.symm h.1, ih h.2]

/-- A piece without the separator is split off in front of it. -/
theorem splitAll_append {separator : Char} {front : Text} (h : separator ∉ front) (back : Text) :
    splitAll separator (front ++ separator :: back) = front :: splitAll separator back := by
  induction front with
  | nil => simp [splitAll]
  | cons c rest ih =>
    rw [List.mem_cons, not_or] at h
    rw [List.cons_append, splitAll, ih h.2]
    simp [Ne.symm h.1]

/-- A word is not found in a text that lacks one of its characters. -/
theorem splitFirst_of_not_mem {c : Char} {word text : Text} (h : c ∉ text) :
    splitFirst (c :: word) text = none := by
  induction text with
  | nil => rfl
  | cons d rest ih =>
    rw [List.mem_cons, not_or] at h
    simp [splitFirst, dropWord?, h.1, ih h.2]

/-- A word is found right behind a text that lacks its first character. -/
theorem splitFirst_append {c : Char} {word front : Text} (h : c ∉ front) (back : Text) :
    splitFirst (c :: word) (front ++ (c :: word ++ back)) = some (front, back) := by
  induction front with
  | nil =>
    rw [List.nil_append, List.cons_append, splitFirst, ← List.cons_append, dropWord?_append]
  | cons d rest ih =>
    rw [List.mem_cons, not_or] at h
    have hword : dropWord? (c :: word) (d :: (rest ++ (c :: word ++ back))) = none := by
      simp [dropWord?, h.1]
    rw [List.cons_append, splitFirst, hword, ih h.2]
    rfl

/-- Where no word is split off, it does not occur. -/
theorem ne_append_of_splitFirst {word text : Text} (hword : word ≠ [])
    (h : splitFirst word text = none) (front back : Text) : text ≠ front ++ (word ++ back) := by
  induction text generalizing front with
  | nil => simp [hword]
  | cons c rest ih =>
    rw [splitFirst] at h
    split at h
    · contradiction
    · rename_i hnone
      rintro heq
      cases front with
      | nil => rw [heq, List.nil_append, dropWord?_append] at hnone; contradiction
      | cons d front =>
        exact ih (Option.map_eq_none_iff.mp h) front (List.cons.inj heq).2

/-- Where no last word is split off, it does not occur. -/
theorem ne_append_of_splitLast {word text : Text} (hword : word ≠ [])
    (h : splitLast word text = none) (front back : Text) : text ≠ front ++ (word ++ back) := by
  induction text generalizing front with
  | nil => simp [hword]
  | cons c rest ih =>
    rw [splitLast] at h
    split at h
    · contradiction
    · rename_i hnone
      rintro heq
      cases front with
      | nil => rw [heq, List.nil_append, dropWord?_append] at h; contradiction
      | cons d front => exact ih hnone front (List.cons.inj heq).2

/-- Nothing is split off exactly where the character is missing. -/
theorem splitLast_eq_none_iff {c : Char} {text : Text} :
    splitLast [c] text = none ↔ c ∉ text := by
  induction text with
  | nil => simp [splitLast]
  | cons d rest ih =>
    rw [splitLast, List.mem_cons, not_or, ← ih]
    cases splitLast [c] rest with
    | some found => simp
    | none => simp [dropWord?]

/-- The last place of a character is where it is missing behind. -/
theorem splitLast_eq_some_iff {c : Char} {text before after : Text} :
    splitLast [c] text = some (before, after) ↔ text = before ++ c :: after ∧ c ∉ after := by
  constructor
  · intro h
    refine ⟨by simpa using (splitLast_eq_some h).symm, ?_⟩
    induction text generalizing before after with
    | nil => simp [splitLast] at h
    | cons d rest ih =>
      rw [splitLast] at h
      split at h
      · rename_i front back hrest
        obtain ⟨-, rfl⟩ := Prod.mk.inj (Option.some.inj h)
        exact ih hrest
      · rename_i hnone
        obtain ⟨behind, hbehind, heq⟩ := Option.map_eq_some_iff.mp h
        obtain ⟨-, rfl⟩ := Prod.mk.inj heq
        obtain ⟨-, rfl⟩ := List.cons.inj (dropWord?_eq_some_iff.mp hbehind)
        exact splitLast_eq_none_iff.mp hnone
  · rintro ⟨rfl, hafter⟩
    induction before with
    | nil =>
      rw [List.nil_append, splitLast, splitLast_eq_none_iff.mpr hafter]
      simp [dropWord?]
    | cons d rest ih => rw [List.cons_append, splitLast, ih]

/-- What is dropped at the end of a text is the longest end of the given characters. -/
theorem dropEndWhile_eq_rdropWhile (p : Char → Bool) (text : Text) :
    dropEndWhile p text = text.rdropWhile p := by
  have hback : (text.rtakeWhile p).all p = true :=
    List.all_eq_true.mpr fun c hc => List.mem_rtakeWhile_imp hc
  have hfront : Stops p (text.rdropWhile p).reverse := by
    rw [List.rdropWhile, List.reverse_reverse]
    exact stops_dropWhile
  rw [← dropEndWhile_stretch hback hfront, List.rdropWhile_append_rtakeWhile]

/-- A text is trimmed away exactly when it is blank. -/
theorem trim_eq_nil_iff {text : Text} : trim text = [] ↔ ∀ c ∈ text, isBlank c = true := by
  constructor
  · intro h
    obtain ⟨tail, happ, htail⟩ := dropEndWhile_append_exists isBlank (skipBlanks text)
    change trim text ++ tail = skipBlanks text at happ
    rw [h, List.nil_append] at happ
    have htext : text = text.takeWhile isBlank ++ tail := by
      rw [happ]
      exact List.takeWhile_append_dropWhile.symm
    intro c hc
    rw [htext, List.mem_append] at hc
    rcases hc with hc | hc
    · exact List.all_eq_true.mp List.all_takeWhile c hc
    · exact List.all_eq_true.mp htail c hc
  · intro h
    have hskip : skipBlanks (text ++ []) = [] :=
      skipBlanks_stretch (List.all_eq_true.mpr h) (stops_nil isBlank)
    rw [List.append_nil] at hskip
    rw [trim, hskip]
    rfl

/-- Something is left of a text that holds more than blanks. -/
theorem trim_ne_nil_iff {text : Text} : trim text ≠ [] ↔ ∃ c ∈ text, isBlank c = false := by
  rw [ne_eq, trim_eq_nil_iff]
  simp only [Classical.not_forall, Bool.not_eq_true, exists_prop]

/-- The end of a text is trimmed behind a character that is no blank. -/
theorem trimEnd_cons {c : Char} (hc : isBlank c = false) (rest : Text) :
    trimEnd (c :: rest) = c :: trimEnd rest := by
  unfold trimEnd
  rw [dropEndWhile]
  split
  · rename_i hnil
    rw [hnil, hc]
    rfl
  · rfl

/-- The characters of the pieces are those of the text without the separators. -/
theorem exists_mem_splitAll_iff {separator c : Char} {text : Text} :
    (∃ piece ∈ splitAll separator text, c ∈ piece) ↔ c ∈ text ∧ c ≠ separator := by
  induction text with
  | nil => simp [splitAll]
  | cons d rest ih =>
    rw [splitAll]
    by_cases hd : d = separator
    · subst hd
      simp only [↓reduceIte, List.mem_cons, exists_eq_or_imp, List.not_mem_nil, false_or]
      rw [ih]
      constructor
      · rintro ⟨hc, hne⟩
        exact ⟨Or.inr hc, hne⟩
      · rintro ⟨rfl | hc, hne⟩
        · contradiction
        · exact ⟨hc, hne⟩
    · cases hsplit : splitAll separator rest with
      | nil => exact absurd hsplit (splitAll_ne_nil separator rest)
      | cons piece pieces =>
        rw [hsplit] at ih
        simp only [hd, ↓reduceIte, List.mem_cons, exists_eq_or_imp] at ih ⊢
        rw [or_assoc, ih]
        constructor
        · rintro (rfl | ⟨hc, hne⟩)
          · exact ⟨Or.inl rfl, hd⟩
          · exact ⟨Or.inr hc, hne⟩
        · rintro ⟨rfl | hc, hne⟩
          · exact Or.inl rfl
          · exact Or.inr ⟨hc, hne⟩

/-- Pieces are split off at every separator. -/
theorem splitAll_append_cons (separator : Char) (front back : Text) :
    splitAll separator (front ++ separator :: back) =
      splitAll separator front ++ splitAll separator back := by
  induction front with
  | nil => simp [splitAll]
  | cons c rest ih =>
    rw [List.cons_append, splitAll, splitAll, ih]
    split
    · rfl
    · cases hrest : splitAll separator rest with
      | nil => exact absurd hrest (splitAll_ne_nil separator rest)
      | cons piece pieces => rfl

/-- A piece of a text has no other characters. -/
theorem not_mem_of_mem_splitAll {separator c : Char} {text piece : Text} (hc : c ∉ text)
    (h : piece ∈ splitAll separator text) : c ∉ piece :=
  fun hmem => hc (exists_mem_splitAll_iff.mp ⟨piece, h, hmem⟩).1

end InlineComponents.Text
