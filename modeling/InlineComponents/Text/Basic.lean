/-!
# Texts

A text is a list of characters; every recogniser of this library is a recursion on it. Offsets
are counted in bytes of the UTF-8 encoding, and a place in a text is a way to split the text in
two, so that an offset is the byte length of what stands before the place.

The definitions are the cuts that the recognisers are built from: dropping a given word, trimming
the end, splitting at a character or at a word, and replacing a word. The statements say that
nothing is lost by a cut.
-/

namespace InlineComponents

/-- A text as the list of its characters. -/
abbrev Text := List Char

namespace Text

/-- The number of bytes of the UTF-8 encoding. -/
def byteLength : Text → Nat
  | [] => 0
  | c :: rest => c.utf8Size + byteLength rest

/-- The rest of a text after the given word, if the text starts with it. -/
def dropWord? : (word text : Text) → Option Text
  | [], text => some text
  | _ :: _, [] => none
  | w :: word, c :: text => if w = c then dropWord? word text else none

/-- Whether the text starts with the word. -/
def startsWith (word text : Text) : Bool :=
  (dropWord? word text).isSome

/-- Whether the word occurs in the text. -/
def occursIn (word : Text) : Text → Bool
  | [] => word.isEmpty
  | c :: rest => startsWith word (c :: rest) || occursIn word rest

/-- The text without the longest end that consists of the given characters. -/
def dropEndWhile (p : Char → Bool) : Text → Text
  | [] => []
  | c :: rest =>
    match dropEndWhile p rest with
    | [] => if p c then [] else [c]
    | kept => c :: kept

/-- The stretches between the separators; there is one more of them than separators. -/
def splitAll (separator : Char) : Text → List Text
  | [] => [[]]
  | c :: rest =>
    if c = separator then [] :: splitAll separator rest
    else match splitAll separator rest with
      | [] => [[c]]
      | piece :: pieces => (c :: piece) :: pieces

/-- The pieces one after the other with the separator between them. -/
def joinWith (separator : Text) : List Text → Text
  | [] => []
  | [piece] => piece
  | piece :: next :: rest => piece ++ separator ++ joinWith separator (next :: rest)

/-- The parts before and after the first occurrence of a non-empty word. -/
def splitFirst (word : Text) : Text → Option (Text × Text)
  | [] => none
  | c :: rest =>
    match dropWord? word (c :: rest) with
    | some after => some ([], after)
    | none => (splitFirst word rest).map fun (before, after) => (c :: before, after)

/-- The parts before and after the last occurrence of a non-empty word. -/
def splitLast (word : Text) : Text → Option (Text × Text)
  | [] => none
  | c :: rest =>
    match splitLast word rest with
    | some (before, after) => some (c :: before, after)
    | none => (dropWord? word (c :: rest)).map fun after => ([], after)

/-- Replacement from left to right, where the first `skip` characters belong to an occurrence
that is already replaced. An empty word occurs before every character and at the end. -/
def replaceFrom (word replacement : Text) : (skip : Nat) → Text → Text
  | 0, [] => if word.isEmpty then replacement else []
  | _ + 1, [] => []
  | skip + 1, _ :: rest => replaceFrom word replacement skip rest
  | 0, c :: rest =>
    if word.isEmpty then replacement ++ c :: replaceFrom word replacement 0 rest
    else if startsWith word (c :: rest) then
      replacement ++ replaceFrom word replacement (word.length - 1) rest
    else c :: replaceFrom word replacement 0 rest

/-- The text with every occurrence of the word replaced, from left to right without overlap. -/
def replaceAll (word replacement text : Text) : Text :=
  replaceFrom word replacement 0 text

/-- The empty text has no bytes. -/
@[simp] theorem byteLength_nil : byteLength [] = 0 := rfl

/-- Each character adds its encoded size. -/
@[simp] theorem byteLength_cons (c : Char) (text : Text) :
    byteLength (c :: text) = c.utf8Size + byteLength text := rfl

/-- Byte lengths add up. -/
@[simp] theorem byteLength_append (first second : Text) :
    byteLength (first ++ second) = byteLength first + byteLength second := by
  induction first with
  | nil => simp
  | cons c rest ih => simp [ih, Nat.add_assoc]

/-- Dropping a word succeeds exactly on the texts that start with it. -/
theorem dropWord?_eq_some_iff {word text rest : Text} :
    dropWord? word text = some rest ↔ text = word ++ rest := by
  induction word generalizing text with
  | nil => simp [dropWord?]
  | cons w word ih =>
    cases text with
    | nil => simp [dropWord?]
    | cons c text =>
      by_cases h : w = c
      · simp [dropWord?, h, ih]
      · simp [dropWord?, h, Ne.symm h]

/-- Dropping the word in front of a text gives that text. -/
@[simp] theorem dropWord?_append (word rest : Text) : dropWord? word (word ++ rest) = some rest :=
  dropWord?_eq_some_iff.mpr rfl

/-- A text starts with a word when it is the word and a rest. -/
theorem startsWith_iff {word text : Text} : startsWith word text = true ↔ word <+: text := by
  rw [startsWith, Option.isSome_iff_exists]
  exact exists_congr fun rest => dropWord?_eq_some_iff.trans eq_comm

/-- Splitting always leaves at least one piece. -/
theorem splitAll_ne_nil (separator : Char) (text : Text) : splitAll separator text ≠ [] := by
  cases text with
  | nil => simp [splitAll]
  | cons c rest =>
    simp only [splitAll]
    split
    · simp
    · split <;> simp

/-- Joining the stretches with the separator restores the text. -/
theorem joinWith_splitAll (separator : Char) (text : Text) :
    joinWith [separator] (splitAll separator text) = text := by
  induction text with
  | nil => rfl
  | cons c rest ih =>
    have hne := splitAll_ne_nil separator rest
    simp only [splitAll]
    split
    · rename_i hc
      match hs : splitAll separator rest with
      | [] => exact absurd hs hne
      | piece :: pieces => rw [hs] at ih; simp [joinWith, ih, hc]
    · match hs : splitAll separator rest with
      | [] => exact absurd hs hne
      | [piece] => rw [hs] at ih; simp_all [joinWith]
      | piece :: next :: pieces => rw [hs] at ih; simpa [joinWith] using ih

/-- A split at a word loses nothing. -/
theorem splitFirst_eq_some {word text before after : Text}
    (h : splitFirst word text = some (before, after)) : before ++ word ++ after = text := by
  induction text generalizing before after with
  | nil => simp [splitFirst] at h
  | cons c rest ih =>
    simp only [splitFirst] at h
    split at h
    · rename_i hd
      obtain ⟨rfl, rfl⟩ := by simpa using h
      simpa using (dropWord?_eq_some_iff.mp hd).symm
    · obtain ⟨⟨b, a⟩, hs, he⟩ := Option.map_eq_some_iff.mp h
      obtain ⟨rfl, rfl⟩ := by simpa using he
      simpa using ih hs

/-- A split at the last occurrence of a word loses nothing. -/
theorem splitLast_eq_some {word text before after : Text}
    (h : splitLast word text = some (before, after)) : before ++ word ++ after = text := by
  induction text generalizing before after with
  | nil => simp [splitLast] at h
  | cons c rest ih =>
    simp only [splitLast] at h
    split at h
    · rename_i b a hs
      obtain ⟨rfl, rfl⟩ := by simpa using h
      simpa using ih hs
    · obtain ⟨a, hd, he⟩ := Option.map_eq_some_iff.mp h
      obtain ⟨rfl, rfl⟩ := by simpa using he
      simpa using (dropWord?_eq_some_iff.mp hd).symm

end Text

end InlineComponents
