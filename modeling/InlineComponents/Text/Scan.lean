import InlineComponents.Text.Basic

/-!
# Scanning a text for phrases

A reader recognises one kind of phrase at the front of a text. A scan tries the reader at every
place from left to right, and goes on after the end of a phrase that it found, so that phrases
never overlap. The result is the text itself, cut into single characters and phrases.

The main statement is `sources_scan`: if the reader returns an end of what it is given, the cut
text is the text that was scanned.
-/

namespace InlineComponents.Text

/-- Recognises a phrase at the front of a text: what it says and the text after it. The flag tells
whether the front stands at the start of a line. -/
abbrev PhraseReader (α : Type) := (lineStart : Bool) → Text → Option (α × Text)

/-- One piece of a scanned text. -/
inductive Segment (α : Type) where
  | plain (c : Char)
  | phrase (text : Text) (value : α)
  deriving Repr, DecidableEq

namespace Segment

variable {α : Type}

/-- The text that the piece stands for. -/
def source : Segment α → Text
  | plain c => [c]
  | phrase text _ => text

/-- What the phrase says, if the piece is one. -/
def value? : Segment α → Option α
  | plain _ => none
  | phrase _ value => some value

/-- The text of the piece if it belongs to no phrase, and nothing otherwise. -/
def unclaimed : Segment α → Text
  | plain c => [c]
  | phrase _ _ => []

end Segment

variable {α : Type}

/-- Whether a place after this text is the start of a line. -/
def endsLine (text : Text) : Bool := text.getLast? == some '\n'

/-- Cut a text into its leftmost phrases, none overlapping another, and the characters between. -/
def scan (read : PhraseReader α) (lineStart : Bool) (text : Text) : List (Segment α) :=
  match text with
  | [] => []
  | c :: rest =>
    match read lineStart (c :: rest) with
    | some (value, after) =>
      if after.length < rest.length + 1 then
        let found := (c :: rest).take (rest.length + 1 - after.length)
        .phrase found value :: scan read (endsLine found) after
      else .plain c :: scan read (c == '\n') rest
    | none => .plain c :: scan read (c == '\n') rest
termination_by text.length

/-- The phrases of a whole text. -/
def scanAll (read : PhraseReader α) (text : Text) : List (Segment α) :=
  scan read true text

/-- The text that the pieces stand for together. -/
def sources (segments : List (Segment α)) : Text :=
  segments.flatMap Segment.source

/-- What the phrases say, in order. -/
def phraseValues (segments : List (Segment α)) : List α :=
  segments.filterMap Segment.value?

/-- The text without its phrases. -/
def withoutPhrases (segments : List (Segment α)) : Text :=
  segments.flatMap Segment.unclaimed

/-- A phrase at its place: the text before it, its own text and the text after it. -/
structure Located (α : Type) where
  before : Text
  text : Text
  after : Text
  value : α
  deriving Repr, DecidableEq

namespace Located

/-- The byte offset at which the phrase starts. -/
def start (place : Located α) : Nat := byteLength place.before

/-- The byte offset just after the phrase. -/
def stop (place : Located α) : Nat := byteLength place.before + byteLength place.text

/-- The same place in a text with more in front of it. -/
def shift (front : Text) (place : Located α) : Located α :=
  { place with before := front ++ place.before }

end Located

/-- Every phrase at its place. -/
def locations : List (Segment α) → List (Located α)
  | [] => []
  | .plain c :: rest => (locations rest).map (Located.shift [c])
  | .phrase text value :: rest =>
    ⟨[], text, sources rest, value⟩ :: (locations rest).map (Located.shift text)

/-- A reader keeps to its text when what it returns is an end of what it was given. -/
def KeepsSuffix (read : PhraseReader α) : Prop :=
  ∀ lineStart text value after, read lineStart text = some (value, after) → after <:+ text

/-- A scan loses nothing. -/
theorem sources_scan {read : PhraseReader α} (hread : KeepsSuffix read) (lineStart : Bool)
    (text : Text) : sources (scan read lineStart text) = text := by
  fun_induction scan read lineStart text with
  | case1 => rfl
  | case2 lineStart c rest value after hr hlt found ih =>
    obtain ⟨front, hfront⟩ := hread _ _ _ _ hr
    have hlen : rest.length + 1 - after.length = front.length := by
      have := congrArg List.length hfront
      simp at this
      omega
    have hfound : found = front := by
      simp only [found, hlen, ← hfront, List.take_left']
    simp only [sources, List.flatMap_cons, Segment.source] at ih ⊢
    rw [ih, hfound, hfront]
  | case3 lineStart c rest value after hr hlt ih =>
    simp only [sources, List.flatMap_cons, Segment.source] at ih ⊢
    rw [ih]; rfl
  | case4 lineStart c rest hr ih =>
    simp only [sources, List.flatMap_cons, Segment.source] at ih ⊢
    rw [ih]; rfl

/-- A located phrase together with its surroundings is the whole text. -/
theorem locations_split {segments : List (Segment α)} {place : Located α}
    (h : place ∈ locations segments) :
    place.before ++ place.text ++ place.after = sources segments := by
  induction segments generalizing place with
  | nil => simp [locations] at h
  | cons segment rest ih =>
    cases segment with
    | plain c =>
      simp only [locations, List.mem_map] at h
      obtain ⟨inner, hin, rfl⟩ := h
      have := ih hin
      simp_all [Located.shift, sources, Segment.source]
    | phrase text value =>
      simp only [locations, List.mem_cons, List.mem_map] at h
      rcases h with rfl | ⟨inner, hin, rfl⟩
      · simp [sources, Segment.source]
      · have := ih hin
        simp_all [Located.shift, sources, Segment.source]

end InlineComponents.Text
