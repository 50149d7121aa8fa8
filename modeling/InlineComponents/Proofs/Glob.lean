import InlineComponents.Glob
import Mathlib.Data.List.Forall2

/-!
# What a glob matches

A glob is matched by reading it and the text side by side, from left to right: each part of the glob
covers a stretch of the text. That is the meaning of a glob, and the search through the lists of
remainders finds it: a piece leaves over exactly the rests behind the stretches that it covers, and
the pieces of a glob are its parts in order.
-/

namespace InlineComponents

namespace Glob

/-! ### The meaning of a glob -/

/-- What a character counts as, in a glob and in an id: a backslash as a slash, any other as
itself. -/
inductive CountsAs : Char → Char → Prop where
  | backslash : CountsAs '\\' '/'
  | plain {c : Char} (h : c ≠ '\\') : CountsAs c c

/-- A text read with slashes for backslashes. -/
def ReadsAs (text slashed : Text) : Prop := List.Forall₂ CountsAs text slashed

/-- Nothing, or a text without a line feed that ends in a slash. -/
def IsFolders (front : Text) : Prop := front = [] ∨ '\n' ∉ front ∧ front.getLast? = some '/'

/-- A glob, without regard to its start, matches a whole text. -/
inductive Reads : Text → Text → Prop where
  /-- The empty glob matches the empty text. -/
  | nil : Reads [] []
  /-- Two stars and a slash stand for any folders. -/
  | folders {glob front rest : Text} (h : IsFolders front) :
    Reads glob rest → Reads ('*' :: '*' :: '/' :: glob) (front ++ rest)
  /-- Other two stars stand for any text without a line feed. -/
  | line {glob front rest : Text} (hglob : glob.head? ≠ some '/') (h : '\n' ∉ front) :
    Reads glob rest → Reads ('*' :: '*' :: glob) (front ++ rest)
  /-- A single star stands for any text without a slash. -/
  | star {glob front rest : Text} (hglob : glob.head? ≠ some '*') (h : '/' ∉ front) :
    Reads glob rest → Reads ('*' :: glob) (front ++ rest)
  /-- A question mark stands for a character other than a slash. -/
  | mark {glob rest : Text} {c : Char} (h : c ≠ '/') :
    Reads glob rest → Reads ('?' :: glob) (c :: rest)
  /-- Any other character stands for itself. -/
  | plain {glob rest : Text} {c : Char} (hstar : c ≠ '*') (hmark : c ≠ '?') :
    Reads glob rest → Reads (c :: glob) (c :: rest)

/-- A glob matches a text: as a whole, or behind some folders if the glob starts with neither a
slash nor two stars. -/
inductive Admits (glob text : Text) : Prop where
  | whole (h : Reads glob text)
  | within {front rest : Text} (hslash : ¬ ['/'] <+: glob) (hstars : ¬ ['*', '*'] <+: glob)
    (hfront : IsFolders front) (h : Reads glob rest) (htext : text = front ++ rest)

/-! ### What a piece covers -/

/-- The texts that a piece of a glob stands for. -/
def Covers : GlobPiece → Text → Prop
  | .literal c, front => front = [c]
  | .oneCharacter, front => ∃ c, c ≠ '/' ∧ front = [c]
  | .withinFolder, front => '/' ∉ front
  | .anything, front => '\n' ∉ front
  | .anyFolders, front => IsFolders front

/-- Folders are nothing, or a text without a line feed in front of a slash. -/
theorem isFolders_iff {front : Text} :
    IsFolders front ↔ front = [] ∨ ∃ folders, '\n' ∉ folders ∧ front = folders ++ ['/'] := by
  refine or_congr_right ⟨?_, ?_⟩
  · rintro ⟨hline, hlast⟩
    obtain ⟨folders, rfl⟩ := List.getLast?_eq_some_iff.mp hlast
    exact ⟨folders, fun h => hline (List.mem_append_left _ h), rfl⟩
  · rintro ⟨folders, hline, rfl⟩
    simp [hline]

/-- What is left over behind characters other than a given one. -/
theorem mem_leftovers_iff {stop : Char} {text rest : Text} :
    rest ∈ leftovers (· ≠ stop) text ↔ ∃ front, stop ∉ front ∧ text = front ++ rest := by
  induction text with
  | nil =>
    refine List.mem_singleton.trans ⟨?_, ?_⟩
    · rintro rfl
      exact ⟨[], List.not_mem_nil, rfl⟩
    · rintro ⟨front, -, htext⟩
      exact (List.append_eq_nil_iff.mp htext.symm).2
  | cons c text ih =>
    have hcons : rest ∈ leftovers (· ≠ stop) (c :: text) ↔
        rest = c :: text ∨ c ≠ stop ∧ rest ∈ leftovers (· ≠ stop) text := by
      rw [leftovers]
      split <;> simp_all
    rw [hcons, ih]
    constructor
    · rintro (rfl | ⟨hc, front, hfront, rfl⟩)
      · exact ⟨[], List.not_mem_nil, rfl⟩
      · exact ⟨c :: front, List.not_mem_cons_of_ne_of_not_mem hc.symm hfront, rfl⟩
    · rintro ⟨front, hfront, htext⟩
      cases front with
      | nil => exact .inl htext.symm
      | cons d front =>
        obtain ⟨rfl, rfl⟩ := List.cons.inj htext
        exact .inr ⟨(List.ne_of_not_mem_cons hfront).symm, front,
          List.not_mem_of_not_mem_cons hfront, rfl⟩

/-- What is left over behind a slash is left over with the slash by the characters in front of
it. -/
theorem mem_leftoversAfterSlash_iff {text rest : Text} :
    rest ∈ leftoversAfterSlash inLine text ↔ '/' :: rest ∈ leftovers inLine text := by
  induction text with
  | nil => simp [leftoversAfterSlash, leftovers]
  | cons c text ih =>
    rw [leftoversAfterSlash, leftovers, List.mem_cons]
    by_cases hslash : c = '/'
    · have hline : inLine '/' = true := rfl
      simp [hslash, hline, ih, eq_comm (a := rest)]
    · by_cases hline : inLine c = true <;> simp [hline, hslash, ih, eq_comm (a := '/')]

/-- What is left over behind one character other than a slash. -/
theorem mem_step_oneCharacter_iff {text rest : Text} :
    rest ∈ step .oneCharacter text ↔ ∃ c, c ≠ '/' ∧ text = [c] ++ rest := by
  cases text with
  | nil => simp [step]
  | cons d text =>
    have hcons : rest ∈ step .oneCharacter (d :: text) ↔ d ≠ '/' ∧ rest = text := by
      by_cases h : d = '/' <;> simp [step, h]
    rw [hcons]
    constructor
    · rintro ⟨h, rfl⟩
      exact ⟨d, h, rfl⟩
    · rintro ⟨c, h, htext⟩
      obtain ⟨rfl, rfl⟩ := List.cons.inj htext
      exact ⟨h, rfl⟩

/-- A piece leaves over what stands behind a stretch that it covers. -/
theorem mem_step_iff {piece : GlobPiece} {text rest : Text} :
    rest ∈ step piece text ↔ ∃ front, Covers piece front ∧ text = front ++ rest := by
  cases piece with
  | literal c =>
    cases text with
    | nil => simp [step, Covers]
    | cons d text => by_cases h : d = c <;> simp [step, Covers, h, eq_comm (a := rest)]
  | oneCharacter =>
    rw [mem_step_oneCharacter_iff]
    constructor
    · rintro ⟨c, hc, htext⟩
      exact ⟨[c], ⟨c, hc, rfl⟩, htext⟩
    · rintro ⟨front, ⟨c, hc, rfl⟩, htext⟩
      exact ⟨c, hc, htext⟩
  | withinFolder => exact mem_leftovers_iff
  | anything => exact mem_leftovers_iff
  | anyFolders =>
    rw [step, List.mem_cons, mem_leftoversAfterSlash_iff.trans mem_leftovers_iff]
    constructor
    · rintro (rfl | ⟨folders, hline, rfl⟩)
      · exact ⟨[], .inl rfl, rfl⟩
      · exact ⟨folders ++ ['/'], isFolders_iff.mpr (.inr ⟨folders, hline, rfl⟩), by simp⟩
    · rintro ⟨front, hfront, rfl⟩
      rcases isFolders_iff.mp hfront with rfl | ⟨folders, hline, rfl⟩
      · exact .inl rfl
      · exact .inr ⟨folders, hline, by simp⟩

/-- Pieces match a text when the first one covers a stretch at its front and the others match the
rest. -/
theorem matchesPieces_cons_iff {piece : GlobPiece} {pieces : List GlobPiece} {text : Text} :
    MatchesPieces (piece :: pieces) text ↔
      ∃ front rest, Covers piece front ∧ MatchesPieces pieces rest ∧ text = front ++ rest := by
  constructor
  · intro h
    cases h with
    | cons hstep hrest =>
      obtain ⟨front, hcovers, htext⟩ := mem_step_iff.mp hstep
      exact ⟨front, _, hcovers, hrest, htext⟩
  · rintro ⟨front, rest, hcovers, hrest, htext⟩
    exact .cons (mem_step_iff.mpr ⟨front, hcovers, htext⟩) hrest

/-! ### The pieces of a glob are its parts -/

/-- A text does not start with a character. -/
theorem head?_ne_some_iff {glob : Text} {c : Char} :
    glob.head? ≠ some c ↔ ∀ rest, glob = c :: rest → False := by
  simp [List.head?_eq_some_iff]

/-- What a glob matches is matched by its pieces. -/
theorem Reads.matchesPieces {glob text : Text} (h : Reads glob text) :
    MatchesPieces (piecesOf glob) text := by
  induction h with
  | nil => exact .nil
  | @folders glob front rest h _ ih =>
    rw [piecesOf]
    exact matchesPieces_cons_iff.mpr ⟨front, rest, h, ih, rfl⟩
  | @line glob front rest hglob h _ ih =>
    rw [piecesOf.eq_3 _ (head?_ne_some_iff.mp hglob)]
    exact matchesPieces_cons_iff.mpr ⟨front, rest, h, ih, rfl⟩
  | @star glob front rest hglob h _ ih =>
    have hstar := head?_ne_some_iff.mp hglob
    rw [piecesOf.eq_4 _ (fun _ heq => hstar _ heq) hstar]
    exact matchesPieces_cons_iff.mpr ⟨front, rest, h, ih, rfl⟩
  | @mark glob rest c h _ ih =>
    rw [piecesOf]
    exact matchesPieces_cons_iff.mpr ⟨[c], rest, ⟨c, h, rfl⟩, ih, rfl⟩
  | @plain glob rest c hstar hmark _ ih =>
    rw [piecesOf.eq_6 _ _ (fun _ hc => absurd hc hstar) (fun _ hc => absurd hc hstar) hstar hmark]
    exact matchesPieces_cons_iff.mpr ⟨[c], rest, rfl, ih, rfl⟩

/-- What the pieces of a glob match is matched by the glob. -/
theorem reads_of_matchesPieces {glob text : Text} (h : MatchesPieces (piecesOf glob) text) :
    Reads glob text := by
  fun_induction piecesOf glob generalizing text with
  | case1 =>
    cases h
    exact .nil
  | case2 glob ih =>
    obtain ⟨front, rest, hfront, hrest, rfl⟩ := matchesPieces_cons_iff.mp h
    exact .folders hfront (ih hrest)
  | case3 glob hslash ih =>
    obtain ⟨front, rest, hfront, hrest, rfl⟩ := matchesPieces_cons_iff.mp h
    exact .line (head?_ne_some_iff.mpr hslash) hfront (ih hrest)
  | case4 glob _ hstar ih =>
    obtain ⟨front, rest, hfront, hrest, rfl⟩ := matchesPieces_cons_iff.mp h
    exact .star (head?_ne_some_iff.mpr hstar) hfront (ih hrest)
  | case5 glob ih =>
    obtain ⟨front, rest, ⟨c, hc, rfl⟩, hrest, rfl⟩ := matchesPieces_cons_iff.mp h
    exact .mark hc (ih hrest)
  | case6 c glob _ _ hstar hmark ih =>
    obtain ⟨front, rest, rfl, hrest, rfl⟩ := matchesPieces_cons_iff.mp h
    exact .plain hstar hmark (ih hrest)

/-- A glob is tied to the start of the text when it starts with a slash or with two stars. -/
theorem isAnchored_iff {glob : Text} :
    isAnchored glob = true ↔ ['/'] <+: glob ∨ ['*', '*'] <+: glob := by
  rw [isAnchored, Bool.or_eq_true, Text.startsWith_iff, Text.startsWith_iff]

/-- A character counts as one other character only. -/
theorem countsAs_iff {c d : Char} : CountsAs c d ↔ (if c = '\\' then '/' else c) = d := by
  constructor
  · rintro (_ | hc)
    · rfl
    · exact if_neg hc
  · rintro rfl
    split
    · rename_i hc
      subst hc
      exact .backslash
    · rename_i hc
      exact .plain hc

/-- A text is read with slashes in one way only. -/
theorem readsAs_iff {text slashed : Text} : ReadsAs text slashed ↔ withSlashes text = slashed := by
  have hrel : CountsAs = fun c d => (if c = '\\' then '/' else c) = d :=
    funext₂ fun _ _ => propext countsAs_iff
  rw [ReadsAs, hrel, withSlashes, ← List.forall₂_eq_eq_eq, List.forall₂_map_left_iff]

/-- The search finds what the glob admits, once slashes are in place in it. -/
theorem matchesText_iff {glob text : Text} :
    matchesText glob text = true ↔ Admits (withSlashes glob) text := by
  rw [matchesText, matchesPieces_iff, compile]
  by_cases hanchored : isAnchored (withSlashes glob) = true
  · rw [if_pos hanchored]
    refine ⟨fun h => .whole (reads_of_matchesPieces h), fun h => ?_⟩
    cases h with
    | whole h => exact h.matchesPieces
    | within hslash hstars _ _ _ =>
      exact absurd (isAnchored_iff.mp hanchored) (not_or.mpr ⟨hslash, hstars⟩)
  · rw [if_neg hanchored, matchesPieces_cons_iff]
    obtain ⟨hslash, hstars⟩ := not_or.mp (mt isAnchored_iff.mpr hanchored)
    constructor
    · rintro ⟨front, rest, hfront, hrest, htext⟩
      exact .within hslash hstars hfront (reads_of_matchesPieces hrest) htext
    · intro h
      cases h with
      | whole h => exact ⟨[], text, .inl rfl, h.matchesPieces, rfl⟩
      | @within front rest _ _ hfront h htext =>
        exact ⟨front, rest, hfront, h.matchesPieces, htext⟩

/-! ### Slashes -/

/-- Without two stars in a row, a glob has as many slashes as a text that it matches. -/
theorem Reads.count_slash {glob text : Text} (h : Reads glob text)
    (hstars : ¬ ['*', '*'] <:+: glob) : text.count '/' = glob.count '/' := by
  induction h with
  | nil => rfl
  | folders _ _ _ => exact absurd ⟨[], _, rfl⟩ hstars
  | line _ _ _ _ => exact absurd ⟨[], _, rfl⟩ hstars
  | star _ hfront _ ih =>
    have hrest := ih fun hinfix => hstars (List.infix_cons hinfix)
    rw [List.count_append, List.count_eq_zero.mpr hfront, hrest, Nat.zero_add,
      List.count_cons_of_ne (by decide)]
  | mark hc _ ih =>
    have hrest := ih fun hinfix => hstars (List.infix_cons hinfix)
    rw [List.count_cons_of_ne hc, hrest, List.count_cons_of_ne (by decide)]
  | plain _ _ _ ih =>
    have hrest := ih fun hinfix => hstars (List.infix_cons hinfix)
    rw [List.count_cons, List.count_cons, hrest]

/-- A glob that starts with a slash matches nothing but whole texts. -/
theorem Admits.reads {glob text : Text} (h : Admits glob text) (hslash : ['/'] <+: glob) :
    Reads glob text := by
  cases h with
  | whole h => exact h
  | within hnot _ _ _ _ => exact absurd hslash hnot

end Glob

namespace PathFilter

/-- Whether one of the globs matches an id, where backslashes count as slashes. -/
def Matched (globs : List String) (id : String) : Prop :=
  ∃ glob ∈ globs, ∃ pattern text, Glob.ReadsAs glob.toList pattern ∧ Glob.ReadsAs id.toList text ∧
    Glob.Admits pattern text

/-- The search through the globs finds one that matches. -/
theorem any_matchesText_iff {globs : List String} {id : String} :
    (globs.any fun glob => Glob.matchesText glob.toList (Glob.withSlashes id.toList)) = true ↔
      Matched globs id := by
  rw [List.any_eq_true]
  refine exists_congr fun glob => and_congr_right fun _ => ?_
  simp only [Glob.readsAs_iff, exists_and_left, exists_eq_left', Glob.matchesText_iff]

/-- What a filter takes follows from what its globs mean. -/
structure FollowsGlobs (filter : PathFilter) : Prop where
  /-- The ids that are taken have no NUL, are matched by an included glob, unless there are none,
  and by no excluded one. -/
  accepts_iff : ∀ id, filter.accepts id = true ↔
    '\x00' ∉ id.toList ∧ (filter.included = [] ∨ Matched filter.included id) ∧
      ¬ Matched filter.excluded id
  /-- A glob that starts with a slash and has no two stars in a row matches only ids with as many
  slashes as it has. -/
  count_slash : ∀ glob ∈ filter.included ++ filter.excluded, ∀ pattern,
    Glob.ReadsAs glob.toList pattern → ['/'] <+: pattern → ¬ ['*', '*'] <:+: pattern →
    ∀ (id : String) (text : Text), Glob.ReadsAs id.toList text →
      Glob.matchesText glob.toList text = true → text.count '/' = pattern.count '/'

/-- Every filter follows the meaning of its globs. -/
theorem followsGlobs (filter : PathFilter) : filter.FollowsGlobs where
  accepts_iff id := by
    rw [accepts, Bool.and_eq_true, Bool.and_eq_true, Bool.or_eq_true, List.isEmpty_iff,
      any_matchesText_iff, Bool.not_eq_true', Bool.not_eq_true', ← Bool.not_eq_true,
      ← Bool.not_eq_true, any_matchesText_iff, List.contains_iff_mem, and_assoc]
  count_slash glob _ pattern hpattern hslash hstars id text _ h := by
    rw [Glob.matchesText_iff, Glob.readsAs_iff.mp hpattern] at h
    exact (h.reads hslash).count_slash hstars

/-- Backslashes count as slashes in an included glob, in an excluded one and in the ids. -/
theorem followsGlobs_of_backslashes :
    let filter : PathFilter := ⟨["src\\*.svelte"], ["/src\\a?.svelte"]⟩
    filter.FollowsGlobs ∧ filter.accepts "app\\src/x.svelte" = true ∧
      filter.accepts "\\src/ab.svelte" = false ∧ filter.accepts "src/lib\\x.svelte" = false :=
  ⟨followsGlobs _, by decide +kernel, by decide +kernel, by decide +kernel⟩

end PathFilter

end InlineComponents
