import InlineComponents.Proofs.Text.Spans

/-!
# Whole words

A word of identifier characters is found in a code exactly when it is one of the maximal runs of
such characters. The search passes over occurrences that overlap an earlier one, and misses nothing
by it: what it passes over starts behind a character of the word, so it is no run.

The runs are computed as the stretches that the other characters leave between them, and these are
the stretches that go on in neither direction.
-/

namespace InlineComponents.Text

/-- A maximal run of identifier characters in a code. -/
structure IsIdentifierRun (code run : Text) : Prop where
  /-- There is something in it. -/
  ne_nil : run ≠ []
  /-- All its characters may stand in an identifier. -/
  plain : run.all isPlainCharacter = true
  /-- It stands somewhere in the code, and no identifier character touches it there. -/
  exists_place : ∃ before after, code = before ++ (run ++ after) ∧
    Stops isPlainCharacter before.reverse ∧ Stops isPlainCharacter after

/-! ### The search -/

/-- A word stands in a text behind the first `skip` characters, and no identifier character touches
it there. The text stands behind `lead`. -/
def StandsAlone (word lead text : Text) (skip : Nat) : Prop :=
  ∃ front back, text = front ++ (word ++ back) ∧ skip ≤ front.length ∧
    Stops isPlainCharacter (lead ++ front).reverse ∧ Stops isPlainCharacter back

/-- A word may end in front of a text that does not go on with it. -/
theorem separates_head?_iff {text : Text} :
    separates text.head? = true ↔ Stops isPlainCharacter text := by
  cases text with
  | nil => simp [separates]
  | cons c rest => simp [separates]

section Search

variable {word lead rest : Text} {c : Char} {skip : Nat}

/-- A word stands alone at the front of a text, or behind its first character. -/
theorem standsAlone_cons_iff :
    StandsAlone word lead (c :: rest) skip ↔
      (skip = 0 ∧ Stops isPlainCharacter lead.reverse ∧
        ∃ back, c :: rest = word ++ back ∧ Stops isPlainCharacter back) ∨
      StandsAlone word (lead ++ [c]) rest (skip - 1) := by
  constructor
  · rintro ⟨front, back, heq, hskip, hlead, hback⟩
    cases front with
    | nil =>
      rw [List.append_nil] at hlead
      exact Or.inl ⟨Nat.le_zero.mp hskip, hlead, back, heq, hback⟩
    | cons d front =>
      obtain ⟨rfl, hrest⟩ := List.cons.inj heq
      refine Or.inr ⟨front, back, hrest, Nat.sub_le_of_le_add hskip, ?_, hback⟩
      rwa [List.append_assoc, List.singleton_append]
  · rintro (⟨rfl, hlead, back, heq, hback⟩ | ⟨front, back, rfl, hskip, hlead, hback⟩)
    · exact ⟨[], back, heq, Nat.le_refl 0, by rwa [List.append_nil], hback⟩
    · rw [List.append_assoc, List.singleton_append] at hlead
      exact ⟨c :: front, back, rfl, Nat.le_add_of_sub_le hskip, hlead, hback⟩

/-- What stands behind many characters stands behind fewer. -/
theorem StandsAlone.mono {more : Nat} (h : StandsAlone word lead rest more) (hskip : skip ≤ more) :
    StandsAlone word lead rest skip := by
  obtain ⟨front, back, heq, hmore, hplace⟩ := h
  exact ⟨front, back, heq, Nat.le_trans hskip hmore, hplace⟩

/-- Behind an occurrence of a word the next place where it stands alone is behind its end. -/
theorem StandsAlone.skip_word (hword : word.all isPlainCharacter = true) {back : Text}
    (hfront : c :: rest = word ++ back) (h : StandsAlone word (lead ++ [c]) rest 0) :
    StandsAlone word (lead ++ [c]) rest (word.length - 1) := by
  obtain ⟨front, behind, heq, -, hlead, hbehind⟩ := h
  have hlong : word.length ≤ front.length + 1 := by
    refine Nat.le_of_not_lt fun hshort => ?_
    -- The text between the two places would end with a character of the word.
    have hprefix : c :: front <+: word := by
      refine List.prefix_of_prefix_length_le ⟨word ++ behind, ?_⟩ ⟨back, hfront.symm⟩
        (Nat.le_of_lt hshort)
      rw [List.cons_append, heq]
    obtain ⟨d, init, hd⟩ : ∃ d init, (c :: front).reverse = d :: init :=
      List.exists_cons_of_ne_nil (by simp)
    have hmem : d ∈ word := hprefix.subset (List.mem_reverse.mp (hd ▸ List.mem_cons_self))
    rw [List.append_assoc, List.singleton_append, List.reverse_append, hd, List.cons_append,
      stops_cons, List.all_eq_true.mp hword d hmem] at hlead
    contradiction
  exact ⟨front, behind, heq, Nat.sub_le_of_le_add hlong, hlead, hbehind⟩

/-- The search finds a word of identifier characters exactly where it stands alone. -/
theorem searchWord_eq_true_iff (hne : word ≠ []) (hword : word.all isPlainCharacter = true)
    (lead text : Text) (skip : Nat) :
    searchWord word skip lead.reverse.head? text = true ↔ StandsAlone word lead text skip := by
  induction text generalizing lead skip with
  | nil => simp [searchWord, StandsAlone, hne]
  | cons c rest ih =>
    have hbehind (skip : Nat) : searchWord word skip (some c) rest = true ↔
        StandsAlone word (lead ++ [c]) rest skip := by
      rw [← ih, List.reverse_append]
      rfl
    rw [standsAlone_cons_iff]
    cases skip with
    | succ skip => simp [searchWord, hbehind]
    | zero =>
      rw [searchWord]
      split
      · rename_i after hafter
        have hfront := dropWord?_eq_some_iff.mp hafter
        have hhere : (∃ back, c :: rest = word ++ back ∧ Stops isPlainCharacter back) ↔
            Stops isPlainCharacter after := by
          rw [hfront]
          simp
        have hlater : StandsAlone word (lead ++ [c]) rest (word.length - 1) ↔
            StandsAlone word (lead ++ [c]) rest 0 :=
          ⟨fun h => h.mono (Nat.zero_le _), StandsAlone.skip_word hword hfront⟩
        rw [Bool.or_eq_true, Bool.and_eq_true, hbehind, separates_head?_iff, separates_head?_iff,
          hhere, hlater]
        simp
      · rename_i hnone
        have hhere : ¬ ∃ back, c :: rest = word ++ back ∧ Stops isPlainCharacter back := by
          rintro ⟨back, hback, -⟩
          rw [hback, dropWord?_append] at hnone
          contradiction
        simp [hbehind, hhere]

/-- A code contains a word of identifier characters exactly when it is a run of the code. -/
theorem containsWord_iff_isIdentifierRun {code : Text} (hne : word ≠ [])
    (hword : word.all isPlainCharacter = true) :
    containsWord code word = true ↔ IsIdentifierRun code word := by
  have hsearch := searchWord_eq_true_iff hne hword [] code 0
  rw [containsWord, Bool.and_eq_true, Bool.not_eq_true', List.isEmpty_eq_false_iff]
  refine (and_iff_right hne).trans (hsearch.trans ⟨?_, ?_⟩)
  · rintro ⟨before, after, heq, -, hbefore, hafter⟩
    exact ⟨hne, hword, before, after, heq, hbefore, hafter⟩
  · rintro ⟨-, -, before, after, heq, hbefore, hafter⟩
    exact ⟨before, after, heq, Nat.zero_le _, hbefore, hafter⟩

/-- A word that stands between two characters of other kinds is found. -/
theorem containsWord_append {back : Text} {left right : Char} (hne : word ≠ [])
    (hword : word.all isPlainCharacter = true) (hleft : isPlainCharacter left = false)
    (hright : isPlainCharacter right = false) (front : Text) :
    containsWord (front ++ left :: (word ++ right :: back)) word = true := by
  have hbefore : Stops isPlainCharacter (front ++ [left]).reverse := by
    rw [List.reverse_append]
    exact stops_cons.mpr hleft
  refine (containsWord_iff_isIdentifierRun hne hword).mpr
    ⟨hne, hword, front ++ [left], right :: back, ?_, hbefore, stops_cons.mpr hright⟩
  rw [List.append_assoc, List.singleton_append]

end Search

/-! ### The runs of a code -/

/-- The stretch at the front of a text ends where the text does not go on with it. -/
theorem eq_takeWhile_iff {p : Char → Bool} {text front : Text} :
    front = text.takeWhile p ↔
      front.all p = true ∧ ∃ back, text = front ++ back ∧ Stops p back := by
  constructor
  · rintro rfl
    exact ⟨List.all_takeWhile, text.dropWhile p, List.takeWhile_append_dropWhile.symm,
      stops_dropWhile⟩
  · rintro ⟨hfront, back, rfl, hback⟩
    exact (takeWhile_stretch hfront hback).symm

/-- The first stretch of a code reaches as far as identifier characters do. -/
theorem exists_identifierStretches_eq (code : Text) :
    ∃ others, identifierStretches code = code.takeWhile isPlainCharacter :: others := by
  induction code with
  | nil => exact ⟨[], rfl⟩
  | cons c rest ih =>
    obtain ⟨others, hothers⟩ := ih
    by_cases hc : isPlainCharacter c = true
    · simp [identifierStretches, hc, hothers]
    · simp [identifierStretches, hc]

/-- Each further stretch starts behind a character of another kind. -/
theorem mem_tail_identifierStretches_iff (code run : Text) :
    run ∈ (identifierStretches code).tail ↔ ∃ before c after,
      code = before ++ c :: after ∧ isPlainCharacter c = false ∧
        run = after.takeWhile isPlainCharacter := by
  induction code with
  | nil => simp [identifierStretches]
  | cons d rest ih =>
    obtain ⟨others, hothers⟩ := exists_identifierStretches_eq rest
    rw [hothers, List.tail_cons] at ih
    have hcut : (∃ before c after, d :: rest = before ++ c :: after ∧
          isPlainCharacter c = false ∧ run = after.takeWhile isPlainCharacter) ↔
        isPlainCharacter d = false ∧ run = rest.takeWhile isPlainCharacter ∨ run ∈ others := by
      rw [ih]
      constructor
      · rintro ⟨before, c, after, heq, hc, hrun⟩
        cases before with
        | nil =>
          obtain ⟨rfl, rfl⟩ := List.cons.inj heq
          exact Or.inl ⟨hc, hrun⟩
        | cons e before => exact Or.inr ⟨before, c, after, (List.cons.inj heq).2, hc, hrun⟩
      · rintro (⟨hd, hrun⟩ | ⟨before, c, after, rfl, hc, hrun⟩)
        · exact ⟨[], d, rest, rfl, hd, hrun⟩
        · exact ⟨d :: before, c, after, rfl, hc, hrun⟩
    rw [hcut]
    by_cases hd : isPlainCharacter d = true
    · simp [identifierStretches, hd, hothers]
    · simp [identifierStretches, hd, hothers]

/-- What the other characters of a code leave between them are its maximal runs. -/
theorem mem_identifierRuns_iff {code run : Text} :
    run ∈ identifierRuns code ↔ IsIdentifierRun code run := by
  obtain ⟨others, hothers⟩ := exists_identifierStretches_eq code
  have htail := mem_tail_identifierStretches_iff code run
  rw [hothers, List.tail_cons] at htail
  rw [identifierRuns, List.mem_filter, hothers, List.mem_cons, htail, Bool.not_eq_true',
    List.isEmpty_eq_false_iff]
  constructor
  · rintro ⟨hrun | ⟨before, c, after, rfl, hc, hrun⟩, hne⟩
    · obtain ⟨hplain, back, heq, hback⟩ := eq_takeWhile_iff.mp hrun
      exact ⟨hne, hplain, [], back, heq, stops_nil _, hback⟩
    · obtain ⟨hplain, back, rfl, hback⟩ := eq_takeWhile_iff.mp hrun
      exact ⟨hne, hplain, before ++ [c], back, by simp, by simpa using hc, hback⟩
  · rintro ⟨hne, hplain, before, after, rfl, hbefore, hafter⟩
    refine ⟨?_, hne⟩
    rcases List.eq_nil_or_concat before with rfl | ⟨init, c, rfl⟩
    · exact Or.inl (eq_takeWhile_iff.mpr ⟨hplain, after, rfl, hafter⟩)
    · exact Or.inr ⟨init, c, run ++ after, by simp, by simpa using hbefore,
        eq_takeWhile_iff.mpr ⟨hplain, after, rfl, hafter⟩⟩

/-- A code contains a word of identifier characters exactly when one of the maximal runs of such
characters in it is the word. -/
theorem containsWord_iff_mem_identifierRuns {code word : Text} (hne : word ≠ [])
    (hword : word.all isPlainCharacter = true) :
    (containsWord code word = true ↔ word ∈ identifierRuns code) ∧
      ∀ run, run ∈ identifierRuns code ↔ IsIdentifierRun code run := by
  refine ⟨?_, fun run => mem_identifierRuns_iff⟩
  rw [mem_identifierRuns_iff]
  exact containsWord_iff_isIdentifierRun hne hword

/-- A word that overlaps itself is found behind two occurrences that are part of a longer run, next
to a letter that is no identifier character. -/
theorem containsWord_of_overlap :
    "A__A".toList ≠ [] ∧ "A__A".toList.all isPlainCharacter = true ∧
      "A__A".toList ∈ identifierRuns "A__A__A=éA__A;".toList ∧
      containsWord "A__A__A=éA__A;".toList "A__A".toList = true ∧
      containsWord "A__A__A;".toList "A__A".toList = false := by
  have hne : "A__A".toList ≠ [] := by decide
  have hword : "A__A".toList.all isPlainCharacter = true := by decide
  have hmem : "A__A".toList ∈ identifierRuns "A__A__A=éA__A;".toList := by decide
  have hnot : "A__A".toList ∉ identifierRuns "A__A__A;".toList := by decide
  refine ⟨hne, hword, hmem, (containsWord_iff_mem_identifierRuns hne hword).1.mpr hmem, ?_⟩
  rw [← Bool.not_eq_true, (containsWord_iff_mem_identifierRuns hne hword).1]
  exact hnot

end InlineComponents.Text
