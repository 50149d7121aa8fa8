import InlineComponents.Proofs.Imports.Reading

/-!
# The form of a static import

A static import goes from the spaces in front of its first word to the end of its line, when nothing
else stands on the line. Its reader takes the longest one at the front of a text, and refuses a text
at whose front there is none.
-/

namespace InlineComponents.ImportStatement

open Text

/-- What stands between the first word of a static import and its source: blanks, or a clause that
starts and ends with a blank, and the word `from`. -/
inductive IsStaticHead : Text → Prop where
  | bare {blanks : Text} (hblanks : isBlankText blanks = true) : IsStaticHead blanks
  | clause {first last : Char} {middle blanks : Text} (hfirst : isBlank first = true)
      (hmiddle : ∀ c ∈ middle, c ≠ ';' ∧ isQuote c = false) (hlast : isBlank last = true)
      (hblanks : isBlankText blanks = true) :
      IsStaticHead (first :: (middle ++ last :: ("from".toList ++ blanks)))

/-- The end of a static import: spaces around an optional semicolon, and an optional line end. -/
inductive IsStatementEnd : Text → Prop where
  | intro {before semicolon behind carriage feed : Text} (hbefore : before.all isSpaceOrTab = true)
      (hsemicolon : semicolon = [] ∨ semicolon = [';']) (hbehind : behind.all isSpaceOrTab = true)
      (hcarriage : carriage = [] ∨ carriage = ['\r']) (hfeed : feed = [] ∨ feed = ['\n']) :
      IsStatementEnd (before ++ (semicolon ++ (behind ++ (carriage ++ feed))))

/-- A static import with the end of its line. -/
inductive IsStaticImport : Text → Prop where
  | intro {indent head source ending : Text} {opening closing : Char}
      (hindent : indent.all isSpaceOrTab = true) (hhead : IsStaticHead head)
      (hopening : isQuote opening = true) (hne : source ≠ [])
      (hsource : ∀ c ∈ source, isQuote c = false) (hclosing : isQuote closing = true)
      (hending : IsStatementEnd ending) :
      IsStaticImport (indent ++ ("import".toList ++
        (head ++ opening :: (source ++ closing :: ending))))

/-- A text starts with this static import, and with no longer one. -/
structure StartsWithStatic (text found : Text) : Prop where
  isStatic : IsStaticImport found
  isPrefix : found <+: text
  longest : ∀ other, IsStaticImport other → other <+: text → other.length ≤ found.length

/-! ### The end of a statement -/

/-- What follows the end of a statement. -/
def afterEnd (text : Text) : Text := dropLineEnd (skipSpaces (dropOptional ';' (skipSpaces text)))

/-- An optional character stands at the front or nothing is dropped. -/
theorem exists_dropOptional_append (c : Char) (text : Text) :
    ∃ front, (front = [] ∨ front = [c]) ∧ text = front ++ dropOptional c text := by
  cases text with
  | nil => exact ⟨[], .inl rfl, rfl⟩
  | cons d rest =>
    by_cases hd : d = c
    · subst hd
      exact ⟨[d], .inr rfl, by simp [dropOptional]⟩
    · exact ⟨[], .inl rfl, by simp [dropOptional, hd]⟩

/-- What is skipped behind a source is the end of a statement. -/
theorem exists_afterEnd_append (text : Text) :
    ∃ ending, IsStatementEnd ending ∧ text = ending ++ afterEnd text := by
  have hspaces (text : Text) : text = text.takeWhile isSpaceOrTab ++ skipSpaces text :=
    List.takeWhile_append_dropWhile.symm
  obtain ⟨semicolon, hsemicolon, hfirst⟩ := exists_dropOptional_append ';' (skipSpaces text)
  obtain ⟨carriage, hcarriage, hsecond⟩ :=
    exists_dropOptional_append '\r' (skipSpaces (dropOptional ';' (skipSpaces text)))
  obtain ⟨feed, hfeed, hthird⟩ :=
    exists_dropOptional_append '\n'
      (dropOptional '\r' (skipSpaces (dropOptional ';' (skipSpaces text))))
  refine ⟨_, .intro (List.all_takeWhile (l := text)) hsemicolon
    (List.all_takeWhile (l := dropOptional ';' (skipSpaces text))) hcarriage hfeed, ?_⟩
  simp only [List.append_assoc]
  rw [afterEnd, dropLineEnd, ← hthird, ← hsecond, ← hspaces, ← hfirst, ← hspaces]

/-- Spaces are skipped. -/
theorem skipSpaces_of_spaces {spaces : Text} (h : spaces.all isSpaceOrTab = true) (rest : Text) :
    skipSpaces (spaces ++ rest) = skipSpaces rest :=
  List.dropWhile_append_of_pos (List.all_eq_true.mp h)

/-- Behind the end of a statement nothing more than what follows is left over. -/
theorem IsStatementEnd.afterEnd_suffix {ending : Text} (h : IsStatementEnd ending) (rest : Text) :
    afterEnd (ending ++ rest) <:+ rest := by
  have hspaces (text : Text) : skipSpaces text <:+ text := List.dropWhile_suffix _
  have hline (text : Text) : dropLineEnd text <:+ text :=
    (dropOptional_suffix '\n' _).trans (dropOptional_suffix '\r' _)
  -- A line end is no space and no semicolon, so that it is left for the last step.
  have hend {carriage feed : Text} (hcarriage : carriage = [] ∨ carriage = ['\r'])
      (hfeed : feed = [] ∨ feed = ['\n']) :
      dropLineEnd (skipSpaces (carriage ++ (feed ++ rest))) <:+ rest := by
    rcases hcarriage with rfl | rfl
    · rcases hfeed with rfl | rfl
      · exact (hline _).trans (hspaces rest)
      · exact List.suffix_rfl
    · rcases hfeed with rfl | rfl
      · exact dropOptional_suffix '\n' rest
      · exact List.suffix_rfl
  obtain ⟨hbefore, hsemicolon, hbehind, hcarriage, hfeed⟩ := h
  simp only [List.append_assoc]
  rw [afterEnd, skipSpaces_of_spaces hbefore]
  rcases hsemicolon with rfl | rfl
  · rw [List.nil_append, skipSpaces_of_spaces hbehind]
    have hcut := hend hcarriage hfeed
    rcases hcarriage with rfl | rfl
    · rcases hfeed with rfl | rfl
      · exact (hline _).trans ((hspaces _).trans ((dropOptional_suffix ';' _).trans (hspaces rest)))
      · exact hcut
    · exact hcut
  · have hdrop (tail : Text) : dropOptional ';' (skipSpaces ([';'] ++ tail)) = tail := rfl
    rw [hdrop, skipSpaces_of_spaces hbehind]
    exact hend hcarriage hfeed

/-! ### The reader -/

/-- A head without quotes is recognised when it is the head of a static import. -/
theorem isStaticClause_iff_isStaticHead {head : Text} (hquotes : ∀ c ∈ head, isQuote c = false) :
    isStaticClause head = true ↔ IsStaticHead head := by
  rw [isStaticClause_iff]
  constructor
  · rintro (hblank | ⟨first, middle, last, hfirst, hlast, hfrom, hsemicolon⟩)
    · exact .bare hblank
    · obtain ⟨blanks, hblanks, rfl⟩ := beforeFrom?_eq_some_iff.mp hfrom
      have hmiddle : ∀ c ∈ middle, c ≠ ';' ∧ isQuote c = false := fun c hc =>
        ⟨fun heq => hsemicolon (by simp [heq ▸ hc]), hquotes c (by simp [hc])⟩
      simpa using IsStaticHead.clause hfirst hmiddle hlast hblanks
  · rintro (hblank | ⟨hfirst, hmiddle, hlast, hblanks⟩)
    · exact .inl hblank
    · rename_i first last middle blanks
      refine .inr ⟨first, middle, last, hfirst, hlast,
        beforeFrom?_eq_some_iff.mpr ⟨blanks, hblanks, by simp⟩, fun hmem => ?_⟩
      have hplain {c : Char} (hc : isBlank c = true) : c ≠ ';' := by
        rintro rfl
        contradiction
      rcases List.mem_cons.mp hmem with heq | hmem
      · exact hplain hfirst heq.symm
      · rcases List.mem_append.mp hmem with hmem | hmem
        · exact (hmiddle _ hmem).1 rfl
        · exact hplain hlast (List.mem_singleton.mp hmem).symm

/-- No quote stands in the head of a static import. -/
theorem IsStaticHead.quotes {head : Text} (h : IsStaticHead head) :
    ∀ c ∈ head, isQuote c = false := by
  cases h with
  | bare hblanks => exact isQuote_eq_false_of_isBlankText hblanks
  | clause hfirst hmiddle hlast hblanks =>
    have hplain {c : Char} (hc : isBlank c = true) : isQuote c = false :=
      Bool.eq_false_iff.mpr fun hquote => by
        rw [isBlank_of_isQuote hquote] at hc
        contradiction
    refine List.forall_mem_cons.mpr ⟨hplain hfirst, List.forall_mem_append.mpr
      ⟨fun c hc => (hmiddle c hc).2, List.forall_mem_cons.mpr ⟨hplain hlast,
        List.forall_mem_append.mpr ⟨eq_false_of_any (by decide),
          isQuote_eq_false_of_isBlankText hblanks⟩⟩⟩⟩

/-- A static import in front of a text is read up to the end of its line. -/
theorem IsStaticImport.exists_readStaticImport? {found : Text} (h : IsStaticImport found)
    (rest : Text) : ∃ after, readStaticImport? (found ++ rest) = some after ∧ after <:+ rest := by
  obtain ⟨hindent, hhead, hopening, hne, hsource, hclosing, hending⟩ := h
  rename_i indent head source ending opening closing
  obtain ⟨htake, hread⟩ := isQuoted_iff.mp
    (@IsQuoted.intro head source (ending ++ rest) _ _ hopening hclosing hhead.quotes hne hsource)
  have hword (tail : Text) : afterImportWord? (indent ++ ("import".toList ++ tail)) = some tail :=
    afterImportWord?_eq_some_iff.mpr ⟨indent, hindent, rfl⟩
  refine ⟨afterEnd (ending ++ rest), ?_, hending.afterEnd_suffix rest⟩
  simp only [List.append_assoc, List.cons_append]
  rw [readStaticImport?, hword]
  simp only [htake, hread, (isStaticClause_iff_isStaticHead hhead.quotes).mpr hhead, ↓reduceIte,
    Option.map_some]
  rfl

/-- What is read as a static import is one. -/
theorem exists_isStaticImport_of_read {text after : Text} (h : readStaticImport? text = some after) :
    ∃ found, IsStaticImport found ∧ text = found ++ after := by
  unfold readStaticImport? at h
  split at h
  · contradiction
  · rename_i rest hword
    split at h
    · rename_i hclause
      obtain ⟨⟨source, tail⟩, hsource, rfl⟩ := Option.map_eq_some_iff.mp h
      have hquoted := isQuoted_iff.mpr ⟨rfl, hsource⟩
      obtain ⟨indent, hindent, rfl⟩ := afterImportWord?_eq_some_iff.mp hword
      obtain ⟨ending, hending, htail⟩ := exists_afterEnd_append tail
      clear hword hsource h
      generalize rest.takeWhile (fun c => !isQuote c) = head at hquoted hclause
      obtain ⟨hopening, hclosing, hhead, hne, hquotes⟩ := hquoted
      refine ⟨_, .intro hindent ((isStaticClause_iff_isStaticHead hhead).mp hclause) hopening hne
        hquotes hclosing hending, ?_⟩
      simp only [List.append_assoc, List.cons_append]
      rw [← afterEnd, ← htail]
    · contradiction

/-- The reader takes the longest static import at the front of a text. -/
theorem readStaticImport?_append_iff {found after : Text} :
    readStaticImport? (found ++ after) = some after ↔ StartsWithStatic (found ++ after) found := by
  constructor
  · intro h
    obtain ⟨taken, hstatic, happ⟩ := exists_isStaticImport_of_read h
    obtain rfl := List.append_cancel_right happ
    refine ⟨hstatic, List.prefix_append found after, ?_⟩
    rintro other hother ⟨rest, hrest⟩
    obtain ⟨behind, hread, hsuffix⟩ := hother.exists_readStaticImport? rest
    rw [hrest, h] at hread
    obtain rfl := Option.some.inj hread
    have hlength := congrArg List.length hrest
    have := hsuffix.length_le
    simp only [List.length_append] at hlength
    omega
  · rintro ⟨hstatic, -, hlongest⟩
    obtain ⟨behind, hread, hsuffix⟩ := hstatic.exists_readStaticImport? after
    obtain ⟨taken, htaken, happ⟩ := exists_isStaticImport_of_read hread
    have hlength := congrArg List.length happ
    have := hlongest taken htaken ⟨behind, happ.symm⟩
    have := hsuffix.length_le
    simp only [List.length_append] at hlength
    rw [hread, hsuffix.eq_of_length (by omega)]

/-- The reader refuses a text exactly when no static import stands at its front. -/
theorem readStaticImport?_eq_none_iff {text : Text} :
    readStaticImport? text = none ↔ ∀ found, IsStaticImport found → ¬ found <+: text := by
  constructor
  · rintro hnone found hfound ⟨rest, rfl⟩
    obtain ⟨after, hread, -⟩ := hfound.exists_readStaticImport? rest
    rw [hnone] at hread
    contradiction
  · intro h
    rw [Option.eq_none_iff_forall_ne_some]
    intro after hread
    obtain ⟨found, hfound, rfl⟩ := exists_isStaticImport_of_read hread
    exact h found hfound (List.prefix_append found after)

end InlineComponents.ImportStatement
