import InlineComponents.Linking.Instantiation
import InlineComponents.Proofs.Text.Scanning
import InlineComponents.Proofs.Text.Spans

/-!
# Qualifying a text part by part

An instantiation has one form, and reading accepts exactly the texts of that form. From it follows
where a text can be cut so that its parts can be qualified on their own: in front of a character
that stands in no instantiation, and in front of a word that neither ends nor continues one. The
lines of a qualified text start where those of the text do.
-/

namespace InlineComponents

open Text

namespace Instantiation

/-- The form of an instantiation: an equals sign, the word `new`, a plain identifier and two
opening brackets, with blanks between them and at least one blank after the word. -/
inductive WellFormed : Instantiation → Prop where
  | intro {before gap name beforeParenthesis beforeBrace : Text}
      (hbefore : isBlankText before = true) (hgap : isBlankText gap = true) (hne : gap ≠ [])
      (hname : isPlainIdentifier name = true)
      (hparenthesis : isBlankText beforeParenthesis = true)
      (hbrace : isBlankText beforeBrace = true) :
      WellFormed ⟨'=' :: (before ++ ("new".toList ++ gap)), name,
        beforeParenthesis ++ '(' :: (beforeBrace ++ ['{'])⟩

/-- The front of an instantiation, up to its name. -/
theorem afterNew?_eq_some_iff {text rest : Text} :
    afterNew? text = some rest ↔
      (∃ before gap, isBlankText before = true ∧ isBlankText gap = true ∧ gap ≠ [] ∧
        text = '=' :: (before ++ ("new".toList ++ gap)) ++ rest) ∧ Stops isBlank rest := by
  constructor
  · intro h
    unfold afterNew? at h
    split at h
    · rename_i tail
      obtain ⟨named, hnew, hgap⟩ := Option.bind_eq_some_iff.mp h
      obtain ⟨⟨gap, hblank, hne, rfl⟩, hrest⟩ := skipSomeBlanks?_eq_some_iff.mp hgap
      obtain ⟨⟨before, hbefore, rfl⟩, -⟩ := skipBlanks_eq_iff.mp (dropWord?_eq_some_iff.mp hnew)
      exact ⟨⟨before, gap, hbefore, hblank, hne, by simp⟩, hrest⟩
    · contradiction
  · rintro ⟨⟨before, gap, hbefore, hgap, hne, rfl⟩, hrest⟩
    have hskip : skipBlanks (before ++ ("new".toList ++ (gap ++ rest))) =
        "new".toList ++ (gap ++ rest) :=
      skipBlanks_stretch hbefore (stops_cons.mpr (by decide))
    simp only [List.cons_append, List.append_assoc, afterNew?]
    rw [hskip, dropWord?_append]
    exact skipSomeBlanks?_eq_some_iff.mpr ⟨⟨gap, hgap, hne, rfl⟩, hrest⟩

/-- The end of an instantiation, from its name on. -/
theorem afterArguments?_eq_some_iff {text rest : Text} :
    afterArguments? text = some rest ↔
      ∃ beforeParenthesis beforeBrace, isBlankText beforeParenthesis = true ∧
        isBlankText beforeBrace = true ∧
        text = beforeParenthesis ++ '(' :: (beforeBrace ++ ['{']) ++ rest := by
  constructor
  · intro h
    unfold afterArguments? at h
    split at h
    · rename_i inner hparenthesis
      split at h
      · rename_i after hbrace
        obtain rfl := Option.some.inj h
        obtain ⟨⟨first, hfirst, rfl⟩, -⟩ := skipBlanks_eq_iff.mp hparenthesis
        obtain ⟨⟨second, hsecond, rfl⟩, -⟩ := skipBlanks_eq_iff.mp hbrace
        exact ⟨first, second, hfirst, hsecond, by simp⟩
      · contradiction
    · contradiction
  · rintro ⟨first, second, hfirst, hsecond, rfl⟩
    have hparenthesis : skipBlanks (first ++ '(' :: (second ++ '{' :: rest)) =
        '(' :: (second ++ '{' :: rest) :=
      skipBlanks_stretch hfirst (stops_cons.mpr (by decide))
    have hbrace : skipBlanks (second ++ '{' :: rest) = '{' :: rest :=
      skipBlanks_stretch hsecond (stops_cons.mpr (by decide))
    simp only [List.cons_append, List.append_assoc, List.nil_append, afterArguments?]
    rw [hparenthesis]
    simp only [hbrace]

/-- What was consumed is what stands in front of the rest. -/
theorem consumed_append (front rest : Text) : consumed (front ++ rest) rest = front := by
  simp [consumed]

/-- The opening parenthesis and the blanks in front of it end an identifier. -/
theorem stops_trail {first : Text} (hfirst : isBlankText first = true) (rest : Text) :
    Stops isPlainCharacter (first ++ '(' :: rest) :=
  Stops.append hfirst (fun _ hc => isPlainCharacter_of_isBlank hc) (stops_cons.mpr (by decide))

/-- Reading accepts exactly the texts in the form of an instantiation. -/
theorem read?_eq_some_iff {text after : Text} {site : Instantiation} :
    read? text = some (site, after) ↔ WellFormed site ∧ text = site.source ++ after := by
  constructor
  · intro h
    obtain ⟨named, hnew, h⟩ := Option.bind_eq_some_iff.mp h
    obtain ⟨⟨name, rest⟩, hread, h⟩ := Option.bind_eq_some_iff.mp h
    obtain ⟨last, harguments, h⟩ := Option.bind_eq_some_iff.mp h
    obtain ⟨rfl, rfl⟩ := Prod.mk.inj (Option.some.inj h)
    obtain ⟨⟨before, gap, hbefore, hgap, hne, rfl⟩, -⟩ := afterNew?_eq_some_iff.mp hnew
    obtain ⟨hname, rfl, -⟩ := readPlainIdentifier?_eq_some_iff.mp hread
    obtain ⟨first, second, hfirst, hsecond, rfl⟩ := afterArguments?_eq_some_iff.mp harguments
    rw [consumed_append, consumed_append]
    exact ⟨.intro hbefore hgap hne hname hfirst hsecond, by simp [source]⟩
  · rintro ⟨⟨hbefore, hgap, hne, hname, hfirst, hsecond⟩, rfl⟩
    rename_i before gap name first second
    have htrail : first ++ '(' :: (second ++ ['{']) ++ after =
        first ++ '(' :: (second ++ '{' :: after) := by simp
    have hnew : afterNew? ('=' :: (before ++ ("new".toList ++ gap)) ++
        (name ++ (first ++ '(' :: (second ++ ['{']) ++ after))) =
          some (name ++ (first ++ '(' :: (second ++ ['{']) ++ after)) :=
      afterNew?_eq_some_iff.mpr ⟨⟨before, gap, hbefore, hgap, hne, rfl⟩,
        Stops.of_stretch (ne_nil_of_isPlainIdentifier hname)
          (isPlainIdentifier_iff.mp hname).2 (fun _ => isBlank_of_isPlainCharacter) _⟩
    have hread : readPlainIdentifier? (name ++ (first ++ '(' :: (second ++ ['{']) ++ after)) =
        some (name, first ++ '(' :: (second ++ ['{']) ++ after) :=
      readPlainIdentifier?_eq_some_iff.mpr ⟨hname, rfl, htrail ▸ stops_trail hfirst _⟩
    have harguments : afterArguments? (first ++ '(' :: (second ++ ['{']) ++ after) = some after :=
      afterArguments?_eq_some_iff.mpr ⟨first, second, hfirst, hsecond, rfl⟩
    have hsource : source ⟨'=' :: (before ++ ("new".toList ++ gap)), name,
        first ++ '(' :: (second ++ ['{'])⟩ ++ after =
          '=' :: (before ++ ("new".toList ++ gap)) ++
            (name ++ (first ++ '(' :: (second ++ ['{']) ++ after)) := by simp [source]
    rw [hsource]
    simp only [read?, bind, hnew, Option.bind_some, hread, harguments, consumed_append]

/-- An instantiation has a text. -/
theorem WellFormed.source_ne_nil {site : Instantiation} (h : WellFormed site) :
    site.source ≠ [] := by
  cases h
  simp [source]

/-- Instantiations are read one after the other. -/
theorem reader_advances : Advances reader := by
  intro lineStart text site after h
  obtain ⟨hsite, happ⟩ := read?_eq_some_iff.mp h
  exact ⟨site.source, hsite.source_ne_nil, happ⟩

/-- The start of a line makes no difference to instantiations. -/
theorem scan_reader (flag other : Bool) (text : Text) :
    scan reader flag text = scan reader other text := by
  cases text with
  | nil => simp
  | cons c rest =>
    cases h : read? (c :: rest) with
    | none =>
      have hrefuses (start : Bool) : reader start (c :: rest) = none := h
      rw [scan_cons_of_none (hrefuses flag), scan_cons_of_none (hrefuses other)]
    | some found =>
      obtain ⟨site, after⟩ := found
      obtain ⟨hsite, happ⟩ := read?_eq_some_iff.mp h
      rw [happ] at h ⊢
      have hreads (start : Bool) : reader start (site.source ++ after) = some (site, after) := h
      rw [scan_of_some hsite.source_ne_nil (hreads flag),
        scan_of_some hsite.source_ne_nil (hreads other)]

variable {binding : Text} {names : List Text}

/-- Where no instantiation is read, the character stays as it is. -/
theorem qualifyAll_cons {c : Char} {rest : Text} (h : read? (c :: rest) = none) :
    qualifyAll binding names (c :: rest) = c :: qualifyAll binding names rest := by
  have hrefuses : reader true (c :: rest) = none := h
  rw [qualifyAll, scanAll, scan_cons_of_none hrefuses, List.flatMap_cons, scan_reader _ true]
  rfl

/-- An instantiation at the front is qualified if its name is listed, and the text after it on its
own. -/
theorem qualifyAll_source {site : Instantiation} (h : WellFormed site) (after : Text) :
    qualifyAll binding names (site.source ++ after) =
      (if site.name ∈ names then site.qualified binding else site.source) ++
        qualifyAll binding names after := by
  have hread : reader true (site.source ++ after) = some (site, after) :=
    read?_eq_some_iff.mpr ⟨h, rfl⟩
  rw [qualifyAll, scanAll, scan_of_some h.source_ne_nil hread, List.flatMap_cons,
    scan_reader _ true]
  rfl

/-- Induction along the instantiations of a text. -/
theorem qualify_induction {motive : Text → Prop} (nil : motive [])
    (plain : ∀ c rest, read? (c :: rest) = none → motive rest → motive (c :: rest))
    (site : ∀ site after, WellFormed site → motive after → motive (site.source ++ after))
    (text : Text) : motive text := by
  refine scan_induction reader_advances (motive := fun _ => motive) (fun _ => nil) (fun _ => plain)
    ?_ true text
  intro _ taken after found _ hread ih
  obtain ⟨hsite, happ⟩ := read?_eq_some_iff.mp hread
  rw [happ]
  exact site found after hsite ih

/-- Only an equals sign starts an instantiation. -/
theorem read?_cons_of_ne {c : Char} (hc : c ≠ '=') (rest : Text) : read? (c :: rest) = none := by
  cases h : read? (c :: rest) with
  | none => rfl
  | some found =>
    obtain ⟨site, after⟩ := found
    obtain ⟨hsite, happ⟩ := read?_eq_some_iff.mp h
    cases hsite
    simp [source, hc] at happ

/-- An equals sign starts an instantiation only in front of the word `new`. -/
theorem read?_equals {c : Char} {rest blanks : Text} (hblanks : isBlankText blanks = true)
    (hblank : isBlank c = false) (hc : c ≠ 'n') : read? ('=' :: (blanks ++ c :: rest)) = none := by
  have hnew : afterNew? ('=' :: (blanks ++ c :: rest)) = none := by
    unfold afterNew?
    simp only [skipBlanks_stretch hblanks (stops_cons.mpr hblank)]
    change (dropWord? ('n' :: "ew".toList) (c :: rest)).bind _ = none
    simp [dropWord?, Ne.symm hc]
  simp only [read?, bind, hnew, Option.bind_none]

/-- A text without equals signs stays as it is in front of any other. -/
theorem qualifyAll_append_of_no_equals {front : Text} (hfront : '=' ∉ front) (back : Text) :
    qualifyAll binding names (front ++ back) = front ++ qualifyAll binding names back := by
  induction front with
  | nil => rfl
  | cons c rest ih =>
    rw [List.mem_cons, not_or] at hfront
    rw [List.cons_append, qualifyAll_cons (read?_cons_of_ne (Ne.symm hfront.1) _), ih hfront.2]
    rfl

/-- A text without equals signs stays as it is. -/
theorem qualifyAll_of_no_equals {text : Text} (h : '=' ∉ text) :
    qualifyAll binding names text = text := by
  have hnil := qualifyAll_nil binding names
  rw [← List.append_nil text, qualifyAll_append_of_no_equals h, hnil]

/-- A text is closed when no instantiation can reach into it from the front: it does not start in
the middle of an identifier, and behind its blanks stands neither a bracket of an instantiation nor
the word `new` nor an identifier with such brackets. -/
structure Closed (text : Text) : Prop where
  stops : Stops isPlainCharacter text
  bracket : Stops (fun c => c = '(' || c = '{') (skipBlanks text)
  name : ∀ name rest, readPlainIdentifier? (skipBlanks text) = some (name, rest) →
    name ≠ "new".toList ∧ afterArguments? rest = none

/-- A character that stands in no instantiation. -/
def isSeparator (c : Char) : Bool :=
  !isBlank c && !isPlainCharacter c && c != '(' && c != '{'

/-- Blanks alone are closed. -/
theorem closed_of_isBlankText {text : Text} (h : isBlankText text = true) : Closed text := by
  have hskip : skipBlanks text = [] := by
    rw [← List.append_nil text]
    exact skipBlanks_stretch h (stops_nil isBlank)
  refine ⟨?_, by simp [hskip], by simp [hskip, readPlainIdentifier?]⟩
  simpa using Stops.append h (fun _ => isPlainCharacter_of_isBlank) (stops_nil _)

/-- A separator closes what follows, behind blanks too. -/
theorem closed_of_separator {front : Text} (hfront : isBlankText front = true) {c : Char}
    (hc : isSeparator c = true) (rest : Text) : Closed (front ++ c :: rest) := by
  simp only [isSeparator, Bool.and_eq_true, Bool.not_eq_true', bne_iff_ne, ne_eq] at hc
  obtain ⟨⟨⟨hblank, hplain⟩, hparenthesis⟩, hbrace⟩ := hc
  have hskip : skipBlanks (front ++ c :: rest) = c :: rest :=
    skipBlanks_stretch hfront (stops_cons.mpr hblank)
  refine ⟨Stops.append hfront (fun _ => isPlainCharacter_of_isBlank) (stops_cons.mpr hplain),
    by simp [hskip, hparenthesis, hbrace], ?_⟩
  intro name after h
  rw [hskip] at h
  obtain ⟨hname, happ, -⟩ := readPlainIdentifier?_eq_some_iff.mp h
  obtain ⟨⟨d, tail, rfl, -⟩, hall⟩ := isPlainIdentifier_iff.mp hname
  obtain ⟨rfl, -⟩ := List.cons.inj happ
  have := List.all_eq_true.mp hall c List.mem_cons_self
  rw [hplain] at this
  contradiction

/-- A word behind blanks closes what follows it, unless it is the name of an instantiation. -/
theorem closed_of_word_append {front word tail : Text} (hfront : isBlankText front = true)
    (hne : front ≠ []) (hword : isPlainIdentifier word = true) (hnew : word ≠ "new".toList)
    (htail : Stops isPlainCharacter tail) (harguments : afterArguments? tail = none) :
    Closed (front ++ (word ++ tail)) := by
  have hstops : Stops isBlank (word ++ tail) :=
    Stops.of_stretch (ne_nil_of_isPlainIdentifier hword) (isPlainIdentifier_iff.mp hword).2
      (fun _ => isBlank_of_isPlainCharacter) _
  have hskip := skipBlanks_stretch hfront hstops
  refine ⟨Stops.of_stretch hne hfront (fun _ => isPlainCharacter_of_isBlank) _, ?_, ?_⟩
  · rw [hskip]
    refine Stops.of_stretch (ne_nil_of_isPlainIdentifier hword) (isPlainIdentifier_iff.mp hword).2
      ?_ _
    intro d hd
    rw [Bool.or_eq_false_iff]
    constructor <;> simp only [decide_eq_false_iff_not] <;> rintro rfl <;> contradiction
  · intro name after h
    rw [hskip] at h
    have hread := readPlainIdentifier?_eq_some_iff.mpr ⟨hword, rfl, htail⟩
    obtain ⟨rfl, rfl⟩ := Prod.mk.inj (Option.some.inj (hread.symm.trans h))
    exact ⟨hnew, harguments⟩

/-- A word between blanks closes what follows it, when no parenthesis comes next. -/
theorem closed_of_word {front word gap : Text} {c : Char} (hfront : isBlankText front = true)
    (hne : front ≠ []) (hword : isPlainIdentifier word = true) (hnew : word ≠ "new".toList)
    (hgap : isBlankText gap = true) (hgapne : gap ≠ []) (hblank : isBlank c = false)
    (hc : c ≠ '(') (rest : Text) : Closed (front ++ (word ++ (gap ++ c :: rest))) := by
  have hstops : Stops isPlainCharacter (gap ++ c :: rest) :=
    Stops.of_stretch hgapne hgap (fun _ => isPlainCharacter_of_isBlank) (c :: rest)
  have hafter : skipBlanks (gap ++ c :: rest) = c :: rest :=
    skipBlanks_stretch hgap (stops_cons.mpr hblank)
  refine closed_of_word_append hfront hne hword hnew hstops ?_
  unfold afterArguments?
  rw [hafter]
  split
  · rename_i hcons
    exact absurd (List.cons.inj hcons).1 hc
  · rfl

/-- A bracket of an instantiation is not closed off by blanks. -/
theorem not_closed_of_bracket {front : Text} (hfront : isBlankText front = true) {c : Char}
    (hblank : isBlank c = false) (hc : c = '(' ∨ c = '{') (rest : Text) :
    ¬ Closed (front ++ c :: rest) := by
  intro h
  have := h.bracket
  rw [skipBlanks_stretch hfront (stops_cons.mpr hblank), stops_cons] at this
  rcases hc with rfl | rfl <;> simp at this

/-- An identifier that goes on is not closed. -/
theorem not_closed_of_plain {front : Text} (hne : front ≠ [])
    (hfront : front.all isPlainCharacter = true) (rest : Text) : ¬ Closed (front ++ rest) := by
  intro h
  obtain ⟨c, tail, rfl⟩ := List.exists_cons_of_ne_nil hne
  have := stops_cons.mp h.stops
  rw [List.all_eq_true.mp hfront c List.mem_cons_self] at this
  contradiction

/-- A name with the brackets of an instantiation is not closed off by blanks. -/
theorem not_closed_of_name {front name first second : Text} (hfront : isBlankText front = true)
    (hname : isPlainIdentifier name = true) (hfirst : isBlankText first = true)
    (hsecond : isBlankText second = true) (rest : Text) :
    ¬ Closed (front ++ (name ++ (first ++ '(' :: (second ++ ['{']) ++ rest))) := by
  intro h
  have hskip := skipBlanks_stretch hfront (Stops.of_stretch (ne_nil_of_isPlainIdentifier hname)
    (isPlainIdentifier_iff.mp hname).2 (fun _ => isBlank_of_isPlainCharacter)
    (first ++ '(' :: (second ++ ['{']) ++ rest))
  have hread : readPlainIdentifier? (name ++ (first ++ '(' :: (second ++ ['{']) ++ rest)) =
      some (name, first ++ '(' :: (second ++ ['{']) ++ rest) := by
    refine readPlainIdentifier?_eq_some_iff.mpr ⟨hname, rfl, ?_⟩
    rw [List.append_assoc]
    exact stops_trail hfirst _
  have hnone := (h.name name _ (hskip ▸ hread)).2
  rw [afterArguments?_eq_some_iff.mpr ⟨first, second, hfirst, hsecond, rfl⟩] at hnone
  contradiction

/-- The word of an instantiation is not closed off by blanks. -/
theorem not_closed_of_new {front gap : Text} (hfront : isBlankText front = true)
    (hgap : isBlankText gap = true) (hne : gap ≠ []) (rest : Text) :
    ¬ Closed (front ++ ("new".toList ++ (gap ++ rest))) := by
  intro h
  have hskip : skipBlanks (front ++ ("new".toList ++ (gap ++ rest))) =
      "new".toList ++ (gap ++ rest) := skipBlanks_stretch hfront (stops_cons.mpr (by decide))
  have hread : readPlainIdentifier? ("new".toList ++ (gap ++ rest)) =
      some ("new".toList, gap ++ rest) :=
    readPlainIdentifier?_eq_some_iff.mpr ⟨by decide, rfl,
      Stops.of_stretch hne hgap (fun _ => isPlainCharacter_of_isBlank) rest⟩
  exact (h.name _ _ (hskip ▸ hread)).1 rfl

/-- What is left of an instantiation behind its name is never closed. -/
theorem not_closed_of_trail {first second front rest : Text} (hfirst : isBlankText first = true)
    (hsecond : isBlankText second = true) (hrest : rest ≠ [])
    (h : first ++ '(' :: (second ++ ['{']) = front ++ rest) (after : Text) :
    ¬ Closed (rest ++ after) := by
  rcases List.append_eq_append_iff.mp h with ⟨inTail, -, h⟩ | ⟨left, rfl, rfl⟩
  · cases inTail with
    | nil =>
      rw [List.nil_append] at h
      rw [← h]
      exact not_closed_of_bracket isBlankText_nil (by decide) (Or.inl rfl) _
    | cons c inSecond =>
      obtain ⟨-, h⟩ := List.cons.inj h
      rcases List.append_eq_append_iff.mp h with ⟨inBrace, -, h⟩ | ⟨left, rfl, rfl⟩
      · obtain ⟨rfl, rfl⟩ | ⟨-, rfl⟩ := List.append_eq_singleton_iff.mp h.symm
        · exact not_closed_of_bracket isBlankText_nil (by decide) (Or.inr rfl) _
        · contradiction
      · rw [List.append_assoc]
        exact not_closed_of_bracket (isBlankText_append.mp hsecond).2 (by decide) (Or.inr rfl) _
  · rw [List.append_assoc]
    exact not_closed_of_bracket (isBlankText_append.mp hfirst).2 (by decide) (Or.inl rfl) _

/-- What is left of an instantiation behind its equals sign is never closed. -/
theorem WellFormed.not_closed {site : Instantiation} (hsite : WellFormed site)
    {front rest : Text} (hfront : front ≠ []) (hrest : rest ≠ [])
    (h : site.source = front ++ rest) (after : Text) : ¬ Closed (rest ++ after) := by
  obtain ⟨hbefore, hgap, hne, hname, hfirst, hsecond⟩ := hsite
  rename_i before gap name first second
  obtain ⟨c, front, rfl⟩ := List.exists_cons_of_ne_nil hfront
  -- The cut falls into one of the stretches of the form, which are taken off from the left.
  simp only [source, List.cons_append, List.append_assoc, List.cons.injEq] at h
  rcases List.append_eq_append_iff.mp h.2 with ⟨inNew, -, h⟩ | ⟨left, rfl, rfl⟩
  · rcases List.append_eq_append_iff.mp h with ⟨inGap, -, h⟩ | ⟨left, hnew, rfl⟩
    · rcases List.append_eq_append_iff.mp h with ⟨inName, -, h⟩ | ⟨left, rfl, rfl⟩
      · rcases List.append_eq_append_iff.mp h with ⟨inFirst, -, h⟩ | ⟨left, rfl, rfl⟩
        · exact not_closed_of_trail hfirst hsecond hrest h after
        · have hleft := (isPlainIdentifier_iff.mp hname).2
          rw [List.all_append, Bool.and_eq_true] at hleft
          by_cases hnil : left = []
          · subst hnil
            rw [List.nil_append]
            exact not_closed_of_trail hfirst hsecond (by simp) (List.nil_append _).symm after
          · rw [List.append_assoc]
            exact not_closed_of_plain hnil hleft.2 _
      · rw [List.append_assoc, List.append_assoc]
        exact not_closed_of_name (isBlankText_append.mp hgap).2 hname hfirst hsecond after
    · have hall : ("new".toList).all isPlainCharacter = true := by decide
      rw [hnew, List.all_append, Bool.and_eq_true] at hall
      by_cases hnil : left = []
      · subst hnil
        rw [List.nil_append, List.append_assoc, List.append_assoc]
        exact not_closed_of_name hgap hname hfirst hsecond after
      · rw [List.append_assoc]
        exact not_closed_of_plain hnil hall.2 _
  · rw [List.append_assoc, List.append_assoc, List.append_assoc]
    exact not_closed_of_new (isBlankText_append.mp hbefore).2 hgap hne _

/-- A text that starts where no instantiation reaches into it can be read on its own. -/
theorem read?_append {front back : Text} (hback : Closed back) (hfront : front ≠ []) :
    read? (front ++ back) = (read? front).map fun found => (found.1, found.2 ++ back) := by
  cases hr : read? front with
  | some found =>
    obtain ⟨site, after⟩ := found
    obtain ⟨hsite, rfl⟩ := read?_eq_some_iff.mp hr
    exact read?_eq_some_iff.mpr ⟨hsite, List.append_assoc _ _ _⟩
  | none =>
    cases hw : read? (front ++ back) with
    | none => rfl
    | some found =>
      obtain ⟨site, after⟩ := found
      obtain ⟨hsite, happ⟩ := read?_eq_some_iff.mp hw
      rcases List.append_eq_append_iff.mp happ with ⟨rest, hsource, rfl⟩ | ⟨rest, rfl, -⟩
      · by_cases hrest : rest = []
        · subst hrest
          rw [List.append_nil] at hsource
          have := read?_eq_some_iff.mpr ⟨hsite, (List.append_nil site.source).symm⟩
          rw [hsource, hr] at this
          contradiction
        · exact absurd hback (hsite.not_closed hfront hrest hsource after)
      · rw [read?_eq_some_iff.mpr ⟨hsite, rfl⟩] at hr
        contradiction

/-- Two parts of a text are qualified on their own when the second is closed. -/
theorem qualifyAll_append {back : Text} (hback : Closed back) (front : Text) :
    qualifyAll binding names (front ++ back) =
      qualifyAll binding names front ++ qualifyAll binding names back := by
  have hscan : scan reader true (front ++ back) =
      scan reader true front ++ scan reader (startsLine true front) back :=
    scan_append reader_advances fun _ _ _ hne => read?_append hback hne
  rw [qualifyAll, scanAll, hscan, List.flatMap_append, scan_reader _ true back]
  rfl

/-- Around a separator that is no equals sign both parts are qualified on their own. -/
theorem qualifyAll_append_separator {c : Char} (hc : isSeparator c = true) (hne : c ≠ '=')
    (front back : Text) :
    qualifyAll binding names (front ++ c :: back) =
      qualifyAll binding names front ++ c :: qualifyAll binding names back := by
  have hclosed : Closed (c :: back) := closed_of_separator isBlankText_nil hc back
  rw [qualifyAll_append hclosed, qualifyAll_cons (read?_cons_of_ne hne back)]

/-- An instantiation has no equals sign behind its first character. -/
theorem WellFormed.no_equals {site : Instantiation} (hsite : WellFormed site) {front back : Text}
    (hfront : front ≠ []) (h : site.source = front ++ back) : '=' ∉ back := by
  obtain ⟨hbefore, hgap, -, hname, hfirst, hsecond⟩ := hsite
  obtain ⟨c, front, rfl⟩ := List.exists_cons_of_ne_nil hfront
  have hblank {text : Text} (htext : isBlankText text = true) : '=' ∉ text := fun hmem =>
    absurd (List.all_eq_true.mp htext _ hmem) (by decide)
  have hplain : '=' ∉ _ := fun hmem =>
    absurd (List.all_eq_true.mp (isPlainIdentifier_iff.mp hname).2 _ hmem) (by decide)
  simp only [source, List.cons_append, List.append_assoc, List.cons.injEq] at h
  intro hmem
  have hrest := h.2 ▸ List.mem_append_right front hmem
  simp [hblank hbefore, hblank hgap, hblank hfirst, hblank hsecond, hplain] at hrest

/-- Qualifying keeps the first character. -/
theorem head?_qualifyAll (text : Text) : (qualifyAll binding names text).head? = text.head? := by
  induction text using qualify_induction with
  | nil => rw [qualifyAll_nil]
  | plain c rest h _ => rw [qualifyAll_cons h]; rfl
  | site site after h _ =>
    rw [qualifyAll_source h]
    cases h
    split <;> rfl

/-- A front without equals signs is found again in the text that was qualified. -/
theorem exists_of_qualifyAll_eq {front back text : Text} (hfront : '=' ∉ front)
    (h : qualifyAll binding names text = front ++ back) :
    ∃ rest, text = front ++ rest ∧ qualifyAll binding names rest = back := by
  induction front generalizing text with
  | nil => exact ⟨text, rfl, h⟩
  | cons c front ih =>
    rw [List.mem_cons, not_or] at hfront
    have hhead : (qualifyAll binding names text).head? = text.head? := head?_qualifyAll text
    rw [h] at hhead
    obtain ⟨rest, rfl⟩ : ∃ rest, text = c :: rest := List.head?_eq_some_iff.mp hhead.symm
    rw [qualifyAll_cons (read?_cons_of_ne (Ne.symm hfront.1) rest)] at h
    obtain ⟨tail, rfl, htail⟩ := ih hfront.2 (List.cons.inj h).2
    exact ⟨tail, rfl, htail⟩

/-- No line starts behind an instantiation, qualified or not. -/
theorem WellFormed.startsLine_eq {site : Instantiation} (hsite : WellFormed site) (flag : Bool) :
    startsLine flag site.source = false ∧ startsLine flag (site.qualified binding) = false := by
  obtain ⟨-, -, -, -, -, -⟩ := hsite
  rename_i before gap name first second
  have hsource : source ⟨'=' :: (before ++ ("new".toList ++ gap)), name,
      first ++ '(' :: (second ++ ['{'])⟩ =
        '=' :: (before ++ ("new".toList ++ gap)) ++ name ++ (first ++ '(' :: second) ++ ['{'] := by
    simp [source]
  have hqualified : qualified binding ⟨'=' :: (before ++ ("new".toList ++ gap)), name,
      first ++ '(' :: (second ++ ['{'])⟩ =
        '=' :: (before ++ ("new".toList ++ gap)) ++ (binding ++ '.' :: name) ++
          (first ++ '(' :: second) ++ ['{'] := by
    simp [qualified]
  rw [hsource, hqualified, startsLine_append, startsLine_append _ _ ['{']]
  exact ⟨rfl, rfl⟩

/-- A line of a text starts where one of the qualified text does, unless it starts within an
instantiation that is qualified. -/
theorem exists_qualifyAll_of_line {front back : Text} (hline : startsLine true front = true) :
    (∃ before, qualifyAll binding names (front ++ back) = before ++ qualifyAll binding names back ∧
      ∀ flag, startsLine flag before = startsLine flag front) ∨
    ∃ site lead left after, WellFormed site ∧ site.name ∈ names ∧ site.source = lead ++ left ∧
      lead ≠ [] ∧ left ≠ [] ∧ startsLine true lead = true ∧ back = left ++ after := by
  generalize htext : front ++ back = text
  induction text using qualify_induction generalizing front with
  | nil =>
    obtain ⟨rfl, rfl⟩ := List.append_eq_nil_iff.mp htext
    exact Or.inl ⟨[], rfl, fun _ => rfl⟩
  | plain c rest hread ih =>
    cases front with
    | nil =>
      rw [List.nil_append] at htext
      exact Or.inl ⟨[], by rw [htext]; rfl, fun _ => rfl⟩
    | cons d front =>
      obtain ⟨rfl, hrest⟩ := List.cons.inj htext
      have htail : startsLine true front = true := by
        rw [← List.singleton_append] at hline
        exact startsLine_true_of_append hline
      rcases ih htail hrest with ⟨before, hbefore, hsame⟩ | hinside
      · refine Or.inl ⟨d :: before, by rw [qualifyAll_cons hread, hbefore]; rfl, fun flag => ?_⟩
        rw [← List.singleton_append, startsLine_append, hsame, ← startsLine_append]
        rfl
      · exact Or.inr hinside
  | site site after hsite ih =>
    rcases List.append_eq_append_iff.mp htext with ⟨left, hparts, rfl⟩ | ⟨behind, rfl, hrest⟩
    · by_cases hfront : front = []
      · subst hfront
        refine Or.inl ⟨[], ?_, fun _ => rfl⟩
        rw [hparts]
        rfl
      · by_cases hleft : left = []
        · subst hleft
          rw [List.append_nil] at hparts
          have hends : startsLine true site.source = false ∧
              startsLine true (site.qualified binding) = false := hsite.startsLine_eq true
          rw [← hparts, hends.1] at hline
          contradiction
        · by_cases hname : site.name ∈ names
          · exact Or.inr ⟨site, front, left, after, hsite, hname, hparts, hfront, hleft, hline, rfl⟩
          · refine Or.inl ⟨front, ?_, fun _ => rfl⟩
            rw [qualifyAll_source hsite, if_neg hname, hparts,
              qualifyAll_append_of_no_equals (hsite.no_equals hfront hparts), List.append_assoc]
    · rcases ih (startsLine_true_of_append hline) hrest.symm with ⟨before, hbefore, hsame⟩ | hinside
      · refine Or.inl ⟨(if site.name ∈ names then site.qualified binding else site.source) ++ before,
          by rw [qualifyAll_source hsite, hbefore, List.append_assoc], fun flag => ?_⟩
        have hends : startsLine flag site.source = false ∧
            startsLine flag (site.qualified binding) = false := hsite.startsLine_eq flag
        obtain ⟨hsource, hqualified⟩ := hends
        rw [startsLine_append, startsLine_append, hsource, ← hsame]
        split
        · rw [hqualified]
        · rw [hsource]
      · exact Or.inr hinside

/-- A binding that stands within an instantiation, with what precedes it on its line. -/
def InsertedAt (binding text : Text) : Prop :=
  ∃ lead rest, text = lead ++ (binding ++ '.' :: rest) ∧
    (isBlankText lead = true ∨
      ∃ blanks gap, isBlankText blanks = true ∧ lead = blanks ++ ("new".toList ++ gap))

/-- A word in front of a binding that was put into an instantiation goes on as an identifier or a
member. -/
theorem InsertedAt.continues {text spaces word rest : Text} (h : InsertedAt binding text)
    (hbinding : isPlainIdentifier binding = true) (hspaces : isBlankText spaces = true)
    (hword : isPlainIdentifier word = true) (hn : word.head? ≠ some 'n') (hdot : '.' ∉ spaces)
    (htext : text = spaces ++ word ++ rest) :
    ∃ c tail, rest = c :: tail ∧ (isPlainCharacter c = true ∨ c = '.') := by
  obtain ⟨lead, behind, rfl, hlead⟩ := h
  have hstops (back : Text) : Stops isBlank (word ++ back) :=
    Stops.of_stretch (ne_nil_of_isPlainIdentifier hword) (isPlainIdentifier_iff.mp hword).2
      (fun _ => isBlank_of_isPlainCharacter) back
  have hdotWord : '.' ∉ word := fun hmem =>
    absurd (List.all_eq_true.mp (isPlainIdentifier_iff.mp hword).2 _ hmem) (by decide)
  rcases List.append_eq_append_iff.mp htext with ⟨left, happ, hrest⟩ | ⟨left, rfl, -⟩
  · rcases List.append_eq_append_iff.mp hrest with ⟨tail, rfl, hdotted⟩ | ⟨tail, hbound, rfl⟩
    · cases tail with
      | nil => exact ⟨'.', behind, hdotted.symm, Or.inr rfl⟩
      | cons c tail =>
        obtain ⟨rfl, -⟩ := List.cons.inj hdotted
        have hmem : '.' ∈ spaces ++ word := by simp [happ]
        simp [hdot, hdotWord] at hmem
    · cases tail with
      | nil => exact ⟨'.', behind, rfl, Or.inr rfl⟩
      | cons c tail =>
        refine ⟨c, tail ++ '.' :: behind, rfl, Or.inl ?_⟩
        exact List.all_eq_true.mp (isPlainIdentifier_iff.mp hbinding).2 c (by simp [hbound])
  · -- The word would stand within the blanks, or be the word `new`.
    obtain ⟨⟨d, word, rfl, -⟩, hall⟩ := isPlainIdentifier_iff.mp hword
    exfalso
    have stops_new (gap : Text) : Stops isBlank ("new".toList ++ gap) :=
      stops_cons.mpr (by decide : isBlank 'n' = false)
    rcases hlead with hblank | ⟨blanks, gap, hblanks, hnew⟩
    · have := List.all_eq_true.mp hblank d (by simp)
      rw [isBlank_of_isPlainCharacter (List.all_eq_true.mp hall d List.mem_cons_self)] at this
      contradiction
    · have hskip := congrArg skipBlanks hnew
      rw [List.append_assoc, skipBlanks_stretch hspaces (hstops left),
        skipBlanks_stretch hblanks (stops_new gap)] at hskip
      exact hn (congrArg some (List.cons.inj hskip).1)

/-- An identifier has no line feeds. -/
theorem no_lineFeed {word : Text} (hword : isPlainIdentifier word = true) : '\n' ∉ word :=
  fun hmem => absurd (List.all_eq_true.mp (isPlainIdentifier_iff.mp hword).2 _ hmem) (by decide)

/-- Within a qualified instantiation a line starts in front of the binding, or where a line of the
instantiation starts. -/
theorem exists_of_line_in_qualified {site : Instantiation} {front back : Text}
    (hsite : WellFormed site) (hbinding : isPlainIdentifier binding = true) (hfront : front ≠ [])
    (h : site.qualified binding = front ++ back) (hline : startsLine true front = true)
    (after : Text) :
    (∃ before, before ≠ [] ∧ site.source = before ++ back ∧
      ∀ flag, startsLine flag before = startsLine flag front) ∨
    InsertedAt binding (back ++ after) := by
  obtain ⟨hbefore, hgap, -, hname, -, -⟩ := hsite
  rename_i before gap name first second
  have hmiddle : '\n' ∉ binding ++ '.' :: name := by
    simp [no_lineFeed hbinding, no_lineFeed hname]
  have hparts : '=' :: (before ++ ("new".toList ++ gap)) ++ ((binding ++ '.' :: name) ++
      (first ++ '(' :: (second ++ ['{']))) = front ++ back := by
    rw [← h]
    simp [qualified]
  rcases line_outside hmiddle hparts hline with ⟨left, hlead, rfl⟩ | ⟨left, rfl, htrail⟩
  · refine Or.inr ⟨left, _, by simp only [List.append_assoc, List.cons_append]; rfl, ?_⟩
    have hnew : '=' :: before ++ ("new".toList ++ gap) = front ++ left := hlead
    rcases line_outside (by decide) hnew hline with
      ⟨blanks, hcut, rfl⟩ | ⟨_, -, rfl⟩
    · obtain ⟨c, front, rfl⟩ := List.exists_cons_of_ne_nil hfront
      rw [List.cons_append, List.cons.injEq] at hcut
      exact Or.inr ⟨blanks, gap, (isBlankText_append.mp (hcut.2 ▸ hbefore)).2, rfl⟩
    · exact Or.inl (isBlankText_append.mp hgap).2
  · have hne : name ++ left ≠ [] := by simp [ne_nil_of_isPlainIdentifier hname]
    refine Or.inl ⟨'=' :: (before ++ ("new".toList ++ gap)) ++ (name ++ left), by simp, ?_, ?_⟩
    · simp only [source, htrail, List.append_assoc]
    · intro flag
      have hmiddle : '=' :: (before ++ ("new".toList ++ gap)) ++ (binding ++ '.' :: name ++ left) =
          '=' :: (before ++ ("new".toList ++ gap)) ++ (binding ++ ['.']) ++ (name ++ left) := by
        simp
      rw [hmiddle, startsLine_append_of_ne_nil _ _ hne, startsLine_append_of_ne_nil _ _ hne]

/-- Where a line of a qualified text starts, a line of the text starts whose rest was qualified,
unless the line starts within an instantiation, in front of the binding that was put there. -/
theorem exists_of_line {text front back : Text} (hbinding : isPlainIdentifier binding = true)
    (h : qualifyAll binding names text = front ++ back) (hline : startsLine true front = true) :
    (∃ before after, text = before ++ after ∧ back = qualifyAll binding names after ∧
      ∀ flag, startsLine flag before = startsLine flag front) ∨ InsertedAt binding back := by
  induction text using qualify_induction generalizing front with
  | nil =>
    rw [qualifyAll_nil] at h
    obtain ⟨rfl, rfl⟩ := List.append_eq_nil_iff.mp h.symm
    exact Or.inl ⟨[], [], rfl, (qualifyAll_nil binding names).symm, fun _ => rfl⟩
  | plain c rest hr ih =>
    cases front with
    | nil => exact Or.inl ⟨[], c :: rest, rfl, h.symm, fun _ => rfl⟩
    | cons d front =>
      rw [qualifyAll_cons hr, List.cons_append, List.cons.injEq] at h
      obtain ⟨rfl, htail⟩ := h
      have hcons (flag : Bool) (text : Text) :
          startsLine flag (c :: text) = startsLine (c == '\n') text := by
        rw [← List.singleton_append, startsLine_append, startsLine_singleton]
      have hrest : startsLine true front = true := by
        cases front with
        | nil => rfl
        | cons e tail => rwa [hcons, startsLine_of_ne_nil _ (List.cons_ne_nil e tail)] at hline
      refine (ih htail hrest).imp_left ?_
      rintro ⟨before, after, rfl, hback, hflags⟩
      exact ⟨c :: before, after, rfl, hback, fun flag => by rw [hcons, hcons, hflags]⟩
  | site site after hsite ih =>
    rw [qualifyAll_source hsite] at h
    rcases List.append_eq_append_iff.mp h with ⟨left, rfl, htail⟩ | ⟨left, hcut, rfl⟩
    · have hrest : startsLine true left = true := by
        cases left with
        | nil => rfl
        | cons c tail =>
          rwa [startsLine_append_of_ne_nil _ _ (List.cons_ne_nil c tail),
            ← startsLine_of_ne_nil true (List.cons_ne_nil c tail)] at hline
      refine (ih htail hrest).imp_left ?_
      rintro ⟨before, after, rfl, hback, hflags⟩
      refine ⟨site.source ++ before, after, by rw [List.append_assoc], hback, fun flag => ?_⟩
      have hbrace : startsLine flag site.source = false ∧
          startsLine flag (site.qualified binding) = false := hsite.startsLine_eq flag
      rw [startsLine_append, startsLine_append, hflags, hbrace.1]
      split
      · rw [hbrace.2]
      · rw [hbrace.1]
    · by_cases hnil : front = []
      · subst hnil
        refine Or.inl ⟨[], site.source ++ after, rfl, ?_, fun _ => rfl⟩
        rw [qualifyAll_source hsite, hcut]
        rfl
      · split at hcut
        · refine (exists_of_line_in_qualified hsite hbinding hnil hcut hline _).imp_left ?_
          rintro ⟨before, hne, hsource, hflags⟩
          refine ⟨before, left ++ after, by rw [hsource, List.append_assoc], ?_, hflags⟩
          rw [qualifyAll_append_of_no_equals (hsite.no_equals hne hsource)]
        · refine Or.inl ⟨front, left ++ after, by rw [hcut, List.append_assoc], ?_, fun _ => rfl⟩
          rw [qualifyAll_append_of_no_equals (hsite.no_equals hnil hcut)]

end Instantiation

end InlineComponents
