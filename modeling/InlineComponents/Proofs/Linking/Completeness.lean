import InlineComponents.Proofs.Linking.Sites

/-!
# What qualifying inserts, and where

The binding and a dot are inserted at the name of every instantiation of a listed name, wherever in
the text it stands, and nowhere else. Two instantiations never overlap, since each has its only
equals sign in front, so the scan from left to right passes over none. An inserted text makes or
hides no instantiation: qualifying for some names and then for others is qualifying for all of them.

Only plain identifiers are names of instantiations. A listed text of another kind is never
qualified.
-/

namespace InlineComponents

open Text

/-- A text with a word inserted at each place of some kind. A place is given by the text before it,
beginning with the one that is given, and the text behind it. -/
inductive Text.Inserted (here : Text → Text → Prop) (word : Text) : Text → Text → Text → Prop where
  | nil {before : Text} : Inserted here word before [] []
  | keep {before rest result : Text} {c : Char} (hhere : ¬ here before (c :: rest))
      (hrest : Inserted here word (before ++ [c]) rest result) :
      Inserted here word before (c :: rest) (c :: result)
  | insert {before rest result : Text} {c : Char} (hhere : here before (c :: rest))
      (hrest : Inserted here word (before ++ [c]) rest result) :
      Inserted here word before (c :: rest) (word ++ c :: result)

namespace Text.Inserted

variable {here : Text → Text → Prop} {word before text result other : Text}

/-- What a text becomes is determined by the places. -/
theorem eq (h : Inserted here word before text result)
    (hother : Inserted here word before text other) : result = other := by
  induction h generalizing other with
  | nil =>
    cases hother
    rfl
  | keep hhere _ ih =>
    cases hother with
    | keep _ hrest => rw [ih hrest]
    | insert hplace _ => exact absurd hplace hhere
  | insert hhere _ ih =>
    cases hother with
    | keep hplace _ => exact absurd hhere hplace
    | insert _ hrest => rw [ih hrest]

/-- Nothing of a text is lost. -/
theorem length_le (h : Inserted here word before text result) : text.length ≤ result.length := by
  induction h with
  | nil => exact Nat.le_refl 0
  | keep _ _ ih => exact Nat.succ_le_succ ih
  | insert _ _ ih =>
    rw [List.length_append, List.length_cons, List.length_cons]
    omega

/-- A text that stays as it is has no place in front. -/
theorem of_cons {c : Char} (hword : word ≠ []) (h : Inserted here word before (c :: text) result)
    (hresult : result = c :: text) :
    ¬ here before (c :: text) ∧ Inserted here word (before ++ [c]) text text := by
  cases h with
  | keep hhere hrest =>
    obtain ⟨-, rfl⟩ := List.cons.inj hresult
    exact ⟨hhere, hrest⟩
  | insert _ hrest =>
    have hlength := congrArg List.length hresult
    rw [List.length_append, List.length_cons, List.length_cons] at hlength
    have := hrest.length_le
    have := List.length_pos_iff.mpr hword
    omega

/-- A text that stays as it is has no place. -/
theorem not_here {lead rest : Text} (hword : word ≠ []) (hrest : rest ≠ [])
    (h : Inserted here word before (lead ++ rest) (lead ++ rest)) : ¬ here (before ++ lead) rest := by
  induction lead generalizing before with
  | nil =>
    obtain ⟨c, rest, rfl⟩ := List.exists_cons_of_ne_nil hrest
    rw [List.append_nil]
    exact (of_cons hword h rfl).1
  | cons c lead ih =>
    rw [List.append_cons]
    exact ih (of_cons hword h rfl).2

/-- A stretch without places is kept. -/
theorem stretch {front back : Text}
    (hfront : ∀ lead rest, front = lead ++ rest → rest ≠ [] → ¬ here (before ++ lead) (rest ++ back))
    (hback : Inserted here word (before ++ front) back result) :
    Inserted here word before (front ++ back) (front ++ result) := by
  induction front generalizing before with
  | nil =>
    rw [List.append_nil] at hback
    exact hback
  | cons c front ih =>
    refine .keep ?_ (ih ?_ ?_)
    · have := hfront [] (c :: front) rfl (List.cons_ne_nil c front)
      rwa [List.append_nil] at this
    · intro lead rest happ hne
      have := hfront (c :: lead) rest (by rw [happ, List.cons_append]) hne
      rwa [List.append_cons] at this
    · rwa [List.append_cons] at hback

/-- The word is inserted once into a stretch with one place. -/
theorem stretch_insert {front back rest : Text} (hne : back ≠ [])
    (hplace : ∀ lead tail, front ++ back = lead ++ tail → tail ≠ [] →
      (here (before ++ lead) (tail ++ rest) ↔ lead = front))
    (hrest : Inserted here word (before ++ (front ++ back)) rest result) :
    Inserted here word before (front ++ back ++ rest) (front ++ (word ++ back) ++ result) := by
  obtain ⟨c, back, rfl⟩ := List.exists_cons_of_ne_nil hne
  have hbehind : Inserted here word (before ++ front ++ [c]) (back ++ rest) (back ++ result) := by
    refine .stretch (fun lead tail hback htail hhere => ?_) ?_
    · have hlead := (hplace (front ++ c :: lead) tail (by simp [hback]) htail).mp
        (by simpa using hhere)
      exact List.cons_ne_nil c lead (List.append_right_eq_self.mp hlead)
    · simpa using hrest
  have hfront : Inserted here word before (front ++ (c :: (back ++ rest)))
      (front ++ (word ++ c :: (back ++ result))) := by
    refine .stretch (fun lead tail hsplit htail hhere => ?_) (.insert ?_ hbehind)
    · have hlead := (hplace lead (tail ++ c :: back) (by simp [hsplit]) (by simp)).mp
        (by simpa using hhere)
      exact htail (List.append_right_eq_self.mp (hlead ▸ hsplit.symm))
    · simpa using (hplace front (c :: back) rfl hne).mpr rfl
  simpa using hfront

end Text.Inserted

namespace Instantiation

/-- The place of a listed name in an instantiation: in front of it an equals sign, blanks, the word
`new` and at least one blank, behind it the opening parenthesis and the opening brace, each behind
blanks. -/
inductive NameAt (names : List Text) : Text → Text → Prop where
  | intro {front before gap name beforeParenthesis beforeBrace after : Text}
      (hbefore : isBlankText before = true) (hgap : isBlankText gap = true) (hne : gap ≠ [])
      (hname : name ∈ names) (hparenthesis : isBlankText beforeParenthesis = true)
      (hbrace : isBlankText beforeBrace = true) :
      NameAt names (front ++ '=' :: (before ++ ("new".toList ++ gap)))
        (name ++ (beforeParenthesis ++ '(' :: (beforeBrace ++ '\x7b' :: after)))

/-- The listed names that an instantiation can have. -/
def creatable (names : List Text) : List Text := names.filter isPlainIdentifier

variable {binding : Text} {names others all : List Text} {site : Instantiation}

/-- The places of the names that an instantiation can have are those where one is read. -/
theorem nameAt_creatable_iff {before rest : Text} :
    NameAt (creatable names) before rest ↔
      ∃ front site after, WellFormed site ∧ site.name ∈ names ∧ before = front ++ site.lead ∧
        rest = site.name ++ (site.trail ++ after) := by
  constructor
  · rintro ⟨hbefore, hgap, hne, hname, hparenthesis, hbrace⟩
    rename_i front lead gap name first second after
    obtain ⟨hname, hplain⟩ := List.mem_filter.mp hname
    exact ⟨front, _, after, .intro hbefore hgap hne hplain hparenthesis hbrace, hname, rfl,
      by simp⟩
  · rintro ⟨front, _, after, ⟨hbefore, hgap, hne, hplain, hparenthesis, hbrace⟩, hname, rfl, rfl⟩
    rename_i lead gap name first second
    have hplace := @NameAt.intro (creatable names) front lead gap name first second after hbefore
      hgap hne (List.mem_filter.mpr ⟨hname, hplain⟩) hparenthesis hbrace
    simpa only [List.append_assoc, List.cons_append, List.nil_append] using hplace

/-- The place of a name starts an instantiation in front of it. -/
theorem exists_read?_of_nameAt {before rest : Text} (h : NameAt (creatable names) before rest) :
    ∃ front site after, before = front ++ site.lead ∧ site.name ∈ names ∧ site.lead ≠ [] ∧
      site.name ≠ [] ∧ rest = site.name ++ (site.trail ++ after) ∧
      read? (site.lead ++ rest) = some (site, after) := by
  obtain ⟨front, site, after, hsite, hname, rfl, rfl⟩ := nameAt_creatable_iff.mp h
  refine ⟨front, site, after, rfl, hname, ?_, ?_, rfl,
    read?_eq_some_iff.mpr ⟨hsite, by simp [source]⟩⟩
  · cases hsite
    exact List.cons_ne_nil _ _
  · obtain ⟨-, -, -, hplain, -, -⟩ := hsite
    exact ne_nil_of_isPlainIdentifier hplain

/-- A place is passed when no instantiation that starts in the text before it reaches into the text
behind it. -/
def Passed (before text : Text) : Prop :=
  ∀ left right site after, before = left ++ right → right ≠ [] →
    read? (right ++ text) = some (site, after) → text <:+ after

/-- The start of a text is passed. -/
theorem passed_nil (text : Text) : Passed [] text := by
  intro left right site after hsplit hne
  exact absurd (List.append_eq_nil_iff.mp hsplit.symm).2 hne

variable {before rest text lead after : Text} {c : Char}

/-- Behind a place that is passed, the place of a name belongs to an instantiation that starts
there. -/
theorem Passed.exists_of_nameAt (hpassed : Passed before (lead ++ rest))
    (h : NameAt (creatable names) (before ++ lead) rest) :
    ∃ front site after, lead = front ++ site.lead ∧ site.name ∈ names ∧ site.lead ≠ [] ∧
      read? (site.lead ++ rest) = some (site, after) := by
  obtain ⟨front, site, after, hbefore, hname, hlead, hne, hrest, hread⟩ := exists_read?_of_nameAt h
  rcases List.append_eq_append_iff.mp hbefore with ⟨inLead, rfl, hcut⟩ | ⟨right, rfl, hcut⟩
  · exact ⟨inLead, site, after, hcut, hname, hlead, hread⟩
  · cases right with
    | nil => exact ⟨[], site, after, hcut.symm, hname, hlead, hread⟩
    | cons c right =>
      -- An instantiation that starts before the place would have its name before it too.
      rw [hcut, List.append_assoc] at hread
      have hsuffix := hpassed _ _ _ _ rfl (List.cons_ne_nil c right) hread
      have hlength := hsuffix.length_le
      rw [hrest] at hlength
      simp only [List.length_append] at hlength
      have := List.length_pos_iff.mpr hne
      omega

/-- A place that is passed is not the place of a name. -/
theorem Passed.not_nameAt (hpassed : Passed before text) :
    ¬ NameAt (creatable names) before text := by
  intro h
  rw [← List.append_nil before] at h
  rw [← List.nil_append text] at hpassed
  obtain ⟨front, site, after, hlead, -, hne, -⟩ := hpassed.exists_of_nameAt h
  exact hne (List.append_eq_nil_iff.mp hlead.symm).2

/-- Where no instantiation is read, the next place is passed too. -/
theorem Passed.of_plain (hpassed : Passed before (c :: rest)) (hnone : read? (c :: rest) = none) :
    Passed (before ++ [c]) rest := by
  intro left right site after hsplit hne hread
  rcases List.eq_nil_or_concat right with rfl | ⟨right, d, rfl⟩
  · contradiction
  · rw [List.concat_eq_append, ← List.append_assoc] at hsplit
    obtain ⟨rfl, hd⟩ := List.append_inj' hsplit rfl
    obtain rfl : c = d := List.singleton_inj.mp hd
    rw [List.concat_eq_append, List.append_assoc, List.singleton_append] at hread
    by_cases hright : right = []
    · rw [hright, List.nil_append, hnone] at hread
      contradiction
    · exact (List.suffix_cons c rest).trans (hpassed left right site after rfl hright hread)

/-- An instantiation is passed with its last character. -/
theorem Passed.of_site (hpassed : Passed before (site.source ++ rest)) (hsite : WellFormed site)
    (hbinding : isPlainIdentifier binding = true) : Passed (before ++ site.source) rest := by
  have hself : read? (site.source ++ rest) = some (site, rest) :=
    read?_eq_some_iff.mpr ⟨hsite, rfl⟩
  intro left right found after hsplit hne hread
  by_cases hright : right = site.source
  · rw [hright, hself] at hread
    obtain ⟨-, rfl⟩ := Prod.mk.inj (Option.some.inj hread)
    exact List.suffix_rfl
  rcases List.append_eq_append_iff.mp hsplit with ⟨inSite, -, hcut⟩ | ⟨inFront, rfl, rfl⟩
  · cases inSite with
    | nil => exact absurd hcut.symm hright
    | cons e inSite =>
      -- Behind the first character of an instantiation stands no other equals sign.
      obtain ⟨⟨tail, htail, hequals⟩, -⟩ := hsite.exists_eq_cons hbinding
      obtain ⟨d, right, rfl⟩ := List.exists_cons_of_ne_nil hne
      rw [htail, List.cons_append] at hcut
      have hd : d ∈ tail := by simp [(List.cons.inj hcut).2]
      rw [List.cons_append, read?_cons_of_ne fun heq => hequals (heq ▸ hd)] at hread
      contradiction
  · rw [List.append_assoc] at hread
    exact (List.suffix_append _ rest).trans
      (hpassed left inFront found after rfl (fun hnil => hright (by simp [hnil])) hread)

/-- The only place of a name within an instantiation is that of its own name. -/
theorem Passed.eq_lead_of_nameAt (hsite : WellFormed site)
    (hbinding : isPlainIdentifier binding = true) (hsource : site.source = lead ++ rest)
    (hpassed : Passed before (site.source ++ after))
    (h : NameAt (creatable names) (before ++ lead) (rest ++ after)) :
    lead = site.lead ∧ site.name ∈ names := by
  rw [hsource, List.append_assoc] at hpassed
  obtain ⟨front, found, behind, rfl, hname, hne, hread⟩ := hpassed.exists_of_nameAt h
  obtain ⟨⟨tail, htail, hequals⟩, -⟩ := hsite.exists_eq_cons hbinding
  obtain ⟨d, inLead, hlead⟩ := List.exists_cons_of_ne_nil hne
  obtain rfl : '=' = d := by
    by_contra hd
    rw [hlead, List.cons_append, read?_cons_of_ne (Ne.symm hd)] at hread
    contradiction
  -- The instantiation starts at the only equals sign.
  obtain rfl : front = [] := by
    cases front with
    | nil => rfl
    | cons e front =>
      rw [htail, hlead, List.append_assoc, List.cons_append] at hsource
      exact absurd (by simp [(List.cons.inj hsource).2]) hequals
  rw [List.nil_append] at hsource ⊢
  rw [← List.append_assoc, ← hsource, read?_eq_some_iff.mpr ⟨hsite, rfl⟩] at hread
  obtain ⟨rfl, -⟩ := Prod.mk.inj (Option.some.inj hread)
  exact ⟨rfl, hname⟩

/-- The binding and a dot are inserted at the listed names. -/
theorem inserted_qualifyAll (hbinding : isPlainIdentifier binding = true)
    (hpassed : Passed before text) :
    Inserted (NameAt (creatable names)) (binding ++ ['.']) before text
      (qualifyAll binding names text) := by
  induction text using qualify_induction generalizing before with
  | nil =>
    rw [qualifyAll_nil]
    exact .nil
  | plain c rest hnone ih =>
    rw [qualifyAll_cons hnone]
    exact .keep hpassed.not_nameAt (ih (hpassed.of_plain hnone))
  | site site after hsite ih =>
    have hafter := ih (hpassed.of_site hsite hbinding)
    rw [qualifyAll_source hsite]
    split
    · rename_i hname
      have hsource : site.source = site.lead ++ (site.name ++ site.trail) := by simp [source]
      have hqualified : site.qualified binding =
          site.lead ++ (binding ++ ['.'] ++ (site.name ++ site.trail)) := by simp [qualified]
      rw [hqualified, hsource]
      refine .stretch_insert ?_ (fun lead rest hsplit hne => ⟨fun hplace => ?_, ?_⟩)
        (hsource ▸ hafter)
      · obtain ⟨-, -, -, hplain, -, -⟩ := hsite
        exact List.append_ne_nil_of_left_ne_nil (ne_nil_of_isPlainIdentifier hplain) _
      · exact (hpassed.eq_lead_of_nameAt hsite hbinding (hsource.trans hsplit) hplace).1
      · rintro rfl
        rw [← List.append_cancel_left hsplit]
        exact nameAt_creatable_iff.mpr ⟨before, site, after, hsite, hname, rfl, by simp⟩
    · rename_i hname
      refine .stretch (fun lead rest hsource _ hplace => hname ?_) hafter
      exact (hpassed.eq_lead_of_nameAt hsite hbinding hsource hplace).2

/-- A qualified instantiation stays as it is in front of any text. -/
theorem qualifyAll_qualified (hbinding : isPlainIdentifier binding = true)
    (hsite : WellFormed site) (after : Text) :
    qualifyAll binding names (site.qualified binding ++ after) =
      site.qualified binding ++ qualifyAll binding names after := by
  have hnone := hsite.read?_qualified hbinding after
  obtain ⟨-, tail, htail, hequals⟩ := hsite.exists_eq_cons hbinding
  rw [htail, List.cons_append] at hnone ⊢
  rw [qualifyAll_cons hnone, qualifyAll_append_of_no_equals hequals, List.cons_append]

/-- Qualifying for some names and then for others is qualifying for all of them. -/
theorem qualifyAll_qualifyAll (hbinding : isPlainIdentifier binding = true)
    (hall : ∀ name, name ∈ all ↔ name ∈ names ∨ name ∈ others) (code : Text) :
    qualifyAll binding others (qualifyAll binding names code) = qualifyAll binding all code := by
  induction code using qualify_induction with
  | nil => simp
  | plain c rest hnone ih =>
    rw [qualifyAll_cons hnone, qualifyAll_cons hnone,
      qualifyAll_cons (read?_cons_qualifyAll hbinding hnone), ih]
  | site site after hsite ih =>
    rw [qualifyAll_source hsite, qualifyAll_source hsite]
    by_cases hname : site.name ∈ names
    · rw [if_pos hname, if_pos ((hall _).mpr (Or.inl hname)), qualifyAll_qualified hbinding hsite, ih]
    · rw [if_neg hname, qualifyAll_source hsite, ih]
      simp only [hall, hname, false_or]

/-- What qualifying does to a code. -/
structure Qualifies (binding : Text) (names : List Text) (code : Text) : Prop where
  /-- The binding and a dot are inserted exactly at the listed names of instantiations. -/
  inserts : ∀ result, Inserted (NameAt (creatable names)) (binding ++ ['.']) [] code result ↔
    result = qualifyAll binding names code
  /-- No listed name of an instantiation is left. -/
  leaves_none : ∀ before rest, qualifyAll binding names code = before ++ rest →
    ¬ NameAt (creatable names) before rest
  /-- Qualifying again changes nothing. -/
  again : qualifyAll binding names (qualifyAll binding names code) = qualifyAll binding names code
  /-- Qualifying for other names afterwards is qualifying for all of them. -/
  then_others : ∀ others all : List Text, (∀ name, name ∈ all ↔ name ∈ names ∨ name ∈ others) →
    qualifyAll binding others (qualifyAll binding names code) = qualifyAll binding all code

/-- Qualifying by a plain identifier is complete and minimal, for every code and all names. -/
theorem qualifies (hbinding : isPlainIdentifier binding = true) (names : List Text) (code : Text) :
    Qualifies binding names code where
  inserts result := by
    have hinserted := @inserted_qualifyAll binding names [] code hbinding (passed_nil code)
    constructor
    · exact fun h => h.eq hinserted
    · rintro rfl
      exact hinserted
  leaves_none before rest hsplit h := by
    obtain ⟨front, site, after, rfl, hname, -, -, -, hread⟩ := exists_read?_of_nameAt h
    rw [List.append_assoc] at hsplit
    exact not_mem_names_of_qualifyAll hbinding hsplit hread hname
  again := qualifyAll_qualifyAll hbinding (fun _ => or_self_iff.symm) code
  then_others _ _ hall := qualifyAll_qualifyAll hbinding hall code

/-- The binding is listed itself, and the instantiations stand right behind each other. -/
theorem qualifies_listed_binding :
    let binding := "App".toList
    let names := ["App".toList, "Card".toList]
    let code := "=new App(\x7b=\tnew Card  (\n\x7b = new Row(\x7b".toList
    isPlainIdentifier binding = true ∧ Qualifies binding names code ∧
      qualifyAll binding names code =
        "=new App.App(\x7b=\tnew App.Card  (\n\x7b = new Row(\x7b".toList := by
  intro binding names code
  have hbinding : isPlainIdentifier binding = true := by decide
  exact ⟨hbinding, qualifies hbinding names code, by decide +kernel⟩

/-- A listed name that is no plain identifier is left as it is at its place. -/
theorem not_inserted_at_umlaut :
    let binding := "App".toList
    let names := ["Ä".toList]
    let code := "= new Ä(\x7b".toList
    isPlainIdentifier binding = true ∧ NameAt names "= new ".toList "Ä(\x7b".toList ∧
      qualifyAll binding names code = code ∧
      ¬ Inserted (NameAt names) (binding ++ ['.']) [] code (qualifyAll binding names code) := by
  intro binding names code
  have hplace : NameAt names "= new ".toList "Ä(\x7b".toList :=
    @NameAt.intro names [] [' '] [' '] "Ä".toList [] [] [] (by decide) (by decide) (by decide)
      (by decide) (by decide) (by decide)
  have hkept : qualifyAll binding names code = code := by decide +kernel
  refine ⟨by decide, hplace, hkept, fun h => ?_⟩
  rw [hkept] at h
  have hnone : ¬ NameAt names ([] ++ "= new ".toList) "Ä(\x7b".toList :=
    Inserted.not_here (List.cons_ne_nil _ _) (List.cons_ne_nil _ _) h
  exact hnone hplace

end Instantiation

end InlineComponents
