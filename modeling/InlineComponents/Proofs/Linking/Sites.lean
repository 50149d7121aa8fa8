import InlineComponents.Proofs.Linking.Qualification

/-!
# Instantiations that are left after qualifying

Qualifying leaves no instantiation of a listed name, wherever in the text it is looked for: where
nothing was inserted no instantiation comes into being, and a qualified name is followed by a dot.
This holds also when the binding itself is listed, and with any text behind that takes no part in an
instantiation.
-/

namespace InlineComponents

open Text

namespace Instantiation

variable {binding : Text} {names : List Text} {site : Instantiation}

/-- An instantiation has its only equals sign in front, qualified or not. -/
theorem WellFormed.exists_eq_cons (hsite : WellFormed site)
    (hbinding : isPlainIdentifier binding = true) :
    (∃ tail, site.source = '=' :: tail ∧ '=' ∉ tail) ∧
      ∃ tail, site.qualified binding = '=' :: tail ∧ '=' ∉ tail := by
  obtain ⟨hbefore, hgap, -, hname, hfirst, hsecond⟩ := hsite
  have hblank {text : Text} (htext : isBlankText text = true) : '=' ∉ text := fun hmem =>
    absurd (List.all_eq_true.mp htext _ hmem) (by decide)
  have hplain {text : Text} (htext : isPlainIdentifier text = true) : '=' ∉ text := fun hmem =>
    absurd (List.all_eq_true.mp (isPlainIdentifier_iff.mp htext).2 _ hmem) (by decide)
  constructor
  · exact ⟨_, by rw [source, List.cons_append, List.cons_append], by
      simp [hblank hbefore, hblank hgap, hblank hfirst, hblank hsecond, hplain hname]⟩
  · exact ⟨_, by rw [qualified, List.cons_append, List.cons_append, List.cons_append], by
      simp [hblank hbefore, hblank hgap, hblank hfirst, hblank hsecond, hplain hname,
        hplain hbinding]⟩

/-- A qualified instantiation is no instantiation. -/
theorem WellFormed.read?_qualified (hsite : WellFormed site)
    (hbinding : isPlainIdentifier binding = true) (after : Text) :
    read? (site.qualified binding ++ after) = none := by
  obtain ⟨hbefore, hgap, hne, hname, -, -⟩ := hsite
  rename_i before gap name beforeParenthesis beforeBrace
  generalize htail : name ++ (beforeParenthesis ++ '(' :: (beforeBrace ++ '{' :: after)) = tail
  have hnew : afterNew? ('=' :: (before ++ ("new".toList ++ gap)) ++ (binding ++ '.' :: tail)) =
      some (binding ++ '.' :: tail) :=
    afterNew?_eq_some_iff.mpr ⟨⟨before, gap, hbefore, hgap, hne, rfl⟩,
      Stops.of_stretch (ne_nil_of_isPlainIdentifier hbinding) (isPlainIdentifier_iff.mp hbinding).2
        (fun _ => isBlank_of_isPlainCharacter) _⟩
  have hread : readPlainIdentifier? (binding ++ '.' :: tail) = some (binding, '.' :: tail) :=
    readPlainIdentifier?_eq_some_iff.mpr ⟨hbinding, rfl, stops_cons.mpr (by decide)⟩
  have htext : qualified binding ⟨'=' :: (before ++ ("new".toList ++ gap)), name,
      beforeParenthesis ++ '(' :: (beforeBrace ++ ['{'])⟩ ++ after =
        '=' :: (before ++ ("new".toList ++ gap)) ++ (binding ++ '.' :: tail) := by
    simp [qualified, ← htail]
  rw [htext, read?, hnew, Option.bind_eq_bind, Option.bind_some, hread]
  rfl

/-- Where no instantiation is read, none comes into being by qualifying the text behind. -/
theorem read?_cons_qualifyAll (hbinding : isPlainIdentifier binding = true) {c : Char} {rest : Text}
    (h : read? (c :: rest) = none) : read? (c :: qualifyAll binding names rest) = none := by
  refine Option.eq_none_iff_forall_ne_some.mpr fun ⟨site, after⟩ hsome => ?_
  obtain ⟨hsite, happ⟩ := read?_eq_some_iff.mp hsome
  obtain ⟨⟨tail, htail, hequals⟩, -⟩ := hsite.exists_eq_cons hbinding
  rw [htail, List.cons_append] at happ
  obtain ⟨rfl, hrest⟩ := List.cons.inj happ
  -- The rest of the instantiation holds no equals sign, so it stood in the text before.
  obtain ⟨behind, rfl, -⟩ := exists_of_qualifyAll_eq hequals hrest
  have hsource : read? ('=' :: (tail ++ behind)) = some (site, behind) :=
    read?_eq_some_iff.mpr ⟨hsite, by rw [htail, List.cons_append]⟩
  rw [hsource] at h
  contradiction

/-- No instantiation of a listed name is left by qualifying. -/
theorem not_mem_names_of_qualifyAll (hbinding : isPlainIdentifier binding = true)
    {text front back after : Text} (h : qualifyAll binding names text = front ++ back)
    (hread : read? back = some (site, after)) : site.name ∉ names := by
  obtain ⟨hsite, hback⟩ := read?_eq_some_iff.mp hread
  obtain ⟨⟨tail, htail, hequals⟩, -⟩ := hsite.exists_eq_cons hbinding
  have hfirst : back = '=' :: (tail ++ after) := by rw [hback, htail, List.cons_append]
  induction text using qualify_induction generalizing front with
  | nil =>
    rw [qualifyAll_nil] at h
    simp [(List.append_eq_nil_iff.mp h.symm).2] at hfirst
  | plain c rest hnone ih =>
    rw [qualifyAll_cons hnone] at h
    cases front with
    | nil =>
      rw [List.nil_append] at h
      rw [← h, read?_cons_qualifyAll hbinding hnone] at hread
      contradiction
    | cons d front => exact ih (List.cons.inj h).2
  | site other behind hother ih =>
    rw [qualifyAll_source hother] at h
    obtain ⟨⟨source, hsource, hnosource⟩, qualified, hqualified, hnoqualified⟩ :=
      hother.exists_eq_cons hbinding
    rcases List.append_eq_append_iff.mp h with ⟨middle, -, hmiddle⟩ | ⟨middle, hmiddle, hrest⟩
    · exact ih hmiddle
    · cases front with
      | nil =>
        rw [List.nil_append] at hmiddle
        subst hmiddle
        split at hrest
        · rw [hrest, hother.read?_qualified hbinding] at hread
          contradiction
        · rename_i hname
          have hsome := read?_eq_some_iff.mpr ⟨hother, hrest⟩
          obtain rfl : other = site := (Prod.mk.inj (Option.some.inj (hsome.symm.trans hread))).1
          exact hname
      | cons d front =>
        cases middle with
        | nil => exact ih (hrest.symm.trans (List.nil_append back).symm)
        | cons e middle =>
          obtain rfl : '=' = e := (List.cons.inj (hfirst.symm.trans hrest)).1
          split at hmiddle
          · rw [hqualified] at hmiddle
            exact absurd (by simp [(List.cons.inj hmiddle).2]) hnoqualified
          · rw [hsource] at hmiddle
            exact absurd (by simp [(List.cons.inj hmiddle).2]) hnosource

/-- An instantiation of a listed name lies behind the qualified text, if the text behind takes no
part in an instantiation. -/
theorem prefix_of_read?_qualifyAll (hbinding : isPlainIdentifier binding = true) {tail : Text}
    (htail : Closed tail) {text front back after : Text}
    (h : qualifyAll binding names text ++ tail = front ++ back)
    (hread : read? back = some (site, after)) (hname : site.name ∈ names) :
    qualifyAll binding names text <+: front := by
  rcases List.append_eq_append_iff.mp h with ⟨middle, hfront, -⟩ | ⟨middle, hmiddle, hback⟩
  · exact ⟨middle, hfront.symm⟩
  · cases middle with
    | nil => exact ⟨[], by rw [List.append_nil] at hmiddle ⊢; exact hmiddle⟩
    | cons c middle =>
      rw [hback, read?_append htail (List.cons_ne_nil c middle)] at hread
      obtain ⟨⟨found, rest⟩, hfound, heq⟩ := Option.map_eq_some_iff.mp hread
      obtain rfl : found = site := (Prod.mk.inj heq).1
      exact absurd hname (not_mem_names_of_qualifyAll hbinding hmiddle hfound)

end Instantiation

end InlineComponents
