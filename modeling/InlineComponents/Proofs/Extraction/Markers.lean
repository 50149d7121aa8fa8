import InlineComponents.Marker
import InlineComponents.Proofs.Text.Scanning
import InlineComponents.Proofs.Text.Spans

/-!
# The spelling of markers

The reader recognises the markers of a small grammar. Each of them ends at its only closing brace,
so what it reads does not depend on anything behind the first brace, and a text in front of an
opening marker that has a name makes no marker together with it.
-/

namespace InlineComponents

namespace Marker

open Text

variable {marker : Marker} {text taken rest front back name : Text}

/-! ### The grammar -/

/-- How markers are spelled. -/
inductive Spells : Marker → Text → Prop where
  /-- Blanks, a name that may be empty, and blanks again stand behind the first word. -/
  | opening {first name second : Text} : isBlankText first = true → first ≠ [] →
      name.all isNameCharacter = true → isBlankText second = true →
      Spells (.opening name) (openingWord ++ (first ++ (name ++ (second ++ ['}']))))
  /-- Without blanks there is no name. -/
  | unnamed : Spells (.opening []) (openingWord ++ ['}'])
  /-- Blanks may stand behind the first word. -/
  | closing {blanks : Text} : isBlankText blanks = true →
      Spells .closing (closingWord ++ (blanks ++ ['}']))

/-- A blank cannot stand in a name. -/
theorem isNameCharacter_of_isBlank {c : Char} (h : isBlank c = true) :
    isNameCharacter c = false := by
  simp [isNameCharacter, h]

/-- A character of a name is not blank. -/
theorem isBlank_of_isNameCharacter {c : Char} (h : isNameCharacter c = true) :
    isBlank c = false := by
  simp only [isNameCharacter, Bool.and_eq_true, Bool.not_eq_true'] at h
  exact h.1

/-- A brace is dropped behind any blanks. -/
theorem dropBrace?_eq_some_iff :
    dropBrace? text = some rest ↔
      ∃ blanks, isBlankText blanks = true ∧ text = blanks ++ '}' :: rest := by
  constructor
  · intro h
    unfold dropBrace? at h
    split at h
    · rename_i tail hskip
      obtain rfl := Option.some.inj h
      exact (skipBlanks_eq_iff.mp hskip).1
    · contradiction
  · rintro ⟨blanks, hblanks, rfl⟩
    rw [dropBrace?, skipBlanks_stretch hblanks (stops_cons.mpr (by decide))]
    rfl

/-- What is read behind the first word of an opening marker. -/
theorem readOpening?_eq_some_iff :
    readOpening? text = some (marker, rest) ↔
      (marker = .opening [] ∧ text = '}' :: rest) ∨
        ∃ first name second, marker = .opening name ∧ isBlankText first = true ∧ first ≠ [] ∧
          name.all isNameCharacter = true ∧ isBlankText second = true ∧
          text = first ++ (name ++ (second ++ '}' :: rest)) := by
  have hname (tail : Text) : Stops isNameCharacter ('}' :: tail) := stops_cons.mpr (by decide)
  constructor
  · intro h
    unfold readOpening? at h
    split at h
    · rename_i hskip
      obtain ⟨after, hdrop, hfound⟩ := Option.map_eq_some_iff.mp h
      obtain ⟨rfl, rfl⟩ := Prod.mk.inj hfound
      obtain ⟨blanks, hblanks, rfl⟩ := dropBrace?_eq_some_iff.mp hdrop
      -- With a blank in front the reader would have looked for a name.
      by_cases hne : blanks = []
      · subst hne
        exact Or.inl ⟨rfl, rfl⟩
      · rw [skipSomeBlanks?_eq_some_iff.mpr ⟨⟨blanks, hblanks, hne, rfl⟩,
          stops_cons.mpr (by decide)⟩] at hskip
        contradiction
    · rename_i named hskip
      obtain ⟨after, hdrop, hfound⟩ := Option.map_eq_some_iff.mp h
      obtain ⟨rfl, rfl⟩ := Prod.mk.inj hfound
      obtain ⟨⟨first, hfirst, hne, rfl⟩, -⟩ := skipSomeBlanks?_eq_some_iff.mp hskip
      obtain ⟨second, hsecond, hrest⟩ := dropBrace?_eq_some_iff.mp hdrop
      refine Or.inr ⟨first, _, second, rfl, hfirst, hne, List.all_takeWhile, hsecond, ?_⟩
      rw [← hrest, List.takeWhile_append_dropWhile]
  · rintro (⟨rfl, rfl⟩ | ⟨first, name, second, rfl, hfirst, hne, hall, hsecond, rfl⟩)
    · rfl
    · have hstops : Stops isNameCharacter (second ++ '}' :: rest) :=
        Stops.append hsecond (fun _ => isNameCharacter_of_isBlank) (hname rest)
      cases hnil : name with
      | nil =>
        -- All blanks count as those in front of the name.
        have hskip : skipSomeBlanks? (first ++ ([] ++ (second ++ '}' :: rest))) =
            some ('}' :: rest) :=
          skipSomeBlanks?_eq_some_iff.mpr ⟨⟨first ++ second, isBlankText_append.mpr
            ⟨hfirst, hsecond⟩, by simp [hne], by simp⟩, stops_cons.mpr (by decide)⟩
        rw [readOpening?, hskip]
        rfl
      | cons c tail =>
        rw [← hnil]
        have hskip : skipSomeBlanks? (first ++ (name ++ (second ++ '}' :: rest))) =
            some (name ++ (second ++ '}' :: rest)) :=
          skipSomeBlanks?_eq_some_iff.mpr ⟨⟨first, hfirst, hne, rfl⟩,
            Stops.of_stretch (by simp [hnil]) hall (fun _ => isBlank_of_isNameCharacter) _⟩
        rw [readOpening?, hskip]
        simp only [takeWhile_stretch hall hstops, dropWhile_stretch hall hstops]
        rw [dropBrace?_eq_some_iff.mpr ⟨second, hsecond, rfl⟩]
        rfl

/-- The reader takes exactly the markers of the grammar. -/
theorem read?_eq_some_iff :
    read? text = some (marker, rest) ↔ ∃ taken, Spells marker taken ∧ text = taken ++ rest := by
  constructor
  · intro h
    unfold read? at h
    split at h
    · rename_i behind hword
      rw [dropWord?_eq_some_iff] at hword
      subst hword
      rcases readOpening?_eq_some_iff.mp h with
        ⟨rfl, rfl⟩ | ⟨first, name, second, rfl, hfirst, hne, hname, hsecond, rfl⟩
      · exact ⟨_, .unnamed, by simp⟩
      · exact ⟨_, .opening hfirst hne hname hsecond, by simp⟩
    · split at h
      · rename_i behind hword
        rw [dropWord?_eq_some_iff] at hword
        subst hword
        obtain ⟨after, hdrop, hfound⟩ := Option.map_eq_some_iff.mp h
        obtain ⟨rfl, rfl⟩ := Prod.mk.inj hfound
        obtain ⟨blanks, hblanks, rfl⟩ := dropBrace?_eq_some_iff.mp hdrop
        exact ⟨_, .closing hblanks, by simp⟩
      · contradiction
  · rintro ⟨taken, hspells, rfl⟩
    cases hspells with
    | @opening first name second hfirst hne hname hsecond =>
      rw [List.append_assoc, read?, dropWord?_append]
      exact readOpening?_eq_some_iff.mpr
        (Or.inr ⟨first, name, second, rfl, hfirst, hne, hname, hsecond, by simp⟩)
    | unnamed =>
      rw [List.append_assoc, read?, dropWord?_append]
      rfl
    | @closing blanks hblanks =>
      have hopening : dropWord? openingWord (closingWord ++ (blanks ++ ['}'] ++ rest)) = none := rfl
      rw [List.append_assoc, read?, hopening, dropWord?_append]
      simp only
      rw [dropBrace?_eq_some_iff.mpr ⟨blanks, hblanks, List.append_assoc blanks ['}'] rest⟩]
      rfl

/-! ### Markers end at their braces -/

/-- A marker ends at its only closing brace. -/
theorem Spells.exists_brace (h : Spells marker taken) :
    ∃ init, taken = init ++ ['}'] ∧ '}' ∉ init := by
  have hblank {blanks : Text} (hblanks : isBlankText blanks = true) : '}' ∉ blanks :=
    not_mem_of_isBlankText (by decide) hblanks
  cases h with
  | @opening first name second hfirst _ hname hsecond =>
    have hnone : '}' ∉ name := fun hmem => absurd (List.all_eq_true.mp hname _ hmem) (by decide)
    exact ⟨openingWord ++ (first ++ (name ++ second)), by simp, by
      simpa [hblank hfirst, hblank hsecond, hnone] using by decide⟩
  | unnamed => exact ⟨openingWord, rfl, by decide⟩
  | @closing blanks hblanks =>
    exact ⟨closingWord ++ blanks, by simp, by simpa [hblank hblanks] using by decide⟩

/-- A marker holds its closing brace. -/
theorem Spells.brace_mem (h : Spells marker taken) : '}' ∈ taken := by
  obtain ⟨init, rfl, -⟩ := h.exists_brace
  simp

/-- The reader takes a marker whole, whatever stands behind it. -/
theorem read?_append_iff : read? (taken ++ rest) = some (marker, rest) ↔ Spells marker taken := by
  rw [read?_eq_some_iff]
  constructor
  · rintro ⟨other, hother, happ⟩
    rwa [List.append_cancel_right happ]
  · exact fun h => ⟨taken, h, rfl⟩

/-- Markers have a text. -/
theorem Spells.ne_nil (h : Spells marker taken) : taken ≠ [] :=
  List.ne_nil_of_mem h.brace_mem

/-- Markers are read one after the other. -/
theorem reader_advances : Advances reader := by
  intro _ text marker rest h
  obtain ⟨taken, hspells, rfl⟩ := read?_eq_some_iff.mp h
  exact ⟨taken, hspells.ne_nil, rfl⟩

/-- What is read at a place does not depend on what stands behind the next closing brace. -/
theorem read?_append_of_brace (hbrace : '}' ∈ front) (back : Text) :
    read? (front ++ back) = (read? front).map fun found => (found.1, found.2 ++ back) := by
  obtain ⟨init, tail, rfl, hinit⟩ := List.eq_append_cons_of_mem hbrace
  cases hread : read? (init ++ '}' :: tail ++ back) with
  | none =>
    cases hfront : read? (init ++ '}' :: tail) with
    | none => rfl
    | some found =>
      obtain ⟨taken, hspells, happ⟩ := read?_eq_some_iff.mp hfront
      rw [happ, List.append_assoc, read?_append_iff.mpr hspells] at hread
      contradiction
  | some found =>
    obtain ⟨marker, rest⟩ := found
    obtain ⟨taken, hspells, happ⟩ := read?_eq_some_iff.mp hread
    obtain ⟨others, rfl, hothers⟩ := hspells.exists_brace
    rw [List.append_assoc, List.append_assoc, List.cons_append, List.singleton_append] at happ
    obtain ⟨rfl, rfl⟩ := cut_unique hinit hothers happ
    have hfront : read? (init ++ ['}'] ++ tail) = some (marker, tail) := read?_append_iff.mpr hspells
    rw [List.append_assoc, List.singleton_append] at hfront
    rw [hfront]
    rfl

/-! ### Texts without markers -/

/-- Whether a text holds no marker. -/
def Free (text : Text) : Prop := locations (scanAll reader text) = []

instance (text : Text) : Decidable (Free text) := inferInstanceAs (Decidable (_ = _))

/-- A text holds no marker when none stands at any place of it. -/
theorem free_iff : Free text ↔ ∀ front back, text = front ++ back → read? back = none :=
  locations_scan_eq_nil_iff reader_advances

/-! ### Openings with a name -/

/-- A valid name is not empty. -/
theorem ne_nil_of_isValidName (h : isValidName name = true) : name ≠ [] := by
  rintro rfl
  contradiction

/-- An opening marker starts with a brace, and its first word has no other one. -/
theorem openingWord_eq : openingWord = '\x7b' :: "#component".toList := rfl

/-- A closing marker starts with a brace, and its first word has no other one. -/
theorem closingWord_eq : closingWord = '\x7b' :: "/component".toList := rfl

/-- Every marker starts with an opening brace. -/
theorem Spells.exists_cons (h : Spells marker taken) : ∃ rest, taken = '\x7b' :: rest := by
  cases h with
  | opening => exact ⟨_, rfl⟩
  | unnamed => exact ⟨_, rfl⟩
  | closing => exact ⟨_, rfl⟩

/-- A marker whose name holds no opening brace has none behind its first character. -/
theorem Spells.not_mem_tail (h : Spells marker taken)
    (hname : ∀ name, marker = .opening name → '\x7b' ∉ name) : '\x7b' ∉ taken.tail := by
  have hblank {blanks : Text} (hblanks : isBlankText blanks = true) : '\x7b' ∉ blanks :=
    not_mem_of_isBlankText (by decide) hblanks
  cases h with
  | @opening first name second hfirst _ _ hsecond =>
    rw [openingWord_eq, List.cons_append, List.tail_cons]
    simp [hblank hfirst, hblank hsecond, hname name rfl]
  | unnamed => decide
  | @closing blanks hblanks =>
    rw [closingWord_eq, List.cons_append, List.tail_cons]
    simp [hblank hblanks]

/-- Behind its first character, a marker holds an opening brace only in its name. -/
theorem Spells.name_of_brace (h : Spells marker taken) (hne : front ≠ [])
    (happ : taken = front ++ '\x7b' :: back) :
    ∃ name second, name.all isNameCharacter = true ∧ isBlankText second = true ∧
      '\x7b' :: back = '\x7b' :: name ++ (second ++ ['}']) := by
  obtain ⟨c, front, rfl⟩ := List.exists_cons_of_ne_nil hne
  have hblank {blanks : Text} (hblanks : isBlankText blanks = true) : '\x7b' ∉ blanks :=
    not_mem_of_isBlankText (by decide) hblanks
  cases h with
  | @opening first name second hfirst _ hname hsecond =>
    rw [openingWord_eq, List.cons_append, List.cons_append] at happ
    obtain ⟨-, happ⟩ := List.cons.inj happ
    obtain ⟨left, -, hleft⟩ := cut_behind (by decide) happ
    obtain ⟨left, -, hleft⟩ := cut_behind (hblank hfirst) hleft
    have hout (left : Text) : second ++ ['}'] ≠ left ++ '\x7b' :: back := by
      intro hend
      have hmem : '\x7b' ∈ second ++ ['}'] := by simp [hend]
      simp [hblank hsecond] at hmem
    rcases List.append_eq_append_iff.mp hleft with ⟨left, -, hend⟩ | ⟨left, rfl, hback⟩
    · exact absurd hend (hout left)
    · cases left with
      | nil => exact absurd hback.symm (hout [])
      | cons d left =>
        obtain ⟨rfl, -⟩ := List.cons.inj hback
        rw [List.all_append, Bool.and_eq_true, List.all_cons, Bool.and_eq_true] at hname
        exact ⟨left, second, hname.2.2, hsecond, hback⟩
  | unnamed =>
    rw [openingWord_eq, List.cons_append, List.cons_append] at happ
    obtain ⟨-, happ⟩ := List.cons.inj happ
    have hmem : '\x7b' ∈ "#component".toList ++ ['}'] := by simp only [happ]; simp
    exact absurd hmem (by decide)
  | @closing blanks hblanks =>
    rw [closingWord_eq, List.cons_append, List.cons_append] at happ
    obtain ⟨-, happ⟩ := List.cons.inj happ
    obtain ⟨left, -, hleft⟩ := cut_behind (by decide) happ
    have hmem : '\x7b' ∈ blanks ++ ['}'] := by simp [hleft]
    simp [hblank hblanks] at hmem

/-- No marker starts in front of an opening with a name and ends with it: the first word of the
opening would belong to the name of the marker, and a marker has a single one. -/
theorem not_spells_append_opening {opening : Text} (hne : front ≠ [])
    (hopening : Spells (.opening name) opening) (hname : name ≠ []) :
    ¬ Spells marker (front ++ opening) := by
  intro h
  cases hopening with
  | unnamed => exact hname rfl
  | @opening first _ second hfirst hnonempty hall hsecond =>
    obtain ⟨own, blanks, hown, hblanks, happ⟩ := h.name_of_brace hne rfl
    have hown' : ('\x7b' :: own).all isNameCharacter = true := by
      rw [List.all_cons, hown]
      decide
    have htail : blanks ++ ['}'] = first ++ (name ++ (second ++ ['}'])) := by
      rw [← dropWhile_stretch hown' (Stops.append hblanks
          (fun _ => isNameCharacter_of_isBlank) (stops_cons.mpr (by decide))), ← happ]
      exact dropWhile_stretch (by decide) (Stops.of_stretch hnonempty hfirst
        (fun _ => isNameCharacter_of_isBlank) _)
    have hrest := congrArg skipBlanks htail
    rw [skipBlanks_stretch hblanks (stops_cons.mpr (by decide)), skipBlanks_stretch hfirst
      (Stops.of_stretch hname hall (fun _ => isBlank_of_isNameCharacter) _)] at hrest
    have hlength := congrArg List.length hrest
    have := List.length_pos_iff.mpr hname
    simp only [List.length_append, List.length_singleton] at hlength
    omega

/-- Text in front of an opening with a name starts no marker that ends with it. -/
theorem read?_append_opening {opening : Text} (hne : front ≠ []) (hbrace : '}' ∉ front)
    (hopening : Spells (.opening name) opening) (hname : name ≠ []) (back : Text) :
    read? (front ++ (opening ++ back)) = none := by
  cases hread : read? (front ++ (opening ++ back)) with
  | none => rfl
  | some found =>
    obtain ⟨taken, hspells, happ⟩ := read?_eq_some_iff.mp hread
    obtain ⟨init, rfl, hinit⟩ := hspells.exists_brace
    obtain ⟨word, rfl, hword⟩ := hopening.exists_brace
    have hcut : front ++ word ++ '}' :: back = init ++ '}' :: found.2 := by
      simpa only [List.append_assoc, List.singleton_append] using happ
    obtain ⟨rfl, -⟩ := cut_unique (by simp [hbrace, hword]) hinit hcut
    rw [List.append_assoc] at hspells
    exact absurd hspells (not_spells_append_opening hne hopening hname)

end Marker

end InlineComponents
