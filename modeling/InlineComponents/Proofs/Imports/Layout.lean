import InlineComponents.Proofs.Imports.Recognition
import InlineComponents.Proofs.Imports.Writing

/-!
# Import statements in any layout

A layout is an import statement made of identifiers, with the blanks that stand between its tokens.
Reading the text of a layout gives its source and its bindings, whatever the blanks are, up to two
things: the source may not be empty, and the word `as` between braces must stand between two spaces.
Other blanks beside it hide the alias, and the whole specifier is taken for both names.

The runtime import is looked for with another reader. It finds the layout in a module under the same
conditions if in addition no closing brace stands within a name and no other named import reaches
over the start of the statement.
-/

namespace InlineComponents

open Text

/-- A character that is no blank and ends an identifier. -/
def isMark (c : Char) : Bool := [',', '*', '"', '\'', ';'].contains c

/-- A character that may stand in an identifier, those of an escape such as `\u{61}` included. -/
def isIdentifierCharacter (c : Char) : Bool := !isBlank c && !isMark c

namespace ImportLayout

/-! ### The grammar -/

/-- Blanks between two tokens. -/
structure Blanks where
  text : Text
  isBlank : isBlankText text = true

/-- An identifier. -/
structure Identifier where
  text : Text
  ne_nil : text ≠ []
  characters : ∀ c ∈ text, isIdentifierCharacter c = true
  first : text.head? ≠ some '{'

/-- A specifier between braces: a name, or an exported name and the local name it is bound to, with
blanks on both sides of the word `as`. -/
inductive Specifier where
  | plain (name : Identifier)
  | renamed (imported : Identifier) (before after : Blanks) (localName : Identifier)
      (hbefore : before.text ≠ []) (hafter : after.text ≠ [])

/-- What stands between two braces: blanks, or specifiers with blanks around each. The blanks may
follow a last comma. -/
inductive Entries where
  | none (blanks : Blanks)
  | last (before : Blanks) (specifier : Specifier) (after : Blanks)
  | more (before : Blanks) (specifier : Specifier) (after : Blanks) (rest : Entries)

/-- A namespace, with blanks behind its star and its word, or a list between braces. -/
inductive Group where
  | star (before after : Blanks) (name : Identifier)
  | braces (entries : Entries)

/-- A clause: a default name, a group, or both with a comma between blanks. -/
inductive Clause where
  | named (name : Identifier)
  | grouped (group : Group)
  | both (name : Identifier) (before after : Blanks) (group : Group)

end ImportLayout

open ImportLayout in
/-- An import statement of identifiers in some layout. Blanks may be missing everywhere but around
the word `as` between braces; this includes all places where the language lets them be missing. -/
structure ImportLayout where
  lead : Blanks
  afterWord : Blanks
  clause : Clause
  beforeFrom : Blanks
  afterFrom : Blanks
  quote : Char
  source : Text
  isQuote_quote : ImportStatement.isQuote quote = true
  source_quotes : ∀ c ∈ source, ImportStatement.isQuote c = false

namespace ImportLayout

open ImportStatement

variable {c : Char}

/-- A mark is no blank. -/
theorem isBlank_of_isMark (h : isMark c = true) : isBlank c = false := by
  simp only [isMark, List.contains_eq_mem, List.mem_cons, List.not_mem_nil, or_false,
    decide_eq_true_eq] at h
  rcases h with rfl | rfl | rfl | rfl | rfl <;> decide

/-- A quote is a mark. -/
theorem isMark_of_isQuote (h : isQuote c = true) : isMark c = true := by
  simp only [isQuote, Bool.or_eq_true, decide_eq_true_eq] at h
  rcases h with rfl | rfl <;> decide

/-- The word `as` holds no mark. -/
theorem not_mem_as (h : isMark c = true) : c ∉ "as".toList := fun hmem => by
  rw [eq_false_of_any (by decide : List.any "as".toList isMark = false) c hmem] at h
  contradiction

/-- Blanks hold no mark. -/
theorem Blanks.not_mem (blanks : Blanks) (h : isMark c = true) : c ∉ blanks.text :=
  not_mem_of_isBlankText (isBlank_of_isMark h) blanks.isBlank

namespace Identifier

variable (name : Identifier)

/-- An identifier holds no blank. -/
theorem isBlank_eq_false {c : Char} (h : c ∈ name.text) : isBlank c = false := by
  have hc := name.characters c h
  rw [isIdentifierCharacter, Bool.and_eq_true, Bool.not_eq_true'] at hc
  exact hc.1

/-- An identifier holds no mark. -/
theorem not_mem (h : isMark c = true) : c ∉ name.text := fun hmem => by
  have hc := name.characters c hmem
  rw [isIdentifierCharacter, h, Bool.not_true, Bool.and_false] at hc
  contradiction

/-- An identifier is tight. -/
theorem tight : Tight name.text := tight_of_forall fun _ => name.isBlank_eq_false

/-- An identifier has no space. -/
theorem space_not_mem : ' ' ∉ name.text := fun hmem =>
  absurd (name.isBlank_eq_false hmem) (by decide)

end Identifier

/-! ### Specifiers -/

namespace Specifier

/-- The text of a specifier. -/
def text : Specifier → Text
  | plain name => name.text
  | renamed imported before after localName _ _ =>
    imported.text ++ (before.text ++ ("as".toList ++ (after.text ++ localName.text)))

/-- The binding that a specifier says. -/
def binding : Specifier → ImportBinding
  | plain name => ⟨name.text, name.text⟩
  | renamed imported _ _ localName _ _ => ⟨imported.text, localName.text⟩

/-- Whether the word `as`, if there is one, stands between two spaces. -/
def IsSpaced : Specifier → Prop
  | plain _ => True
  | renamed _ before after _ _ _ => before.text.getLast? = some ' ' ∧ after.text.head? = some ' '

variable {specifier : Specifier} {front back : Text}

/-- A specifier is tight. -/
theorem tight (specifier : Specifier) : Tight specifier.text := by
  cases specifier with
  | plain name => exact name.tight
  | renamed imported before after localName _ _ =>
    rw [text, ← List.append_assoc "as".toList, ← List.append_assoc before.text]
    exact imported.tight.append localName.tight imported.ne_nil localName.ne_nil

/-- A specifier is not empty. -/
theorem ne_nil (specifier : Specifier) : specifier.text ≠ [] := by
  cases specifier with
  | plain name => exact name.ne_nil
  | renamed imported before after localName _ _ =>
    exact List.append_ne_nil_of_left_ne_nil imported.ne_nil _

/-- A specifier holds no mark. -/
theorem not_mem (specifier : Specifier) (h : isMark c = true) : c ∉ specifier.text := by
  cases specifier with
  | plain name => exact name.not_mem h
  | renamed imported before after localName _ _ =>
    simp only [text, List.mem_append, imported.not_mem h, before.not_mem h, not_mem_as h,
      after.not_mem h, localName.not_mem h, or_self, not_false_eq_true]

/-- A space in front of a character that is no blank ends a gap or stands behind it. -/
theorem gap_cut {gap tail rest : Text} (hgap : isBlankText gap = true) (hc : isBlank c = false)
    (h : gap ++ tail = front ++ ' ' :: c :: rest) :
    (gap = front ++ [' '] ∧ tail = c :: rest) ∨ ∃ left, tail = left ++ ' ' :: c :: rest := by
  rcases append_cut h with ⟨left, -, -, htail⟩ | ⟨left, rfl, htail⟩
  · exact Or.inr ⟨left, htail⟩
  · cases left with
    | nil => exact Or.inr ⟨[], htail.symm⟩
    | cons d left =>
      obtain ⟨rfl, hrest⟩ := List.cons.inj htail
      cases left with
      | nil => exact Or.inl ⟨rfl, hrest.symm⟩
      | cons e left =>
        obtain ⟨rfl, -⟩ := List.cons.inj hrest
        exact absurd (by simp) (not_mem_of_isBlankText hc hgap)

/-- A cut at the word `as` between two spaces is a cut at the word of the specifier. -/
theorem of_text_eq (h : specifier.text = front ++ (aliasWord ++ back)) :
    specifier.IsSpaced ∧ trim front = specifier.binding.imported ∧
      trim back = specifier.binding.localName := by
  have halias : aliasWord ++ back = ' ' :: 'a' :: 's' :: ' ' :: back := rfl
  rw [halias] at h
  cases specifier with
  | plain name =>
    have hname : name.text = front ++ ' ' :: 'a' :: 's' :: ' ' :: back := h
    exact absurd (by simp [hname]) name.space_not_mem
  | renamed imported before after localName _ hafter =>
    obtain ⟨inBefore, rfl, hrest⟩ := cut_behind imported.space_not_mem h
    rcases gap_cut before.isBlank (by decide) hrest with ⟨hbefore, hword⟩ | ⟨left, hword⟩
    · have htail : after.text ++ localName.text = ' ' :: back :=
        (List.cons.inj (List.cons.inj hword).2).2
      obtain ⟨d, inAfter, hcons⟩ := List.exists_cons_of_ne_nil hafter
      rw [hcons, List.cons_append] at htail
      obtain ⟨rfl, rfl⟩ := List.cons.inj htail
      have hinBefore := (isBlankText_append.mp (hbefore ▸ before.isBlank)).1
      have hinAfter : isBlankText inAfter = true := by
        have := after.isBlank
        rw [hcons, isBlankText, List.all_cons, Bool.and_eq_true] at this
        exact this.2
      have hfirst := trim_stretch isBlankText_nil imported.tight imported.ne_nil hinBefore
      have hsecond := trim_stretch hinAfter localName.tight localName.ne_nil isBlankText_nil
      rw [List.append_nil] at hsecond
      exact ⟨⟨List.getLast?_eq_some_iff.mpr ⟨inBefore, hbefore⟩,
        List.head?_eq_some_iff.mpr ⟨inAfter, hcons⟩⟩, hfirst, hsecond⟩
    · -- Behind the word the space would have to stand in the local name.
      have has : ' ' ∉ "as".toList := by decide
      obtain ⟨inTail, -, htail⟩ := cut_behind has hword
      have hmem : ' ' ∈ localName.text := by
        rcases gap_cut after.isBlank (by decide) htail with ⟨-, hname⟩ | ⟨inName, hname⟩
        · simp [hname]
        · simp [hname]
      exact absurd hmem localName.space_not_mem

/-- A specifier with spaces around its word has a cut there. -/
theorem exists_text_eq {imported localName : Identifier} {before after : Blanks}
    {hbefore : before.text ≠ []} {hafter : after.text ≠ []}
    (h : (renamed imported before after localName hbefore hafter).IsSpaced) :
    ∃ front back,
      (renamed imported before after localName hbefore hafter).text =
        front ++ (aliasWord ++ back) := by
  obtain ⟨inBefore, hlast⟩ := List.getLast?_eq_some_iff.mp h.1
  obtain ⟨inAfter, hfirst⟩ := List.head?_eq_some_iff.mp h.2
  refine ⟨imported.text ++ inBefore, inAfter ++ localName.text, ?_⟩
  rw [text, hlast, hfirst]
  simp [aliasWord]

/-- The text of an alias without spaces around its word is not one of its names. -/
theorem text_ne_localName {other : Specifier} (h : ¬ specifier.IsSpaced) :
    specifier.text ≠ other.binding.localName := by
  cases specifier with
  | plain name => exact absurd trivial h
  | renamed imported before after localName hbefore hafter =>
    intro heq
    obtain ⟨name, hname⟩ : ∃ name : Identifier, other.binding.localName = name.text := by
      cases other with
      | plain name => exact ⟨name, rfl⟩
      | renamed _ _ _ name _ _ => exact ⟨name, rfl⟩
    obtain ⟨d, rest, hcons⟩ := List.exists_cons_of_ne_nil hbefore
    have hd : isBlank d = true := List.all_eq_true.mp before.isBlank d (by simp [hcons])
    have hmem : d ∈ name.text := by
      rw [← hname, ← heq, text, hcons]
      simp
    rw [name.isBlank_eq_false hmem] at hd
    contradiction

/-- What a split at the word `as` between two spaces gives, whether at the first or the last one. -/
theorem split_cases {split : Option (Text × Text)}
    (hsome : ∀ {front back}, split = some (front, back) →
      front ++ aliasWord ++ back = specifier.text)
    (hnone : split = none → ∀ front back, specifier.text ≠ front ++ (aliasWord ++ back)) :
    (specifier.IsSpaced ∧ ((∃ front back, split = some (front, back) ∧
        trim front = specifier.binding.imported ∧ trim back = specifier.binding.localName) ∨
      (split = none ∧ specifier.binding = ⟨specifier.text, specifier.text⟩))) ∨
      (¬ specifier.IsSpaced ∧ split = none) := by
  cases hsplit : split with
  | some cut =>
    obtain ⟨front, back⟩ := cut
    have hcut := hsome hsplit
    rw [List.append_assoc] at hcut
    obtain ⟨hspaced, hnames⟩ := of_text_eq hcut.symm
    exact Or.inl ⟨hspaced, Or.inl ⟨front, back, rfl, hnames⟩⟩
  | none =>
    cases specifier with
    | plain name => exact Or.inl ⟨trivial, Or.inr ⟨rfl, rfl⟩⟩
    | renamed imported before after localName hbefore hafter =>
      refine Or.inr ⟨fun hspaced => ?_, rfl⟩
      obtain ⟨front, back, htext⟩ := exists_text_eq hspaced
      exact hnone hsplit front back htext

/-- A specifier is read as what it says exactly when its word stands between spaces. -/
theorem readSpecifier_text_eq_iff :
    readSpecifier specifier.text = specifier.binding ↔ specifier.IsSpaced := by
  unfold readSpecifier
  rcases @split_cases specifier _ splitFirst_eq_some (ne_append_of_splitFirst (by decide)) with
    ⟨hspaced, ⟨front, back, hsplit, hfront, hback⟩ | ⟨hsplit, hbinding⟩⟩ | ⟨hspaced, hsplit⟩
  · simp only [hsplit, hfront, hback, hspaced]
  · simp only [hsplit, hbinding, hspaced]
  · rw [hsplit]
    exact iff_of_false
      (fun heq => text_ne_localName hspaced (congrArg ImportBinding.localName heq)) hspaced

/-- What stands behind the last word of a specifier: its local name when the word stands between
spaces, and otherwise nothing is split off. -/
theorem lastLocalName_text (specifier : Specifier) :
    (specifier.IsSpaced ∧ lastLocalName specifier.text = specifier.binding.localName) ∨
      (¬ specifier.IsSpaced ∧ lastLocalName specifier.text = specifier.text) := by
  unfold lastLocalName
  rcases @split_cases specifier _ splitLast_eq_some (ne_append_of_splitLast (by decide)) with
    ⟨hspaced, ⟨front, back, hsplit, -, hback⟩ | ⟨hsplit, hbinding⟩⟩ | ⟨hspaced, hsplit⟩
  · exact Or.inl ⟨hspaced, by simp only [hsplit, hback]⟩
  · exact Or.inl ⟨hspaced, by simp only [hsplit, hbinding]⟩
  · exact Or.inr ⟨hspaced, by simp only [hsplit]⟩

end Specifier

/-! ### Braces -/

namespace Entries

/-- The text between the braces. -/
def text : Entries → Text
  | none blanks => blanks.text
  | last before specifier after => before.text ++ (specifier.text ++ after.text)
  | more before specifier after rest =>
    before.text ++ (specifier.text ++ after.text) ++ ',' :: rest.text

/-- The specifiers between the braces. -/
def specifiers : Entries → List Specifier
  | none _ => []
  | last _ specifier _ => [specifier]
  | more _ specifier _ rest => specifier :: rest.specifiers

/-- What stands between braces holds no mark but commas. -/
theorem not_mem (entries : Entries) (h : isMark c = true) (hcomma : c ≠ ',') :
    c ∉ entries.text := by
  induction entries with
  | none blanks => exact blanks.not_mem h
  | last before specifier after =>
    simp only [text, List.mem_append, before.not_mem h, specifier.not_mem h, after.not_mem h,
      or_self, not_false_eq_true]
  | more before specifier after rest ih =>
    simp only [text, List.mem_append, List.mem_cons, before.not_mem h, specifier.not_mem h,
      after.not_mem h, hcomma, ih, or_self, not_false_eq_true]

/-- The specifiers are found between the commas. -/
theorem specifiers_text (entries : Entries) :
    ImportStatement.specifiers entries.text = entries.specifiers.map Specifier.text := by
  have hcomma (before : Blanks) (specifier : Specifier) (after : Blanks) :
      ',' ∉ before.text ++ (specifier.text ++ after.text) := by
    have hmark : isMark ',' = true := by decide
    simp only [List.mem_append, before.not_mem hmark, specifier.not_mem hmark, after.not_mem hmark,
      or_self, not_false_eq_true]
  have htrim (before : Blanks) (specifier : Specifier) (after : Blanks) :
      trim (before.text ++ (specifier.text ++ after.text)) = specifier.text :=
    trim_stretch before.isBlank specifier.tight specifier.ne_nil after.isBlank
  have hkept (specifier : Specifier) (rest : List Text) :
      (specifier.text :: rest).filter (fun piece => !piece.isEmpty) =
        specifier.text :: rest.filter fun piece => !piece.isEmpty := by simp [specifier.ne_nil]
  unfold ImportStatement.specifiers
  induction entries with
  | none blanks =>
    have hblank : trim blanks.text = [] :=
      trim_eq_nil_iff.mpr (List.all_eq_true.mp blanks.isBlank)
    rw [text, splitAll_of_not_mem (blanks.not_mem (by decide)), List.map_singleton, hblank]
    rfl
  | last before specifier after =>
    rw [text, splitAll_of_not_mem (hcomma _ _ _), List.map_singleton, htrim,
      hkept]
    rfl
  | more before specifier after rest ih =>
    rw [text, splitAll_append (hcomma _ _ _), List.map_cons, htrim,
      hkept, ih]
    rfl

/-- The bindings between braces are read exactly when each word `as` stands between spaces. -/
theorem map_readSpecifier_eq_iff (entries : Entries) :
    (ImportStatement.specifiers entries.text).map readSpecifier =
        entries.specifiers.map Specifier.binding ↔
      ∀ specifier ∈ entries.specifiers, specifier.IsSpaced := by
  rw [specifiers_text, List.map_map, List.map_inj_left]
  simp only [Function.comp_apply, Specifier.readSpecifier_text_eq_iff]

/-- The local names that the specifiers say. -/
def localNames (entries : Entries) : List Text :=
  entries.specifiers.map fun specifier => specifier.binding.localName

/-- The local names of a named import are found, each once, exactly when each word `as` stands
between spaces. -/
theorem localNames_text_eq_iff (entries : Entries) :
    ImportStatement.localNames entries.text = entries.localNames.eraseDups ↔
      ∀ specifier ∈ entries.specifiers, specifier.IsSpaced := by
  rw [localNames_eq, specifiers_text, List.map_map]
  constructor
  · intro heq specifier hmem
    by_contra hspaced
    -- What is found for the alias holds blanks, so it is the local name of no specifier.
    have hlast : lastLocalName specifier.text = specifier.text := by
      rcases specifier.lastLocalName_text with ⟨h, -⟩ | ⟨-, hlast⟩
      · contradiction
      · exact hlast
    have hfound : specifier.text ∈
        (entries.specifiers.map (lastLocalName ∘ Specifier.text)).eraseDups :=
      List.mem_eraseDups.mpr (List.mem_map.mpr ⟨specifier, hmem, hlast⟩)
    rw [heq, List.mem_eraseDups] at hfound
    obtain ⟨other, -, hother⟩ := List.mem_map.mp hfound
    exact Specifier.text_ne_localName hspaced hother.symm
  · intro hspaced
    refine congrArg List.eraseDups (List.map_congr_left fun specifier hmem => ?_)
    rcases specifier.lastLocalName_text with ⟨-, hlast⟩ | ⟨h, -⟩
    · exact hlast
    · exact absurd (hspaced specifier hmem) h

end Entries

/-! ### Clauses -/

namespace Group

/-- The text of a group. -/
def text : Group → Text
  | star before after name =>
    '*' :: (before.text ++ ("as".toList ++ (after.text ++ name.text)))
  | braces entries => '{' :: (entries.text ++ ['}'])

/-- The bindings that a group says. -/
def bindings : Group → List ImportBinding
  | star _ _ name => [⟨namespaceName, name.text⟩]
  | braces entries => entries.specifiers.map Specifier.binding

/-- The specifiers of a group. -/
def specifiers : Group → List Specifier
  | star _ _ _ => []
  | braces entries => entries.specifiers

/-- A group is tight. -/
theorem tight (group : Group) : Tight group.text := by
  cases group with
  | star before after name =>
    have hstar : Tight ['*'] := tight_of_forall (eq_false_of_any (by decide))
    have happend := @Tight.append _ (before.text ++ ("as".toList ++ after.text)) _ hstar name.tight
      (List.cons_ne_nil _ _) name.ne_nil
    simpa [text] using happend
  | braces entries =>
    have hopen : Tight ['{'] := tight_of_forall (eq_false_of_any (by decide))
    have hclose : Tight ['}'] := tight_of_forall (eq_false_of_any (by decide))
    exact hopen.append hclose (List.cons_ne_nil _ _) (List.cons_ne_nil _ _)

/-- A group starts with its star or its brace. -/
theorem exists_cons (group : Group) : ∃ c rest, group.text = c :: rest ∧ (c = '*' ∨ c = '{') := by
  cases group with
  | star before after name => exact ⟨_, _, rfl, Or.inl rfl⟩
  | braces entries => exact ⟨_, _, rfl, Or.inr rfl⟩

/-- A group is not empty. -/
theorem ne_nil (group : Group) : group.text ≠ [] := by
  obtain ⟨c, rest, hcons, -⟩ := group.exists_cons
  rw [hcons]
  exact List.cons_ne_nil c rest

/-- A group holds no quote and no semicolon. -/
theorem not_mem (group : Group) (h : isQuote c = true ∨ c = ';') : c ∉ group.text := by
  have hmark : isMark c = true := by
    rcases h with h | rfl
    · exact isMark_of_isQuote h
    · decide
  have hne (d : Char) (hd : isQuote d = false) (hsemicolon : d ≠ ';') : c ≠ d := by
    rintro rfl
    rw [hd] at h
    exact h.elim (fun hquote => by contradiction) hsemicolon
  cases group with
  | star before after name =>
    simp only [text, List.mem_cons, List.mem_append, hne '*' rfl (by decide),
      before.not_mem hmark, not_mem_as hmark, after.not_mem hmark, name.not_mem hmark, or_self,
      not_false_eq_true]
  | braces entries =>
    simp only [text, List.mem_cons, List.mem_append, List.not_mem_nil,
      hne '{' rfl (by decide), hne '}' rfl (by decide),
      entries.not_mem hmark (hne ',' rfl (by decide)), or_self, not_false_eq_true]

/-- A group is read as what it says exactly when each word `as` stands between spaces. -/
theorem readNamed_text_eq_iff (group : Group) :
    readNamed group.text = group.bindings ↔ ∀ specifier ∈ group.specifiers, specifier.IsSpaced := by
  cases group with
  | star before after name =>
    have has : Tight "as".toList := tight_of_forall (eq_false_of_any (by decide))
    have hnamed : Tight ("as".toList ++ (after.text ++ name.text)) :=
      has.append name.tight (by decide) name.ne_nil
    have hword := trim_stretch before.isBlank hnamed (by simp) isBlankText_nil
    have hname := trim_stretch after.isBlank name.tight name.ne_nil isBlankText_nil
    rw [List.append_nil] at hword hname
    have hread : readNamespace (before.text ++ ("as".toList ++ (after.text ++ name.text))) =
        [⟨namespaceName, name.text⟩] := by
      rw [readNamespace, hword, dropWord?_append, Option.getD_some, hname]
    exact iff_of_true hread (by simp [specifiers])
  | braces entries =>
    change readBraces (entries.text ++ ['}']) = _ ↔ _
    rw [readBraces_concat]
    exact entries.map_readSpecifier_eq_iff

end Group

namespace Clause

/-- The text of a clause. -/
def text : Clause → Text
  | named name => name.text
  | grouped group => group.text
  | both name before after group =>
    name.text ++ (before.text ++ ',' :: (after.text ++ group.text))

/-- The bindings that a clause says. -/
def bindings : Clause → List ImportBinding
  | named name => [⟨defaultName, name.text⟩]
  | grouped group => group.bindings
  | both name _ _ group => ⟨defaultName, name.text⟩ :: group.bindings

/-- The specifiers of a clause. -/
def specifiers : Clause → List Specifier
  | named _ => []
  | grouped group => group.specifiers
  | both _ _ _ group => group.specifiers

/-- A clause is not empty. -/
theorem ne_nil (clause : Clause) : clause.text ≠ [] := by
  cases clause with
  | named name => exact name.ne_nil
  | grouped group => exact group.ne_nil
  | both name before after group => exact List.append_ne_nil_of_left_ne_nil name.ne_nil _

/-- A clause is tight. -/
theorem tight (clause : Clause) : Tight clause.text := by
  cases clause with
  | named name => exact name.tight
  | grouped group => exact group.tight
  | both name before after group =>
    have happend := @Tight.append _ (before.text ++ ',' :: after.text) _ name.tight group.tight
      name.ne_nil group.ne_nil
    simpa [text] using happend

/-- A clause holds no quote and no semicolon. -/
theorem not_mem (clause : Clause) (h : isQuote c = true ∨ c = ';') : c ∉ clause.text := by
  have hmark : isMark c = true := by
    rcases h with h | rfl
    · exact isMark_of_isQuote h
    · decide
  have hcomma : c ≠ ',' := by
    rintro rfl
    exact h.elim (fun hquote => by contradiction) (by decide)
  cases clause with
  | named name => exact name.not_mem hmark
  | grouped group => exact group.not_mem h
  | both name before after group =>
    simp only [text, List.mem_append, List.mem_cons, name.not_mem hmark, before.not_mem hmark,
      hcomma, after.not_mem hmark, group.not_mem h, or_self, not_false_eq_true]

/-- A clause that starts with an identifier has it for its default name. -/
theorem readClause_identifier (name : Identifier) (tail : Text) :
    readClause (name.text ++ tail) =
      ⟨defaultName, trim (name.text ++ tail.takeWhile (· ≠ ','))⟩ ::
        readNamed (trim ((tail.dropWhile (· ≠ ',')).drop 1)) := by
  have hall : ∀ c ∈ name.text, decide (c ≠ ',') = true := fun c hc =>
    decide_eq_true fun heq => name.not_mem (by decide) (heq ▸ hc)
  obtain ⟨c, rest, hcons⟩ := List.exists_cons_of_ne_nil name.ne_nil
  have hbrace : c ≠ '{' := by
    rintro rfl
    exact name.first (by rw [hcons]; rfl)
  have hstar : c ≠ '*' := by
    rintro rfl
    exact name.not_mem (by decide : isMark '*' = true) (by rw [hcons]; exact List.mem_cons_self)
  rw [hcons, List.cons_append, readClause_cons hbrace hstar, ← List.cons_append, ← hcons,
    List.takeWhile_append_of_pos hall, List.dropWhile_append_of_pos hall]

/-- A clause is read as what it says exactly when each word `as` stands between spaces. -/
theorem readClause_text_eq_iff (clause : Clause) :
    readClause clause.text = clause.bindings ↔
      ∀ specifier ∈ clause.specifiers, specifier.IsSpaced := by
  cases clause with
  | named name =>
    have hread := readClause_identifier name []
    rw [List.append_nil, List.takeWhile_nil, List.append_nil, trim_of_tight name.tight] at hread
    exact iff_of_true hread (by simp [specifiers])
  | grouped group =>
    have hread : readClause group.text = readNamed group.text := by
      obtain ⟨c, rest, hcons, rfl | rfl⟩ := group.exists_cons
      · rw [hcons]
        rfl
      · rw [hcons]
        rfl
    rw [text, hread]
    exact group.readNamed_text_eq_iff
  | both name before after group =>
    have hall : before.text.all (· ≠ ',') = true := List.all_eq_true.mpr fun c hc =>
      decide_eq_true fun heq => before.not_mem (by decide) (heq ▸ hc)
    have hstops (rest : Text) : Stops (fun c => decide (c ≠ ',')) (',' :: rest) :=
      stops_cons.mpr (by decide)
    have hname := trim_stretch isBlankText_nil name.tight name.ne_nil before.isBlank
    have hgroup := trim_stretch after.isBlank group.tight group.ne_nil isBlankText_nil
    rw [List.nil_append] at hname
    rw [List.append_nil] at hgroup
    rw [text, readClause_identifier, takeWhile_stretch hall (hstops _),
      dropWhile_stretch hall (hstops _), hname, List.drop_one, List.tail_cons, hgroup, bindings,
      List.cons.injEq, eq_self, true_and]
    exact group.readNamed_text_eq_iff

end Clause

/-! ### Statements -/

variable (layout : ImportLayout)

/-- What stands between the first word and the source. -/
def head : Text :=
  layout.afterWord.text ++ (layout.clause.text ++
    (layout.beforeFrom.text ++ ("from".toList ++ layout.afterFrom.text)))

/-- The text of a layout. -/
def text : Text :=
  layout.lead.text ++ ("import".toList ++
    (layout.head ++ layout.quote :: (layout.source ++ [layout.quote])))

/-- The statement that a layout says. -/
def statement : ImportStatement := ⟨layout.source, layout.clause.bindings⟩

/-- Whether each word `as` between the braces stands between two spaces. -/
def IsSpaced : Prop := ∀ specifier ∈ layout.clause.specifiers, specifier.IsSpaced

/-- The word in front of the source holds no mark. -/
theorem not_mem_from (h : isMark c = true) : c ∉ "from".toList := fun hmem => by
  rw [eq_false_of_any (by decide : List.any "from".toList isMark = false) c hmem] at h
  contradiction

/-- No quote stands in front of the source. -/
theorem not_isQuote_head : ∀ c ∈ layout.head, isQuote c = false := by
  intro c hc
  cases hquote : isQuote c with
  | false => rfl
  | true =>
    have hmark := isMark_of_isQuote hquote
    simp only [head, List.mem_append, layout.afterWord.not_mem hmark,
      layout.clause.not_mem (Or.inl hquote), layout.beforeFrom.not_mem hmark, not_mem_from hmark,
      layout.afterFrom.not_mem hmark, or_self] at hc

/-- The clause of a layout is what stands in front of its source. -/
theorem headBinds : HeadBinds layout.head (readClause layout.clause.text) := by
  have hfrom : beforeFrom? layout.head =
      some (layout.afterWord.text ++ (layout.clause.text ++ layout.beforeFrom.text)) :=
    beforeFrom?_eq_some_iff.mpr ⟨layout.afterFrom.text, layout.afterFrom.isBlank, by simp [head]⟩
  have hblank : isBlankText layout.head = false := by
    refine Bool.eq_false_iff.mpr fun hblank => ?_
    have hf : 'f' ∈ layout.head := by simp [head]
    exact not_mem_of_isBlankText (by decide) hblank hf
  have hsemicolon :
      ';' ∉ layout.afterWord.text ++ (layout.clause.text ++ layout.beforeFrom.text) := by
    have hmark : isMark ';' = true := by decide
    simp only [List.mem_append, layout.afterWord.not_mem hmark,
      layout.clause.not_mem (Or.inr rfl), layout.beforeFrom.not_mem hmark, or_self,
      not_false_eq_true]
  have hbinds := HeadBinds.clause hblank hfrom hsemicolon
  rwa [trim_stretch layout.afterWord.isBlank layout.clause.tight layout.clause.ne_nil
    layout.beforeFrom.isBlank] at hbinds

/-- A layout with a source is read as that source and what its clause is read as. -/
theorem parse?_text (hne : layout.source ≠ []) (after : Text) :
    parse? (layout.text ++ after) = some ⟨layout.source, readClause layout.clause.text⟩ := by
  have hquoted : IsQuoted (layout.head ++ layout.quote :: (layout.source ++ layout.quote :: after))
      layout.head layout.source after :=
    .intro layout.isQuote_quote layout.isQuote_quote layout.not_isQuote_head hne
      layout.source_quotes
  exact parse?_eq_some_iff.mpr ⟨layout.lead.text, _, layout.head, after, layout.lead.isBlank,
    by simp [text], hquoted, layout.headBinds⟩

/-- A layout is read as what it says exactly when it has a source and each word `as` between the
braces stands between two spaces. -/
theorem parse?_text_eq_iff (after : Text) :
    parse? (layout.text ++ after) = some layout.statement ↔
      layout.source ≠ [] ∧ layout.IsSpaced := by
  constructor
  · intro h
    have hne : layout.source ≠ [] := (isSource_of_parse? h).ne_nil
    rw [layout.parse?_text hne, statement, Option.some.injEq, ImportStatement.mk.injEq] at h
    exact ⟨hne, layout.clause.readClause_text_eq_iff.mp h.2⟩
  · rintro ⟨hne, hspaced⟩
    rw [layout.parse?_text hne, layout.clause.readClause_text_eq_iff.mpr hspaced, statement]

/-! ### The runtime import -/

section Runtime

variable {layout : ImportLayout} {entries : Entries} {after : Text}

/-- The text of a layout of named bindings, cut at its braces. -/
theorem text_braces (hclause : layout.clause = .grouped (.braces entries)) (after : Text) :
    layout.text ++ after = layout.lead.text ++ ("import".toList ++ (layout.afterWord.text ++ '{' ::
      (entries.text ++ '}' :: (layout.beforeFrom.text ++ ("from".toList ++
        (layout.afterFrom.text ++ layout.quote :: (layout.source ++ layout.quote :: after))))))) := by
  simp [text, head, hclause, Clause.text, Group.text]

/-- Statements with braces that have one text have one text behind the opening brace. -/
theorem eq_behind_brace {spaces blanks spaces' blanks' rest rest' : Text}
    (hspaces : isBlankText spaces = true) (hblanks : isBlankText blanks = true)
    (hspaces' : isBlankText spaces' = true) (hblanks' : isBlankText blanks' = true)
    (h : spaces ++ ("import".toList ++ (blanks ++ '{' :: rest)) =
      spaces' ++ ("import".toList ++ (blanks' ++ '{' :: rest'))) : rest = rest' := by
  have hfront {front back : Text} (hfront : isBlankText front = true)
      (hback : isBlankText back = true) : '{' ∉ front ++ ("import".toList ++ back) := by
    have hbrace : isBlank '{' = false := by decide
    simp [not_mem_of_isBlankText hbrace hfront, not_mem_of_isBlankText hbrace hback]
  have hassoc (front back tail : Text) : front ++ ("import".toList ++ (back ++ '{' :: tail)) =
      front ++ ("import".toList ++ back) ++ '{' :: tail := by simp
  rw [hassoc, hassoc] at h
  exact (cut_unique (hfront hspaces hblanks) (hfront hspaces' hblanks') h).2

/-- A named import that is read where a layout stands has the text between the braces of the layout,
and no closing brace stands in it. -/
theorem eq_of_isNamedImport (hclause : layout.clause = .grouped (.braces entries))
    {value : NamedImport} {rest : Text} (h : IsNamedImport (layout.text ++ after) value rest) :
    value.names = entries.text ∧ '}' ∉ entries.text := by
  rw [text_braces hclause] at h
  generalize htext : layout.lead.text ++ ("import".toList ++ (layout.afterWord.text ++ '{' ::
    (entries.text ++ '}' :: (layout.beforeFrom.text ++ ("from".toList ++
      (layout.afterFrom.text ++ layout.quote :: (layout.source ++ layout.quote :: after))))))) =
        text at h
  obtain ⟨hspaces, hblanks, hnames, hgap, hspace, hopening, -, -, -⟩ := h
  rename_i spaces blanks names gap space source behind opening closing
  have hbraces := eq_behind_brace layout.lead.isBlank layout.afterWord.isBlank
    (isBlankText_of_spaces hspaces).1 hblanks htext
  obtain ⟨left, hleft, hbehind⟩ := cut_behind hnames hbraces.symm
  cases left with
  | nil =>
    rw [List.append_nil] at hleft
    exact ⟨hleft.symm, hleft ▸ hnames⟩
  | cons d left =>
    -- The quote of the source would stand in front of the closing brace of the layout.
    obtain ⟨rfl, hrest⟩ := List.cons.inj hbehind
    have hbrace : '}' ∉ gap ++ ("from".toList ++ (space ++ [opening])) := by
      have hblank : isBlank '}' = false := by decide
      have hne : '}' ≠ opening := by
        rintro rfl
        contradiction
      simp [not_mem_of_isBlankText hblank hgap, not_mem_of_isBlankText hblank hspace, hne]
    have hcut : gap ++ ("from".toList ++ (space ++ [opening])) ++ (source ++ closing :: behind) =
        left ++ '}' :: (layout.beforeFrom.text ++ ("from".toList ++ (layout.afterFrom.text ++
          layout.quote :: (layout.source ++ layout.quote :: after)))) := by
      refine Eq.trans ?_ hrest
      simp
    obtain ⟨inside, rfl, -⟩ := cut_behind hbrace hcut
    have hcomma : opening ≠ ',' := by
      rintro rfl
      contradiction
    exact absurd (by simp [hleft]) (entries.not_mem (isMark_of_isQuote hopening) hcomma)

/-- A layout of named bindings with a source is read as a named import, when no closing brace stands
between its braces and it starts with spaces. -/
theorem exists_readNamedImport?_text (hclause : layout.clause = .grouped (.braces entries))
    (hlead : layout.lead.text.all isSpaceOrTab = true) (hne : layout.source ≠ [])
    (hbrace : '}' ∉ entries.text) (after : Text) :
    ∃ rest, readNamedImport? (layout.text ++ after) =
      some (⟨entries.text, layout.source⟩, rest) := by
  rw [text_braces hclause]
  exact ⟨_, readNamedImport?_eq_some_iff.mpr (.intro hlead layout.afterWord.isBlank hbrace
    layout.beforeFrom.isBlank layout.afterFrom.isBlank layout.isQuote_quote layout.isQuote_quote
    hne layout.source_quotes)⟩

/-- The runtime import of a module with a layout of named bindings as its only one is found there,
with the local names of the layout, each once, exactly when the layout has a source, each word `as`
stands between two spaces, no closing brace stands in a name, and the scan comes to the layout. -/
theorem exists_runtimeImport_iff {contract : OutputContract} {before : Text}
    (hclause : layout.clause = .grouped (.braces entries))
    (hlead : layout.lead.text.all isSpaceOrTab = true) (hline : startsLine true before = true)
    (hsource : layout.source = contract.runtimeModule.toList)
    (honly : ∀ place ∈ contract.runtimeImports (before ++ (layout.text ++ after)),
      place.before = before) :
    (∃ found, contract.runtimeImport (before ++ (layout.text ++ after)) = .ok found ∧
        found.identifiers = entries.localNames.eraseDups) ↔
      layout.source ≠ [] ∧ layout.IsSpaced ∧ '}' ∉ entries.text ∧
        ComesTo namedImport (before ++ (layout.text ++ after)) before := by
  have hspaced : layout.IsSpaced ↔ ∀ specifier ∈ entries.specifiers, specifier.IsSpaced := by
    rw [IsSpaced, hclause, Clause.specifiers, Group.specifiers]
  rw [hspaced, ← entries.localNames_text_eq_iff]
  constructor
  · rintro ⟨found, hfound, hidentifiers⟩
    obtain ⟨hplaces, hnames⟩ := runtimeImport_eq_ok_iff.mp hfound
    have hmem := hplaces ▸ List.mem_singleton_self found.place
    obtain ⟨hmodule, hnamed, front, back, hscan, hfront, hback⟩ := exists_of_mem_runtimeImports hmem
    rw [honly _ hmem] at hfront
    have htext : found.place.text ++ found.place.after = layout.text ++ after := by
      have hcode := OutputContract.runtimeImport_split hfound
      rw [honly _ hmem, List.append_assoc] at hcode
      exact List.append_cancel_left hcode
    rw [htext] at hnamed
    obtain ⟨hentries, hbrace⟩ := eq_of_isNamedImport hclause hnamed
    rw [hentries] at hnames
    refine ⟨?_, hnames.symm.trans hidentifiers, hbrace, front, _, hscan, hfront⟩
    rw [hsource]
    exact (isSource_of_runtimeImport hfound).ne_nil
  · rintro ⟨hne, hnames, hbrace, hcomes⟩
    obtain ⟨rest, hread⟩ := exists_readNamedImport?_text hclause hlead hne hbrace after
    have hreader : namedImport (startsLine true before) (layout.text ++ after) =
        some (⟨entries.text, layout.source⟩, rest) := by rw [namedImport, if_pos hline, hread]
    obtain ⟨taken, htaken, htext⟩ := namedImport_advances _ _ _ _ hreader
    rw [htext] at hreader hcomes honly ⊢
    have hmem : ⟨before, taken, rest, ⟨entries.text, layout.source⟩⟩ ∈
        contract.runtimeImports (before ++ (taken ++ rest)) :=
      List.mem_filter.mpr ⟨hcomes.mem_locations namedImport_advances htaken hreader,
        decide_eq_true hsource⟩
    exact ⟨⟨_, _⟩, runtimeImport_eq_ok_iff.mpr ⟨runtimeImports_eq_singleton hmem honly, rfl⟩, hnames⟩

end Runtime

/-- What the readers take an import statement for, in whatever layout it is written. -/
structure IsRead (layout : ImportLayout) : Prop where
  /-- It is read as its source and its bindings exactly when it has a source and each word `as`
  between braces stands between two spaces. -/
  parse_iff : ∀ after, parse? (layout.text ++ after) = some layout.statement ↔
    layout.source ≠ [] ∧ layout.IsSpaced
  /-- As the only named import from the runtime module, at the start of a line, it is found with its
  local names exactly when in addition no closing brace stands in a name and no other named import
  reaches across its start. -/
  runtime_iff : ∀ (contract : OutputContract) (before after : Text) (entries : Entries),
    layout.clause = .grouped (.braces entries) → layout.lead.text.all isSpaceOrTab = true →
    startsLine true before = true → layout.source = contract.runtimeModule.toList →
    (∀ place ∈ contract.runtimeImports (before ++ (layout.text ++ after)), place.before = before) →
      ((∃ found, contract.runtimeImport (before ++ (layout.text ++ after)) = .ok found ∧
          found.identifiers = entries.localNames.eraseDups) ↔
        layout.source ≠ [] ∧ layout.IsSpaced ∧ '}' ∉ entries.text ∧
          ComesTo namedImport (before ++ (layout.text ++ after)) before)

/-- Every layout is read up to the blanks beside the word `as`, an empty source and closing braces
in names. -/
theorem isRead (layout : ImportLayout) : layout.IsRead where
  parse_iff := layout.parse?_text_eq_iff
  runtime_iff _ _ _ _ hclause hlead hline hsource honly :=
    exists_runtimeImport_iff hclause hlead hline hsource honly

/-- An alias with a tab in front of its word, between braces that stand right behind the first word
and in front of the last one. -/
def tabAlias : ImportLayout where
  lead := ⟨[], rfl⟩
  afterWord := ⟨[], rfl⟩
  clause := .grouped (.braces (.last ⟨[], rfl⟩
    (.renamed ⟨['a'], List.cons_ne_nil _ _, List.all_eq_true.mp rfl, by decide⟩
      ⟨['\t'], rfl⟩ ⟨[' '], rfl⟩ ⟨['b'], List.cons_ne_nil _ _, List.all_eq_true.mp rfl, by decide⟩
      (List.cons_ne_nil _ _) (List.cons_ne_nil _ _)) ⟨[], rfl⟩))
  beforeFrom := ⟨[], rfl⟩
  afterFrom := ⟨[], rfl⟩
  quote := '\''
  source := "m".toList
  isQuote_quote := rfl
  source_quotes := eq_false_of_any rfl

/-- The tab hides the alias from the reader, also where the names are imported from the runtime
module. -/
theorem isRead_tabAlias :
    tabAlias.text = "import\x7ba\tas b\x7dfrom'm'".toList ∧ ¬ tabAlias.IsSpaced ∧
      parse? tabAlias.text = some ⟨"m".toList, [⟨"a\tas b".toList, "a\tas b".toList⟩]⟩ ∧
      parse? tabAlias.text ≠ some tabAlias.statement ∧
      ¬ ∃ found, OutputContract.runtimeImport { runtimeModule := "m" } tabAlias.text = .ok found ∧
        found.identifiers = [['b']] := by
  have hspaced : ¬ tabAlias.IsSpaced := fun h =>
    absurd (h _ (List.mem_singleton_self _)).1 (by decide)
  have htext : tabAlias.text ++ [] = tabAlias.text := List.append_nil _
  have honly : ∀ place ∈ OutputContract.runtimeImports { runtimeModule := "m" }
      (([] : Text) ++ (tabAlias.text ++ [])), place.before = [] := by decide +kernel
  have hruntime := (isRead tabAlias).runtime_iff { runtimeModule := "m" } [] [] _ rfl rfl rfl rfl honly
  rw [List.nil_append, htext] at hruntime
  refine ⟨by decide, hspaced, by decide +kernel, fun hread => ?_, fun hfound => ?_⟩
  · rw [← htext] at hread
    exact hspaced ((isRead tabAlias).parse_iff [] |>.mp hread).2
  · exact hspaced (hruntime.mp hfound).2.1

end ImportLayout

end InlineComponents
