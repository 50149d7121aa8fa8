import InlineComponents.FilePath
import InlineComponents.Proofs.Text.Spans
import Mathlib.Data.List.DropRight

/-!
# Folders and names

A path that ends in a name leads from its enclosing folder to that name, whatever idle pieces are
written in between or behind. Putting another name in the place of the last one gives a path from
the same folder. The enclosing folder is written without idle pieces at its end, and a name behind
such a folder has it for its enclosing folder again.
-/

namespace InlineComponents

open Text

namespace Text

/-- Each further piece of a joined text has the separator in front of it. -/
theorem joinWith_cons_eq_flatMap (separator piece : Text) (rest : List Text) :
    joinWith separator (piece :: rest) = piece ++ rest.flatMap (separator ++ ·) := by
  induction rest generalizing piece with
  | nil => simp [joinWith]
  | cons next rest ih => rw [joinWith, ih, List.flatMap_cons, List.append_assoc, List.append_assoc]

/-- A joined text around one of its pieces. -/
theorem joinWith_append_cons (separator piece : Text) (front back : List Text) :
    joinWith separator (front ++ piece :: back) =
      front.flatMap (· ++ separator) ++ piece ++ back.flatMap (separator ++ ·) := by
  induction front with
  | nil => exact joinWith_cons_eq_flatMap separator piece back
  | cons first rest ih =>
    obtain ⟨next, others, hrest⟩ : ∃ next others, rest ++ piece :: back = next :: others :=
      List.exists_cons_of_ne_nil (by simp)
    rw [List.cons_append, hrest, joinWith, ← hrest, ih, List.flatMap_cons]
    simp only [List.append_assoc]

/-- Pieces that were joined with a separator are found again, if none of them holds it. -/
theorem splitAll_joinWith {separator : Char} {pieces : List Text} (hne : pieces ≠ [])
    (h : ∀ piece ∈ pieces, separator ∉ piece) :
    splitAll separator (joinWith [separator] pieces) = pieces := by
  induction pieces with
  | nil => contradiction
  | cons piece rest ih =>
    have hpiece := h piece List.mem_cons_self
    cases rest with
    | nil => exact splitAll_of_not_mem hpiece
    | cons next rest =>
      rw [joinWith, List.append_assoc, List.singleton_append, splitAll_append hpiece]
      rw [ih (List.cons_ne_nil next rest) fun other hother =>
        h other (List.mem_cons_of_mem piece hother)]

end Text

namespace FilePath

/-- A path is its anchor followed by its pieces. -/
theorem anchor_append_pieces (path : FilePath) :
    path.anchor.text ++ Text.joinWith ['/'] path.pieces = path.text := by
  rw [pieces, Text.joinWith_splitAll]
  have hanchor : path.anchor.text <+: path.text := by
    unfold anchor
    split <;> simp_all [Anchor.text]
  obtain ⟨rest, hrest⟩ := hanchor
  rw [← hrest, List.drop_left]

/-- A path is what stands before its last piece, the piece, and what stands behind it. -/
theorem text_of_ending? {path : FilePath} {ending : Ending} (h : path.ending? = some ending) :
    path.text = ending.before ++ ending.piece ++ ending.after := by
  unfold ending? at h
  split at h
  · contradiction
  · rename_i piece rest hrest
    obtain rfl := Option.some.inj h
    have hreversed : path.pieces.reverse.takeWhile isIdle ++ piece :: rest =
        path.pieces.reverse := by
      rw [← hrest, List.takeWhile_append_dropWhile]
    generalize path.pieces.reverse.takeWhile isIdle = idle at hreversed ⊢
    have hpieces : path.pieces = rest.reverse ++ piece :: idle.reverse := by
      rw [← List.reverse_inj, ← hreversed]
      simp
    rw [← anchor_append_pieces path, hpieces, Text.joinWith_append_cons]
    simp only [List.append_assoc, List.singleton_append]

/-- A name with an extension is cut at its last dot, which does not stand at its front. -/
theorem splitName_eq_iff {name stem extension : Text} :
    splitName name = (stem, some extension) ↔
      name = stem ++ '.' :: extension ∧ stem ≠ [] ∧ '.' ∉ extension := by
  unfold splitName
  constructor
  · intro h
    split at h
    · simp at h
    · rename_i front back hfront hsplit
      obtain ⟨rfl, hback⟩ := Prod.mk.inj h
      obtain rfl := Option.some.inj hback
      obtain ⟨hcut, hdot⟩ := splitLast_eq_some_iff.mp hsplit
      exact ⟨hcut, hfront, hdot⟩
    · simp at h
  · rintro ⟨hcut, hstem, hdot⟩
    rw [splitLast_eq_some_iff.mpr ⟨hcut, hdot⟩]
    obtain ⟨c, rest, rfl⟩ := List.exists_cons_of_ne_nil hstem
    rfl

variable {path folder : FilePath} {name : Text}

/-! ### Pieces behind a folder -/

/-- Where a path starts is seen in front of its later slashes. -/
theorem anchor_append {front : Text} (hne : front ≠ []) (back : Text) :
    anchor ⟨front ++ '/' :: back⟩ = anchor ⟨front⟩ := by
  cases front with
  | nil => contradiction
  | cons c rest =>
    cases rest with
    | nil =>
      by_cases hdot : c = '.'
      · subst hdot
        rfl
      · unfold anchor
        split <;> simp_all
    | cons d rest =>
      unfold anchor
      split <;> simp_all

/-- An anchor takes one character at most. -/
theorem length_anchor_le (path : FilePath) : path.anchor.text.length ≤ 1 := by
  cases path.anchor <;> decide

/-- What is written behind a slash adds its own pieces. -/
theorem pieces_append {front : Text} (hne : front ≠ []) (back : Text) :
    pieces ⟨front ++ '/' :: back⟩ = pieces ⟨front⟩ ++ splitAll '/' back := by
  have hlength : (anchor ⟨front⟩).text.length ≤ front.length :=
    Nat.le_trans (length_anchor_le _) (List.length_pos_iff.mpr hne)
  rw [pieces, anchor_append hne, List.drop_append_of_le_length hlength, splitAll_append_cons]
  rfl

/-- A piece of a path holds no slash. -/
theorem slash_not_mem_pieces {piece : Text} (h : piece ∈ path.pieces) : '/' ∉ piece :=
  fun hslash => (exists_mem_splitAll_iff.mp ⟨piece, h, hslash⟩).2 rfl

/-- A text that may name a file: a single piece, neither idle nor the step upward. -/
structure IsFileName (name : Text) : Prop where
  slash : '/' ∉ name
  isIdle_eq_false : isIdle name = false
  ne_upward : name ≠ upward

/-- A name alone has no anchor. -/
theorem IsFileName.anchor_eq (h : IsFileName name) : anchor ⟨name⟩ = .none := by
  obtain ⟨hslash, hidle, -⟩ := h
  unfold anchor
  split <;> rename_i heq
  · obtain rfl : name = '/' :: _ := heq
    exact absurd List.mem_cons_self hslash
  · obtain rfl : name = ['.'] := heq
    contradiction
  · obtain rfl : name = '.' :: '/' :: _ := heq
    exact absurd (List.mem_cons_of_mem _ List.mem_cons_self) hslash
  · rfl

/-- A name alone is the only piece. -/
theorem IsFileName.pieces_eq (h : IsFileName name) : pieces ⟨name⟩ = [name] := by
  rw [pieces, h.anchor_eq]
  exact splitAll_of_not_mem h.slash

/-- A name is joined to a folder with a slash, unless the folder is empty or brings one. -/
theorem IsFileName.join_eq (h : IsFileName name) (folder : FilePath) :
    folder.join ⟨name⟩ =
      if folder.text = [] || folder.text.getLast? = some '/' then ⟨folder.text ++ name⟩
      else ⟨folder.text ++ '/' :: name⟩ := by
  unfold join
  split
  · rename_i rest heq
    obtain rfl : name = '/' :: rest := heq
    exact absurd List.mem_cons_self h.slash
  · rfl

/-- A name behind a folder is the next piece; an empty piece at the end of the folder gives way. -/
theorem IsFileName.join_spec (h : IsFileName name) (folder : FilePath) :
    (folder.join ⟨name⟩).anchor = folder.anchor ∧
      ∃ front, (folder.join ⟨name⟩).pieces = front ++ [name] ∧
        (folder.pieces = front ∨ folder.pieces = front ++ [[]]) := by
  obtain ⟨text⟩ := folder
  rw [h.join_eq]
  by_cases hnil : text = []
  · subst hnil
    exact ⟨h.anchor_eq, [], h.pieces_eq, .inr rfl⟩
  by_cases hlast : text.getLast? = some '/'
  · obtain ⟨front, rfl⟩ := List.getLast?_eq_some_iff.mp hlast
    rw [if_pos (by simp), List.append_assoc, List.singleton_append]
    by_cases hfront : front = []
    · subst hfront
      exact ⟨rfl, [], splitAll_of_not_mem h.slash, .inr rfl⟩
    · rw [anchor_append hfront, anchor_append hfront, pieces_append hfront, pieces_append hfront,
        splitAll_of_not_mem h.slash]
      exact ⟨rfl, _, rfl, .inr rfl⟩
  · rw [if_neg (by simp [hnil, hlast]), anchor_append hnil, pieces_append hnil,
      splitAll_of_not_mem h.slash]
    exact ⟨rfl, _, rfl, .inl rfl⟩

/-! ### The way to a name -/

/-- A folder with no idle pieces to take away from its end. -/
def IsTrimmed (folder : FilePath) : Prop := folderOf folder.anchor folder.pieces.reverse = folder

/-- A path leads to a name in a folder. -/
structure LeadsTo (path folder : FilePath) (name : Text) : Prop where
  fileName : path.fileName? = some name
  parent : path.parent? = some folder
  components : path.components = folder.components ++ [.name name]

/-- Idle pieces do not count for the enclosing folders. -/
theorem enclosing_dropWhile (start : Anchor) (reversed : List Text) :
    enclosing start (reversed.dropWhile isIdle) = enclosing start reversed := by
  induction reversed with
  | nil => rfl
  | cons piece rest ih =>
    cases hidle : isIdle piece with
    | true => rw [List.dropWhile_cons_of_pos hidle, ih, enclosing, if_pos hidle]
    | false => rw [List.dropWhile_cons_of_neg (by simp [hidle])]

/-- A piece behind idle ones is not idle. -/
theorem isIdle_eq_false_of_dropWhile {reversed rest : List Text}
    (h : reversed.dropWhile isIdle = name :: rest) : isIdle name = false := by
  have hfirst := List.head?_dropWhile_not isIdle reversed
  rw [h] at hfirst
  exact hfirst

/-- A file name is the last piece that is not idle. -/
theorem fileName?_eq_some_iff :
    path.fileName? = some name ↔
      ∃ rest, path.pieces.reverse.dropWhile isIdle = name :: rest ∧ name ≠ upward := by
  unfold fileName? ending?
  cases path.pieces.reverse.dropWhile isIdle with
  | nil => simp
  | cons piece rest =>
    by_cases hup : piece = upward
    · simp only [hup, ↓reduceIte, reduceCtorEq, List.cons.injEq, false_iff, not_exists, not_and]
      rintro - ⟨rfl, -⟩ hne
      exact hne rfl
    · simp only [hup, ↓reduceIte, Option.some.injEq, List.cons.injEq]
      constructor
      · rintro rfl
        exact ⟨rest, ⟨rfl, rfl⟩, hup⟩
      · rintro ⟨-, ⟨rfl, -⟩, -⟩
        rfl

/-- The name of a file may name a file. -/
theorem isFileName_of_fileName? (h : path.fileName? = some name) : IsFileName name := by
  obtain ⟨rest, hpieces, hup⟩ := fileName?_eq_some_iff.mp h
  have hmem : name ∈ path.pieces.reverse.dropWhile isIdle := hpieces ▸ List.mem_cons_self
  exact ⟨slash_not_mem_pieces (List.mem_reverse.mp ((List.dropWhile_suffix _).subset hmem)),
    isIdle_eq_false_of_dropWhile hpieces, hup⟩

/-- The enclosing folder of a path has the pieces in front of the last one that is not idle. -/
theorem parent?_of_dropWhile {rest : List Text}
    (h : path.pieces.reverse.dropWhile isIdle = name :: rest) :
    path.parent? = some (folderOf path.anchor rest) := by
  have hidle : ¬ isIdle name = true := by simp [isIdle_eq_false_of_dropWhile h]
  rw [parent?, ← enclosing_dropWhile, h, enclosing, if_neg hidle]
  rfl

/-- A front of a path that ends before a slash is a path of the same anchor with the pieces up to
there. -/
theorem front_spec {front more : List Text} {last : Text} (hlast : isIdle last = false)
    (hmore : more ≠ []) (h : path.pieces = front ++ last :: more) :
    anchor ⟨path.anchor.text ++ joinWith ['/'] (front ++ [last])⟩ = path.anchor ∧
      pieces ⟨path.anchor.text ++ joinWith ['/'] (front ++ [last])⟩ = front ++ [last] := by
  obtain ⟨next, others, rfl⟩ := List.exists_cons_of_ne_nil hmore
  have hne : path.anchor.text ++ joinWith ['/'] (front ++ [last]) ≠ [] := by
    have hnil : last ≠ [] := fun hnil => by simp [hnil, isIdle] at hlast
    simp [joinWith_append_cons, hnil]
  have hpath : path.text = path.anchor.text ++ joinWith ['/'] (front ++ [last]) ++
      '/' :: joinWith ['/'] (next :: others) := by
    rw [← anchor_append_pieces path, h, joinWith_append_cons, joinWith_append_cons,
      joinWith_cons_eq_flatMap]
    simp
  have hanchor : anchor ⟨path.anchor.text ++ joinWith ['/'] (front ++ [last])⟩ = path.anchor := by
    rw [← anchor_append hne (joinWith ['/'] (next :: others)), ← hpath]
  refine ⟨hanchor, ?_⟩
  rw [pieces, hanchor, List.drop_left]
  refine splitAll_joinWith (by simp) fun piece hpiece => ?_
  have hmem : piece ∈ path.pieces := by
    rw [h, ← List.singleton_append, ← List.append_assoc]
    exact List.mem_append_left _ hpiece
  exact slash_not_mem_pieces hmem

/-- The idle pieces in front of others are those that are dropped. -/
theorem exists_idle (reversed : List Text) :
    ∃ idle, (∀ piece ∈ idle, isIdle piece = true) ∧
      reversed = idle ++ reversed.dropWhile isIdle :=
  ⟨reversed.takeWhile isIdle, List.all_eq_true.mp List.all_takeWhile,
    List.takeWhile_append_dropWhile.symm⟩

/-- The steps that pieces stand for. -/
def stepsOf (pieces : List Text) : List Component :=
  (pieces.filter fun piece => !isIdle piece).map fun piece =>
    if piece = upward then .up else .name piece

/-- Pieces one after the other stand for steps one after the other. -/
theorem stepsOf_append (front back : List Text) :
    stepsOf (front ++ back) = stepsOf front ++ stepsOf back := by
  rw [stepsOf, List.filter_append, List.map_append]
  rfl

/-- Idle pieces stand for no step. -/
theorem stepsOf_idle {idle : List Text} (h : ∀ piece ∈ idle, isIdle piece = true) :
    stepsOf idle = [] := by
  rw [stepsOf, List.filter_eq_nil_iff.mpr fun piece hpiece => by simp [h piece hpiece]]
  rfl

/-- A file name stands for the step to it. -/
theorem IsFileName.stepsOf_eq (h : IsFileName name) : stepsOf [name] = [.name name] := by
  simp [stepsOf, h.isIdle_eq_false, h.ne_upward]

/-- A path has its first step in common with all paths of its anchor. -/
theorem components_eq_of_anchor {back : List Component} (hanchor : path.anchor = folder.anchor)
    (hsteps : stepsOf path.pieces = stepsOf folder.pieces ++ back) :
    path.components = folder.components ++ back := by
  unfold components
  rw [hanchor, List.append_assoc]
  exact congrArg _ hsteps

/-- The folder made of the pieces in front of others has their anchor. Its pieces are those that are
left when the idle ones at the end are dropped, or a single empty one. -/
theorem folderOf_spec {rest others : List Text} (hne : others ≠ [])
    (h : path.pieces = rest.reverse ++ others) :
    (folderOf path.anchor rest).anchor = path.anchor ∧
      ((folderOf path.anchor rest).pieces = (rest.dropWhile isIdle).reverse ∨
        rest.dropWhile isIdle = [] ∧ (folderOf path.anchor rest).pieces = [[]]) := by
  obtain ⟨between, -, hrest⟩ := exists_idle rest
  unfold folderOf
  cases hkept : rest.dropWhile isIdle with
  | nil =>
    have hempty : anchor ⟨path.anchor.text ++ joinWith ['/'] []⟩ = path.anchor ∧
        pieces ⟨path.anchor.text ++ joinWith ['/'] []⟩ = [[]] := by
      cases path.anchor <;> exact ⟨rfl, rfl⟩
    exact ⟨hempty.1, .inr ⟨rfl, hempty.2⟩⟩
  | cons last kept =>
    have hpieces : path.pieces = kept.reverse ++ last :: (between.reverse ++ others) := by
      rw [h, hrest, hkept]
      simp
    obtain ⟨hanchor, hfront⟩ := front_spec (isIdle_eq_false_of_dropWhile hkept) (by simp [hne]) hpieces
    rw [List.reverse_cons]
    exact ⟨hanchor, .inl hfront⟩

/-- A path with a name leads to it from a folder without idle pieces at its end. -/
theorem exists_leadsTo (h : path.fileName? = some name) :
    ∃ folder, folder.IsTrimmed ∧ path.LeadsTo folder name := by
  obtain ⟨rest, hpieces, -⟩ := fileName?_eq_some_iff.mp h
  obtain ⟨behind, hbehind, hreverse⟩ := exists_idle path.pieces.reverse
  obtain ⟨between, hbetween, hrest⟩ := exists_idle rest
  rw [hpieces] at hreverse
  have hpath : path.pieces = rest.reverse ++ ([name] ++ behind.reverse) := by
    rw [← List.reverse_reverse path.pieces, hreverse]
    simp
  obtain ⟨hanchor, hfolder⟩ := folderOf_spec (by simp) hpath
  refine ⟨folderOf path.anchor rest, ?_, h, parent?_of_dropWhile hpieces,
    components_eq_of_anchor hanchor.symm ?_⟩
  · rw [IsTrimmed, hanchor]
    rcases hfolder with hkept | ⟨hkept, hempty⟩
    · rw [hkept, List.reverse_reverse, folderOf, List.dropWhile_idempotent]
      rfl
    · rw [hempty, folderOf, folderOf, hkept]
      rfl
  · have hbehindSteps : stepsOf behind.reverse = [] :=
      stepsOf_idle fun piece hpiece => hbehind piece (List.mem_reverse.mp hpiece)
    have hbetweenSteps : stepsOf between.reverse = [] :=
      stepsOf_idle fun piece hpiece => hbetween piece (List.mem_reverse.mp hpiece)
    have hrestSteps : stepsOf rest.reverse = stepsOf (rest.dropWhile isIdle).reverse := by
      rw [hrest, List.reverse_append, stepsOf_append, hbetweenSteps, List.append_nil, ← hrest]
    rw [hpath, stepsOf_append, stepsOf_append, (isFileName_of_fileName? h).stepsOf_eq, hbehindSteps,
      hrestSteps, List.append_nil]
    rcases hfolder with hkept | ⟨hkept, hempty⟩
    · rw [hkept]
    · rw [hempty, hkept]
      rfl

/-- A name behind a folder without idle pieces at its end leads from that folder to the name. -/
theorem leadsTo_join (hfolder : folder.IsTrimmed) (hname : IsFileName name) :
    (folder.join ⟨name⟩).LeadsTo folder name := by
  obtain ⟨hanchor, front, hpieces, hfront⟩ := hname.join_spec folder
  have hreverse : (folder.join ⟨name⟩).pieces.reverse.dropWhile isIdle = name :: front.reverse := by
    rw [hpieces, List.reverse_append, List.reverse_singleton, List.singleton_append,
      List.dropWhile_cons_of_neg (by simp [hname.isIdle_eq_false])]
  have hsame : folderOf folder.anchor front.reverse = folder ∧
      stepsOf front = stepsOf folder.pieces := by
    rcases hfront with hfront | hfront
    · rw [← hfront]
      exact ⟨hfolder, rfl⟩
    · have hdrop : folderOf folder.anchor front.reverse =
          folderOf folder.anchor folder.pieces.reverse := by
        rw [hfront, List.reverse_append]
        rfl
      refine ⟨hdrop.trans hfolder, ?_⟩
      rw [hfront, stepsOf_append]
      exact (List.append_nil _).symm
  refine ⟨fileName?_eq_some_iff.mpr ⟨_, hreverse, hname.ne_upward⟩, ?_,
    components_eq_of_anchor hanchor ?_⟩
  · rw [parent?_of_dropWhile hreverse, hanchor, hsame.1]
  · rw [hpieces, stepsOf_append, hname.stepsOf_eq, hsame.2]

/-- A sibling of another name is in the same folder. -/
theorem LeadsTo.withFileName {other : Text} (h : path.LeadsTo folder name)
    (hfolder : folder.IsTrimmed) (hother : IsFileName other) :
    (path.withFileName other).LeadsTo folder other := by
  have hjoin : path.withFileName other = folder.join ⟨other⟩ := by
    rw [FilePath.withFileName, h.fileName, h.parent]
  rw [hjoin]
  exact leadsTo_join hfolder hother

end FilePath

end InlineComponents
