import InlineComponents.Proofs.Imports.Recognition
import InlineComponents.Proofs.Json.Quoted
import InlineComponents.Proofs.Linking.ImportRun
import InlineComponents.Proofs.Linking.Qualification
import InlineComponents.Styles.Asset

/-!
# The import of an asset

The statement that imports an asset stands on a line of its own, whatever its path is, since quoting
leaves no line feed in the path. It binds no name, and an instantiation in the text before it does
not reach into it.
-/

namespace InlineComponents

open Text Instantiation

/-- No line feed is left in a quoted text. -/
theorem Json.lineFeed_not_mem_quote (text : Text) : '\n' ∉ quote text := by
  have hescape : '\n' ∉ escape text :=
    fun hmem => absurd ((spells_escape text).le_toNat _ hmem) (by decide)
  simp [quote, hescape]

namespace ImportStatement

/-- Nothing is bound by what stands at the front of an import whose source comes first. -/
theorem namesIn_eq_nil_of_prefix {blanks rest text : Text} {c : Char}
    (hblanks : isBlankText blanks = true) (hc : isQuote c = true)
    (h : text <+: "import".toList ++ (blanks ++ c :: rest)) : namesIn text = [] := by
  cases hparse : parse? text with
  | none => rw [namesIn, hparse]; rfl
  | some statement =>
    suffices hnone : statement.bindings = [] by
      rw [namesIn, hparse, Option.toList_some, List.flatMap_singleton, boundNames, hnone]
      rfl
    unfold parse? at hparse
    split at hparse
    · contradiction
    rename_i behind hbehind
    obtain ⟨tail, htail⟩ := h
    have hcut : behind ++ tail = blanks ++ c :: rest := by
      have hword : skipBlanks text = "import".toList ++ behind := dropWord?_eq_some_iff.mp hbehind
      cases text with
      | nil => contradiction
      | cons d front =>
        obtain rfl : d = 'i' := (List.cons.inj htail).1
        have hskip : skipBlanks ('i' :: front) = 'i' :: front := rfl
        rw [← hskip, hword, List.append_assoc] at htail
        exact List.append_cancel_left htail
    have hhead : isBlankText (behind.takeWhile fun d => !isQuote d) = true := by
      obtain ⟨more, hmore⟩ := behind.takeWhile_prefix fun d => !isQuote d
      rw [← hmore, List.append_assoc] at hcut
      rcases List.append_eq_append_iff.mp hcut with ⟨left, rfl, -⟩ | ⟨left, heq, hleft⟩
      · exact (isBlankText_append.mp hblanks).1
      · cases left with
        | nil => rwa [heq, List.append_nil]
        | cons d left =>
          -- The quote would stand in front of the first quote.
          obtain ⟨rfl, -⟩ := List.cons.inj hleft
          have hmem : c ∈ behind.takeWhile fun d => !isQuote d := by rw [heq]; simp
          have hquote := List.all_eq_true.mp (List.all_takeWhile (l := behind)) c hmem
          simp [hc] at hquote
    split at hparse
    · contradiction
    · simp only [hhead, if_true] at hparse
      rw [← Option.some.inj hparse]

end ImportStatement

namespace StyleAsset

/-- The line of the statement. -/
def importLine (asset : StyleAsset) : Text :=
  "import".toList ++ ([' '] ++ '"' :: (Json.escape asset.path.toList ++ ['"', ';']))

/-- The statement stands on a line of its own. -/
theorem toList_importStatement (asset : StyleAsset) :
    asset.importStatement.toList = ['\n'] ++ (asset.importLine ++ ['\n']) := by
  have hstart : "\nimport ".toList = '\n' :: ("import".toList ++ [' ']) := by decide
  have hend : ";\n".toList = [';', '\n'] := by decide
  unfold importStatement importLine Json.quoteString Json.quote
  simp only [String.toList_append, String.toList_ofList, hstart, hend, List.append_assoc,
    List.cons_append, List.nil_append]

/-- The line ends in a semicolon. -/
theorem getLast?_importLine (asset : StyleAsset) : asset.importLine.getLast? = some ';' := by
  unfold importLine
  simp only [List.getLast?_append, List.getLast?_cons]
  rfl

/-- The line is a single one. -/
theorem lineFeed_not_mem_importLine (asset : StyleAsset) : '\n' ∉ asset.importLine := by
  have hquote := Json.lineFeed_not_mem_quote asset.path.toList
  unfold importLine
  simp only [Json.quote, List.cons_append, List.mem_cons, List.mem_append, List.not_mem_nil,
    or_false, not_or] at hquote ⊢
  exact ⟨by decide, by decide, not_false, hquote.1, hquote.2.1, by decide, by decide⟩

/-- The statement binds no name. -/
theorem namesIn_of_mem_staticImportTexts (asset : StyleAsset) {text : Text}
    (h : text ∈ ImportStatement.staticImportTexts asset.importStatement.toList) :
    ImportStatement.namesIn text = [] := by
  obtain ⟨place, hplace, rfl⟩ := List.mem_map.mp h
  obtain ⟨front, back, hscan, -, -⟩ := exists_of_mem_locations hplace
  obtain ⟨hne, hread⟩ := read_of_scan ImportStatement.staticImport_advances hscan
  have hflag : startsLine true (sources front) = true := by
    unfold ImportStatement.staticImport at hread
    split at hread
    · assumption
    · contradiction
  have hsources : sources (scanAll ImportStatement.staticImport asset.importStatement.toList) =
      asset.importStatement.toList := sources_scan ImportStatement.staticImport_keepsSuffix true _
  rw [hscan, sources_append, toList_importStatement] at hsources
  change _ ++ (place.text ++ sources back) = _ at hsources
  obtain ⟨c, rest, htext⟩ := List.exists_cons_of_ne_nil hne
  have hc : c ∉ ['\n'] := by
    intro hmem
    have hnone (after : Text) : ImportStatement.staticImport true ('\n' :: after) = none := rfl
    rw [hflag, htext, List.mem_singleton.mp hmem, List.cons_append, hnone] at hread
    contradiction
  rcases line_outside asset.lineFeed_not_mem_importLine hsources.symm hflag with
    ⟨left, hleft, hback⟩ | ⟨left, -, hback⟩
  · cases left with
    | nil =>
      unfold importLine at hback
      rw [List.nil_append, List.append_assoc, List.append_assoc, List.cons_append] at hback
      exact ImportStatement.namesIn_eq_nil_of_prefix (rfl : isBlankText [' '] = true)
        (by decide : ImportStatement.isQuote '"' = true) ⟨sources back, hback⟩
    | cons d left =>
      rw [htext, List.cons_append, List.cons_append] at hback
      exact absurd (hleft ▸ List.mem_append_right _ ((List.cons.inj hback).1 ▸ List.mem_cons_self)) hc
  · exact absurd (hback ▸ List.mem_append_right _ (htext ▸ List.mem_cons_self)) hc

/-- An instantiation does not reach into the statement. -/
theorem closed_importStatement (asset : StyleAsset) : Closed asset.importStatement.toList := by
  rw [toList_importStatement]
  unfold importLine
  have hclosed := closed_of_word (rfl : isBlankText ['\n'] = true) (List.cons_ne_nil _ _)
    (by decide : isPlainIdentifier "import".toList = true) (by decide)
    (rfl : isBlankText [' '] = true) (List.cons_ne_nil _ _) (by decide : isBlank '"' = false)
    (by decide) (Json.escape asset.path.toList ++ ['"', ';'] ++ ['\n'])
  simpa only [List.append_assoc, List.cons_append] using hclosed

end StyleAsset

end InlineComponents
