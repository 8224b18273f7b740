import LookmlProject.Csv.Column

/-! # Cells that are read as texts

    A column of a CSV text is read as a whole: a cell that is written like a number
    stays a text if another cell of its column cannot be read as a number, and a
    word for a missing cell is lost beside any text.  `Kept` says, from the cells as
    they are written, when a cell is read as the text that it is
    (`column_eq_text_iff`).

    A cell with a letter that occurs in no number, truth value or missing word is
    always kept, and keeps its column from being read otherwise (`kept_of_letter`). -/

namespace LookmlProject.Csv

open Decimal

/-! ## Cells that are kept -/

/-- A cell of a column is read as its text: the column has words, large numbers, or numbers that
exclude each other; only in the last case a word for a missing cell is a text, too. -/
inductive Kept (written : List (List Char)) (cell : List Char) : Prop where
  | words : wholes (written.map present?) = .misfit →
      (∃ other, some other ∈ written.map present? ∧ scanNumber other = none) →
      (∃ other, some other ∈ written.map present? ∧ readTruth other = none) →
      present? cell = some cell → Kept written cell
  | large : wholes (written.map present?) = .tooLarge → present? cell = some cell →
      Kept written cell
  | conflict : wholes (written.map present?) = .conflict → Kept written cell

/-- A cell that is not missing is what is written. -/
theorem present?_eq_some {cell other : List Char} (h : present? cell = some other) :
    other = cell := by
  rw [present?] at h
  split at h
  · exact nomatch h
  · exact (Option.some.inj h).symm

/-- A column cannot be read exactly if one of its cells cannot. -/
theorem readAll?_eq_none_iff {α : Type} (read : List Char → Option α) (cells : Cells) :
    readAll? read cells = none ↔ ∃ cell, some cell ∈ cells ∧ read cell = none := by
  induction cells with
  | nil => simp [readAll?]
  | cons first rest ih =>
      cases first with
      | none =>
          rw [readAll?]
          simp [ih]
      | some cell =>
          rw [readAll?]
          cases hread : read cell with
          | none => simp [hread]
          | some a =>
              cases hrest : readAll? read rest with
              | none =>
                  obtain ⟨other, hother, hnone⟩ := ih.mp hrest
                  exact iff_of_true rfl ⟨other, List.mem_cons_of_mem _ hother, hnone⟩
              | some more =>
                  refine iff_of_false (by simp) ?_
                  rintro ⟨other, hother, hnone⟩
                  rcases List.mem_cons.mp hother with heq | hmem
                  · cases heq
                    exact nomatch hread.symm.trans hnone
                  · exact nomatch hrest.symm.trans (ih.mpr ⟨other, hmem, hnone⟩)

/-- No text is among values of another kind. -/
theorem not_text_of_map {α : Type} {toValue : α → Value} (h : ∀ a s, toValue a ≠ .text s)
    (results : List (Option α)) (i : Nat) (s : String) :
    (results.map (orMissing toValue))[i]? ≠ some (.text s) := by
  intro htext
  rw [List.getElem?_map] at htext
  obtain ⟨result, _, hvalue⟩ := Option.map_eq_some_iff.mp htext
  cases result with
  | none => exact nomatch hvalue
  | some a => exact h a s hvalue

/-- In a column of texts a cell that is present is its text. -/
theorem textColumn_eq_text_iff {cells : Cells} {i : Nat} {cell : Option (List Char)}
    (h : cells[i]? = some cell) (s : String) :
    (textColumn cells)[i]? = some (.text s) ↔ cell = some s.toList := by
  rw [textColumn, List.getElem?_map, h]
  cases cell with
  | none => exact iff_of_false (fun hvalue => nomatch hvalue) (fun hcell => nomatch hcell)
  | some cs =>
      constructor
      · intro hvalue
        cases hvalue
        rw [String.toList_ofList]
      · intro hcell
        cases hcell
        show some (Value.text (String.ofList s.toList)) = _
        rw [String.ofList_toList]

/-- A whole number beside missing cells is no text. -/
theorem besideMissing_ne_text (n : Int) (s : String) : besideMissing n ≠ .text s := by
  rw [besideMissing]
  split
  · exact nofun
  · exact nofun

/-- In a column without whole numbers a cell is a text if neither numbers nor truth values fit. -/
theorem otherColumn_eq_text_iff {cells : Cells} {i : Nat} {cell : Option (List Char)}
    (h : cells[i]? = some cell) (s : String) :
    (otherColumn cells)[i]? = some (.text s) ↔ readAll? scanNumber cells = none ∧
      readAll? readTruth cells = none ∧ cell = some s.toList := by
  rw [otherColumn]
  cases hnumber : readAll? scanNumber cells with
  | some xs =>
      have hfloat : ∀ (x : Float) (s : String), Value.float x ≠ .text s := fun _ _ => nofun
      exact iff_of_false (not_text_of_map hfloat xs i s) fun h => nomatch h.1
  | none =>
      cases htruth : readAll? readTruth cells with
      | some bs =>
          have hbool : ∀ (b : Bool) (s : String), Value.bool b ≠ .text s := fun _ _ => nofun
          exact iff_of_false (not_text_of_map hbool bs i s) fun h => nomatch h.2.1
      | none =>
          rw [textColumn_eq_text_iff h]
          exact ⟨fun hcell => ⟨rfl, rfl, hcell⟩, fun h => h.2.2⟩

/-- What it takes for a cell to be kept, by what its column comes to as whole numbers. -/
theorem kept_iff (written : List (List Char)) (cell : List Char) :
    Kept written cell ↔
      match wholes (written.map present?) with
      | .fit _ => False
      | .misfit => readAll? scanNumber (written.map present?) = none ∧
          readAll? readTruth (written.map present?) = none ∧ present? cell = some cell
      | .tooLarge => present? cell = some cell
      | .conflict => True := by
  rw [readAll?_eq_none_iff, readAll?_eq_none_iff]
  constructor
  · intro h
    cases h with
    | words hmisfit hnumber htruth hpresent =>
        rw [hmisfit]
        exact ⟨hnumber, htruth, hpresent⟩
    | large hlarge hpresent =>
        rw [hlarge]
        exact hpresent
    | conflict hconflict =>
        rw [hconflict]
        trivial
  · intro h
    cases hwholes : wholes (written.map present?) with
    | fit ns => rw [hwholes] at h; exact h.elim
    | misfit => rw [hwholes] at h; exact .words hwholes h.1 h.2.1 h.2.2
    | tooLarge => rw [hwholes] at h; exact .large hwholes h
    | conflict => exact .conflict hwholes

/-- **A CELL IS READ AS A TEXT** exactly if it is kept, and then it is the text as written. -/
theorem column_eq_text_iff {written : List (List Char)} {i : Nat} {cell : List Char}
    (h : written[i]? = some cell) (s : String) :
    (column written)[i]? = some (.text s) ↔ Kept written cell ∧ s.toList = cell := by
  have hcell : (written.map present?)[i]? = some (present? cell) := by
    rw [List.getElem?_map, h]
    rfl
  have hpresent : present? cell = some s.toList ↔ present? cell = some cell ∧ s.toList = cell := by
    constructor
    · intro hsome
      obtain hs := present?_eq_some hsome
      exact ⟨by rw [hsome, hs], hs⟩
    · rintro ⟨hsome, hs⟩
      rw [hsome, hs]
  rw [kept_iff, column]
  cases wholes (written.map present?) with
  | fit ns =>
      refine iff_of_false ?_ fun h => h.1
      dsimp only
      split
      · have hint : ∀ (n : Int) (s : String), Value.int n ≠ .text s := fun _ _ => nofun
        exact not_text_of_map hint ns i s
      · exact not_text_of_map besideMissing_ne_text ns i s
  | misfit =>
      dsimp only
      rw [otherColumn_eq_text_iff hcell, hpresent, and_assoc, and_assoc]
  | tooLarge =>
      dsimp only
      rw [textColumn_eq_text_iff hcell, hpresent]
  -- Numbers that exclude each other are all kept as written, the missing words too.
  | conflict =>
      have hwritten : (written.map some)[i]? = some (some cell) := by
        rw [List.getElem?_map, h]
        rfl
      dsimp only
      rw [textColumn_eq_text_iff hwritten, true_and, Option.some_inj, eq_comm]

/-! ## Letters that no number has -/

/-- A letter that occurs in no number, no truth value and no word for a missing cell. -/
def oddLetter : Char := 'm'

/-- A letter that is passed over by none of the steps of reading a number. -/
theorem mem_dropWhile {cs : List Char} {p : Char → Bool} (h : oddLetter ∈ cs)
    (hp : p oddLetter = false) : oddLetter ∈ cs.dropWhile p := by
  rw [← List.takeWhile_append_dropWhile (p := p) (l := cs)] at h
  rcases List.mem_append.mp h with htake | hdrop
  · have hall := List.all_eq_true.mp List.all_takeWhile oddLetter htake
    exact nomatch hp.symm.trans hall
  · exact hdrop

/-- The letter is no sign. -/
theorem mem_splitSign {cs : List Char} (h : oddLetter ∈ cs) : oddLetter ∈ (splitSign cs).2 := by
  rw [splitSign.eq_def]
  split
  · exact (List.mem_cons.mp h).resolve_left (by decide)
  · exact (List.mem_cons.mp h).resolve_left (by decide)
  · exact h

theorem not_all_blank {cs : List Char} (h : oddLetter ∈ cs) : cs.all isAsciiBlank = false := by
  rw [List.all_eq_false]
  exact ⟨oddLetter, h, by decide⟩

/-- A cell with the letter is no whole number. -/
theorem scanWhole_of_letter {cs : List Char} (h : oddLetter ∈ cs) (low high n : Int) :
    scanWhole low high cs ≠ .whole n := by
  have hsign := mem_splitSign (mem_dropWhile h (by decide : isAsciiBlank oddLetter = false))
  rw [scanWhole]
  generalize splitSign (cs.dropWhile isAsciiBlank) = sign at hsign ⊢
  obtain ⟨negative, rest⟩ := sign
  have hblank := not_all_blank (mem_dropWhile hsign (by decide : oddLetter.isDigit = false))
  simp only [hblank, Bool.false_eq_true, if_false]
  repeat' split
  all_goals exact nofun

/-- The letter stands behind the digits around a point. -/
theorem mem_splitPoint {cs : List Char} (h : oddLetter ∈ cs) : oddLetter ∈ (splitPoint cs).2.2 := by
  have hdrop := mem_dropWhile h (by decide : oddLetter.isDigit = false)
  rw [splitPoint]
  split
  · next rest hpoint =>
      rw [hpoint] at hdrop
      exact mem_dropWhile ((List.mem_cons.mp hdrop).resolve_left (by decide)) (by decide)
  · exact hdrop

/-- No digits at the start of a text hold the letter. -/
theorem mem_drop_digits {cs : List Char} (h : oddLetter ∈ cs) (count : Nat) :
    oddLetter ∈ cs.drop ((cs.takeWhile Char.isDigit).take count).length := by
  have hprefix : (cs.takeWhile Char.isDigit).take count <+: cs :=
    (List.take_prefix _ _).trans (List.takeWhile_prefix _)
  rw [← List.take_append_drop ((cs.takeWhile Char.isDigit).take count).length cs,
    ← List.prefix_iff_eq_take.mp hprefix] at h
  rcases List.mem_append.mp h with htake | hdrop
  · have hdigit := List.all_eq_true.mp List.all_takeWhile oddLetter (List.mem_of_mem_take htake)
    exact absurd hdigit (by decide)
  · exact hdrop

/-- The letter belongs to no exponent. -/
theorem mem_splitExponent {cs : List Char} (h : oddLetter ∈ cs) :
    oddLetter ∈ (splitExponent cs).2 := by
  have hread : ∀ rest, oddLetter ∈ rest → oddLetter ∈ (splitSign rest).2.drop
      (((splitSign rest).2.takeWhile Char.isDigit).take keptDigits).length :=
    fun rest hrest => mem_drop_digits (mem_splitSign hrest) keptDigits
  rw [splitExponent.eq_def]
  split
  · next rest =>
      dsimp only
      split
      · exact h
      · exact hread rest ((List.mem_cons.mp h).resolve_left (by decide))
  · next rest =>
      dsimp only
      split
      · exact h
      · exact hread rest ((List.mem_cons.mp h).resolve_left (by decide))
  · exact h

/-- A cell with the letter is not a word without it. -/
theorem sameLetters_of_letter {cs : List Char} {word : String} (h : oddLetter ∈ cs)
    (hword : oddLetter ∉ word.toList) : sameLetters cs word = false := by
  rw [sameLetters, beq_eq_false_iff_ne]
  intro hsame
  refine hword ?_
  rw [← hsame]
  exact List.mem_map.mpr ⟨oddLetter, h, by decide⟩

theorem scanInfinity_of_letter {cs : List Char} (h : oddLetter ∈ cs) : scanInfinity cs = none := by
  have hsign := mem_splitSign h
  rw [scanInfinity]
  generalize splitSign cs = sign at hsign ⊢
  obtain ⟨negative, rest⟩ := sign
  dsimp only
  rw [sameLetters_of_letter hsign (by decide), sameLetters_of_letter hsign (by decide)]
  rfl

/-- A cell with the letter is no number: no step of reading one passes over the letter. -/
theorem scanNumber_of_letter {cs : List Char} (h : oddLetter ∈ cs) : scanNumber cs = none := by
  have hsign := mem_splitSign (mem_dropWhile h (by decide : isAsciiBlank oddLetter = false))
  rw [scanNumber]
  generalize splitSign (cs.dropWhile isAsciiBlank) = sign at hsign ⊢
  obtain ⟨negative, unsigned⟩ := sign
  have hpoint := mem_splitPoint hsign
  dsimp only at hpoint ⊢
  generalize splitPoint unsigned = point at hpoint ⊢
  obtain ⟨whole, fraction, rest⟩ := point
  have hexponent := mem_splitExponent hpoint
  dsimp only at hexponent ⊢
  generalize splitExponent rest = exponent at hexponent ⊢
  obtain ⟨power, rest'⟩ := exponent
  dsimp only at hexponent ⊢
  rw [not_all_blank hexponent, if_pos (by simp), scanInfinity_of_letter h]

theorem readTruth_of_letter {cs : List Char} (h : oddLetter ∈ cs) : readTruth cs = none := by
  rw [readTruth, sameLetters_of_letter h (by decide), sameLetters_of_letter h (by decide)]
  rfl

/-- A cell with the letter is not missing. -/
theorem present?_of_letter {cs : List Char} (h : oddLetter ∈ cs) : present? cs = some cs := by
  have hwords : ∀ word ∈ missingWords, oddLetter ∉ word.toList := by decide
  rw [present?, if_neg]
  intro hmissing
  refine hwords _ (List.contains_iff_mem.mp hmissing) ?_
  rw [String.toList_ofList]
  exact h

/-! ## Columns with such a letter -/

/-- A column that is read as whole numbers has nothing but whole numbers. -/
theorem exists_whole_of_fit {low high : Int} {cells : Cells} :
    ∀ {ns : List (Option Int)}, readWholes low high cells = .fit ns →
      ∀ cs, some cs ∈ cells → ∃ n, scanWhole low high cs = .whole n := by
  induction cells with
  | nil =>
      intro ns _ cs hmem
      cases hmem
  | cons cell rest ih =>
      intro ns hfit cs hmem
      cases cell with
      | none =>
          rw [readWholes] at hfit
          split at hfit
          · next ns' hrest => exact ih hrest cs ((List.mem_cons.mp hmem).resolve_left (by simp))
          · next hother => exact absurd hfit (hother ns)
      | some cell =>
          rw [readWholes] at hfit
          split at hfit
          · next n hwhole =>
              split at hfit
              · next ns' hrest =>
                  rcases List.mem_cons.mp hmem with heq | hmem
                  · cases heq
                    exact ⟨n, hwhole⟩
                  · exact ih hrest cs hmem
              · next hother => exact absurd hfit (hother ns)
          · cases hfit
          · cases hfit

/-- A column with such a letter is not read as whole numbers. -/
theorem wholes_of_letter {cells : Cells} {cell : List Char} (hcell : some cell ∈ cells)
    (h : oddLetter ∈ cell) (ns : List (Option Int)) : wholes cells ≠ .fit ns := by
  have hread : ∀ {low high : Int} {read : Cells} {ns : List (Option Int)}, some cell ∈ read →
      readWholes low high read ≠ .fit ns := by
    intro low high read ns hmem hfit
    obtain ⟨n, hwhole⟩ := exists_whole_of_fit hfit cell hmem
    exact scanWhole_of_letter h low high n hwhole
  rw [wholes]
  split
  · dsimp only
    split
    · next ns' hfit =>
        split
        · -- Without negative and missing cells all cells are read a second time.
          next hlength =>
          obtain ⟨mark, hmark⟩ := Option.isSome_iff_exists.mp
            (List.filterMap_length_eq_length.mp hlength (some cell) hcell)
          have hmem := List.mem_filterMap.mpr ⟨some cell, hcell, hmark⟩
          rw [← Option.some.inj (Option.filter_eq_some_iff.mp hmark).1] at hmem
          exact absurd hfit (hread (List.mem_map.mpr ⟨cell, hmem, rfl⟩))
        split
        · exact nofun
        · exact nofun
    · next hother => exact hother ns
  · exact hread hcell

/-- **A CELL WITH SUCH A LETTER** is kept, whatever else is in its column. -/
theorem kept_of_letter {written : List (List Char)} {cell : List Char} (hcell : cell ∈ written)
    (h : oddLetter ∈ cell) : Kept written cell := by
  have hpresent := present?_of_letter h
  have hmem : some cell ∈ written.map present? := List.mem_map.mpr ⟨cell, hcell, hpresent⟩
  cases hwholes : wholes (written.map present?) with
  | fit ns => exact absurd hwholes (wholes_of_letter hmem h ns)
  | misfit =>
      exact .words hwholes ⟨cell, hmem, scanNumber_of_letter h⟩
        ⟨cell, hmem, readTruth_of_letter h⟩ hpresent
  | tooLarge => exact .large hwholes hpresent
  | conflict => exact .conflict hwholes

end LookmlProject.Csv
