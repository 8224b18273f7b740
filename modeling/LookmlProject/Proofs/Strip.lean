import LookmlProject.Text.Blank
import LookmlProject.Text.Search
import Mathlib.Data.List.DropRight
import Mathlib.Data.List.TakeWhile

/-! # Stripped texts

    A word without white space stands at the start of a stripped text exactly if it
    stands behind the white space at the start of the text; so what a line starts with
    does not depend on how it ends. -/

namespace LookmlProject.Text

/-- A text without white space. -/
def Solid (cs : List Char) : Prop := ∀ c ∈ cs, isBlank c = false

instance (cs : List Char) : Decidable (Solid cs) :=
  decidable_of_iff (cs.all fun c => !isBlank c) (by simp [Solid])

/-- A text of white space only. -/
def Blanks (cs : List Char) : Prop := ∀ c ∈ cs, isBlank c = true

/-- White space at the start goes. -/
theorem stripStart_append {blanks : List Char} (h : Blanks blanks) (rest : List Char) :
    stripStart (blanks ++ rest) = stripStart rest := by
  rw [stripStart, List.dropWhile_append_of_pos h, stripStart]

theorem stripStart_cons {c : Char} (h : isBlank c = false) (rest : List Char) :
    stripStart (c :: rest) = c :: rest := by
  rw [stripStart, List.dropWhile_cons_of_neg (by simp [h])]

/-- A word has no white space at its end. -/
theorem dropWhile_reverse_solid {word : List Char} (h : Solid word) :
    word.reverse.dropWhile isBlank = word.reverse := by
  rw [List.dropWhile_eq_self_iff]
  intro hpos
  rw [Bool.not_eq_true]
  exact h _ (List.mem_reverse.mp (List.getElem_mem hpos))

/-- A word at the start stays when the end is stripped. -/
theorem stripEnd_append {word : List Char} (h : Solid word) (rest : List Char) :
    stripEnd (word ++ rest) = word ++ stripEnd rest := by
  rw [stripEnd, stripEnd, List.reverse_append, List.dropWhile_append, dropWhile_reverse_solid h]
  split
  · next hnil =>
      rw [List.isEmpty_iff.mp hnil]
      simp
  · rw [List.reverse_append, List.reverse_reverse]

theorem stripEnd_blanks {blanks : List Char} (h : Blanks blanks) : stripEnd blanks = [] := by
  rw [stripEnd, List.reverse_eq_nil_iff, List.dropWhile_eq_nil_iff]
  intro c hc
  exact h c (List.mem_reverse.mp hc)

/-- White space at the end goes. -/
theorem stripEnd_append_blanks (cs : List Char) {blanks : List Char} (h : Blanks blanks) :
    stripEnd (cs ++ blanks) = stripEnd cs := by
  rw [stripEnd, stripEnd, List.reverse_append, List.dropWhile_append_of_pos]
  intro c hc
  exact h c (List.mem_reverse.mp hc)

/-- What is left after stripping the end is a start of the text. -/
theorem stripEnd_isPrefix (cs : List Char) : stripEnd cs <+: cs := by
  rw [stripEnd, ← List.reverse_suffix, List.reverse_reverse]
  exact List.dropWhile_suffix isBlank

/-- White space around a text does not count. -/
theorem strip_between {first last : List Char} (hfirst : Blanks first) (hlast : Blanks last)
    (text : List Char) : strip (first ++ (text ++ last)) = strip text := by
  rw [strip, stripStart_append hfirst, strip, stripStart, stripStart, List.dropWhile_append]
  split
  · next hnil =>
      have hblanks : stripEnd (last.dropWhile isBlank) = [] :=
        stripEnd_blanks fun c hc => hlast c ((List.dropWhile_suffix isBlank).subset hc)
      rw [hblanks, List.isEmpty_iff.mp hnil]
      rfl
  · exact stripEnd_append_blanks _ hlast

/-- Stripping a text again does nothing. -/
theorem strip_strip (cs : List Char) : strip (strip cs) = strip cs := by
  have hstart : stripStart (strip cs) = strip cs := by
    rw [stripStart, List.dropWhile_eq_self_iff]
    intro hpos
    have hfront : strip cs <+: stripStart cs := stripEnd_isPrefix _
    rw [hfront.getElem hpos]
    exact List.dropWhile_get_zero_not isBlank cs (hpos.trans_le hfront.length_le)
  rw [strip, hstart, strip, stripEnd, stripEnd, List.reverse_reverse, List.dropWhile_idempotent]

/-- What a stripped text starts with stands behind the white space at the start. -/
theorem solid_prefix_strip {word : List Char} (h : Solid word) (cs : List Char) :
    word <+: strip cs ↔ word <+: stripStart cs := by
  constructor
  · exact fun hprefix => hprefix.trans (stripEnd_isPrefix _)
  · rintro ⟨rest, hrest⟩
    rw [strip, ← hrest, stripEnd_append h]
    exact List.prefix_append word _

end LookmlProject.Text
