import LookmlProject.Proofs.Edits
import LookmlProject.Proofs.Parts
import LookmlProject.Text.Lines

/-!
# Lines and headers

A text is cut into lines and put together again without loss (`flatten_lines`), and lines that are
put together are cut at the same places (`lines_flatten_append`).  A line that the parser takes for
the head of a block is a header by its text too, of the field that has its name without white space
around it (`Header.Formed.isHeader_iff`).
-/

namespace LookmlProject.Text

/-! ## Lines -/

/-- A line: a line feed at its end and nowhere else. -/
def IsLine (line : List Char) : Prop := ∃ text, line = text ++ ['\n'] ∧ '\n' ∉ text

/-- A text is its lines in a row. -/
theorem flatten_lines (cs : List Char) : (lines cs).flatten = cs := by
  induction cs with
  | nil => rfl
  | cons c rest ih =>
      rw [lines]
      split
      · next hc => rw [List.flatten_cons, ih, hc, List.singleton_append]
      · split
        · next hnil =>
            rw [hnil] at ih
            rw [← ih]
            rfl
        · next line more hcons =>
            rw [hcons] at ih
            rw [List.flatten_cons, List.cons_append, ← List.flatten_cons, ih]

/-- The first line ends at the first line feed. -/
theorem lines_line {text : List Char} (htext : '\n' ∉ text) (rest : List Char) :
    lines (text ++ '\n' :: rest) = (text ++ ['\n']) :: lines rest := by
  induction text with
  | nil => rfl
  | cons c text ih =>
      rw [List.mem_cons, not_or] at htext
      rw [List.cons_append, lines, if_neg (Ne.symm htext.1), ih htext.2, List.cons_append]

/-- Lines that are put together are cut at the same places. -/
theorem lines_flatten_append {ls : List (List Char)} (h : ∀ line ∈ ls, IsLine line)
    (rest : List Char) : lines (ls.flatten ++ rest) = ls ++ lines rest := by
  induction ls with
  | nil => rfl
  | cons line ls ih =>
      obtain ⟨text, rfl, htext⟩ := h line List.mem_cons_self
      rw [List.flatten_cons, List.append_assoc, List.append_assoc, List.singleton_append,
        lines_line htext, ih fun l hl => h l (List.mem_cons_of_mem _ hl), List.cons_append]

/-- The lines of a text that ends with a line feed. -/
theorem isLine_of_mem_lines {cs : List Char} (h : cs = [] ∨ Lookml.EndsLine cs) :
    ∀ line ∈ lines cs, IsLine line := by
  induction cs with
  | nil => intro line hline; exact nomatch hline
  | cons c rest ih =>
      have hends : Lookml.EndsLine (c :: rest) := h.resolve_left (by simp)
      have hrest : rest = [] ∨ Lookml.EndsLine rest := by
        rw [← List.singleton_append] at hends
        by_cases hnil : rest = []
        · exact .inl hnil
        · exact .inr (hends.of_append hnil)
      intro line hline
      rw [lines] at hline
      split at hline
      · next hc =>
          rcases List.mem_cons.mp hline with rfl | hmem
          · exact ⟨[], rfl, by simp⟩
          · exact ih hrest line hmem
      · next hc =>
          split at hline
          -- A last line without a line feed: then the whole text does not end with one.
          · next hnil =>
              have hempty : rest = [] := by rw [← flatten_lines rest, hnil]; rfl
              rw [hempty] at hends
              exact absurd (Option.some.inj hends) hc
          · next first more hcons =>
              have hlines := ih hrest
              rw [hcons] at hlines
              rcases List.mem_cons.mp hline with rfl | hmem
              · obtain ⟨text, rfl, htext⟩ := hlines first List.mem_cons_self
                exact ⟨c :: text, rfl, by simp [Ne.symm hc, htext]⟩
              · exact hlines line (List.mem_cons_of_mem _ hmem)

/-! ## Line feeds only -/

/-- No carriage return is left. -/
theorem not_mem_unifyNewlines (cs : List Char) : '\r' ∉ unifyNewlines cs := by
  fun_induction unifyNewlines cs with
  | case1 => simp
  | case2 rest ih => simp [ih]
  | case3 rest _ ih => simp [ih]
  | case4 c rest _ hc ih =>
      rw [List.mem_cons, not_or]
      exact ⟨fun h => hc h.symm, ih⟩

/-- A text without carriage returns stays as it is. -/
theorem unifyNewlines_of_not_mem {cs : List Char} (h : '\r' ∉ cs) : unifyNewlines cs = cs := by
  fun_induction unifyNewlines cs with
  | case1 => rfl
  | case2 rest ih => simp at h
  | case3 rest _ ih => simp at h
  | case4 c rest _ hc ih => rw [ih fun hmem => h (List.mem_cons_of_mem _ hmem)]

/-! ## Marks in a text -/

/-- No place in the first text is one where the mark stands. -/
def Unmarked (mark first rest : List Char) : Prop :=
  ∀ tail, tail <:+ first → tail ≠ [] → ¬ mark <+: tail ++ rest

theorem Unmarked.tail {mark first rest : List Char} {c : Char}
    (h : Unmarked mark (c :: first) rest) : Unmarked mark first rest :=
  fun tail htail hne => h tail (htail.trans (List.suffix_cons c first)) hne

/-- The mark does not stand at the first place. -/
theorem Unmarked.isPrefixOf_eq {mark first rest : List Char} {c : Char}
    (h : Unmarked mark (c :: first) rest) : mark.isPrefixOf (c :: (first ++ rest)) = false := by
  rw [Bool.eq_false_iff]
  intro hmark
  exact h (c :: first) (List.suffix_refl _) (by simp) (List.isPrefixOf_iff_prefix.mp hmark)

/-- What comes before the mark starts with the part that has none. -/
theorem before_append {mark first rest : List Char} (h : Unmarked mark first rest) :
    before mark (first ++ rest) = first ++ before mark rest := by
  induction first with
  | nil => rfl
  | cons c first ih =>
      rw [List.cons_append, before, h.isPrefixOf_eq, if_neg Bool.false_ne_true, ih h.tail,
        List.cons_append]

/-- What comes after the mark does not depend on the part that has none. -/
theorem after_append {mark first rest : List Char} (h : Unmarked mark first rest) :
    after mark (first ++ rest) = after mark rest := by
  induction first with
  | nil => rfl
  | cons c first ih =>
      rw [List.cons_append, after, h.isPrefixOf_eq, if_neg Bool.false_ne_true, ih h.tail]

theorem after_mark {c : Char} (mark rest : List Char) :
    after (c :: mark) (c :: mark ++ rest) = rest := by
  rw [List.cons_append, after, if_pos]
  · simp
  · rw [List.isPrefixOf_iff_prefix]
    exact List.prefix_append (c :: mark) rest

/-- A mark whose first character does not occur. -/
theorem unmarked_of_first {c : Char} {mark first : List Char} (h : c ∉ first) (rest : List Char) :
    Unmarked (c :: mark) first rest := by
  intro tail htail hne hmark
  obtain ⟨d, more, rfl⟩ := List.exists_cons_of_ne_nil hne
  obtain ⟨rfl, _⟩ := List.cons_prefix_cons.mp hmark
  exact h (htail.subset List.mem_cons_self)

/-- A mark with a character that does not occur, in front of one that is not in the mark. -/
theorem unmarked_of_mem {mark first : List Char} {c d : Char} (hc : c ∈ mark) (hfirst : c ∉ first)
    (hd : d ∉ mark) (rest : List Char) : Unmarked mark first (d :: rest) := by
  intro tail htail _ hmark
  -- The mark ends inside the first text, or reaches beyond it.
  rcases List.prefix_or_prefix_of_prefix hmark (List.prefix_append tail (d :: rest)) with hp | hp
  · exact hfirst (htail.subset (hp.subset hc))
  · obtain ⟨more, rfl⟩ := hp
    cases more with
    | nil =>
        rw [List.append_nil] at hc
        exact hfirst (htail.subset hc)
    | cons e more =>
        obtain ⟨rfl, _⟩ := List.cons_prefix_cons.mp ((List.prefix_append_right_inj tail).mp hmark)
        exact hd (by simp)

end LookmlProject.Text

namespace LookmlProject.Lookml

open Text Edit

/-! ## The lines of blocks -/

theorem not_mem_of_isSpace {c : Char} (hc : isSpace c = false) {spaces : List Char}
    (h : spaces.all isSpace = true) : c ∉ spaces := by
  intro hmem
  rw [List.all_eq_true.mp h c hmem] at hc
  cases hc

/-- A character that ends literals is in no word. -/
theorem not_mem_of_word {c : Char} (hc : endsLiteral c = true) {word : List Char} (h : Word word) :
    c ∉ word := by
  intro hmem
  rw [h.inside c hmem] at hc
  cases hc

/-- White space and a comment behind a brace have no line feed. -/
theorem newline_not_mem_trail {trail : List Char} (h : isTrail trail = true) : '\n' ∉ trail := by
  rw [← List.takeWhile_append_dropWhile (p := isSpace) (l := trail), List.mem_append, not_or]
  refine ⟨fun hmem => ?_, fun hmem => ?_⟩
  · exact absurd (List.mem_takeWhile_imp hmem) (by decide)
  · rw [isTrail] at h
    split at h
    · next hnil => rw [hnil] at hmem; cases hmem
    · next c rest hcons =>
        rw [hcons] at hmem
        rw [Bool.and_eq_true, beq_iff_eq, List.all_eq_true] at h
        rcases List.mem_cons.mp hmem with hc | hrest
        · rw [h.1] at hc
          exact absurd hc (by decide)
        · exact absurd (h.2 '\n' hrest) (by decide)

/-- A header is a line. -/
theorem Header.Formed.isLine {header : Header} (h : header.Formed) : IsLine header.text := by
  refine ⟨header.indent ++ (header.key.toList ++ ':' :: (header.between ++ (header.name.toList ++
    (header.behind ++ '\x7b' :: header.trail)))), by simp [Header.text], ?_⟩
  have hspace : isSpace '\n' = false := by decide
  have hword : endsLiteral '\n' = true := by decide
  simp [not_mem_of_isSpace hspace h.indent, not_mem_of_word hword h.key,
    not_mem_of_isSpace hspace h.between, not_mem_of_word hword h.name,
    not_mem_of_isSpace hspace h.behind, newline_not_mem_trail h.trail]

theorem Footer.Formed.isLine {footer : Footer} (h : footer.Formed) : IsLine footer.text := by
  refine ⟨footer.indent ++ '\x7d' :: footer.trail, by simp [Footer.text], ?_⟩
  simp [not_mem_of_isSpace (by decide : isSpace '\n' = false) h.indent,
    newline_not_mem_trail h.trail]

theorem blanks_of_isSpace {spaces : List Char} (h : spaces.all isSpace = true) :
    Blanks spaces := by
  intro c hc
  have hspace := List.all_eq_true.mp h c hc
  rw [isSpace, Bool.or_eq_true, beq_iff_eq, beq_iff_eq] at hspace
  rcases hspace with rfl | rfl <;> decide

/-- Behind its kind and colon and before its brace, a header has its name. -/
theorem Header.Formed.before_brace {header : Header} (h : header.Formed)
    (hkind : FieldKind header.key.toList) :
    before ['\x7b'] (before (header.key.toList ++ [':'])
        (after (header.key.toList ++ [':']) header.text)) =
      header.between ++ (header.name.toList ++ header.behind) := by
  obtain ⟨c, key, hkey, _⟩ := h.key.start
  have hsolid := hkind.solid
  have hplain : ∀ k ∈ Update.fieldKinds.map String.toList, '\x7b' ∉ k ++ [':'] := by decide
  -- Neither the colon nor the brace occurs before the brace.
  have hcolon : ':' ∉ header.between ++ (header.name.toList ++ header.behind) := by
    simp [not_mem_of_isSpace (by decide : isSpace ':' = false) h.between,
      not_mem_of_word (by decide : endsLiteral ':' = true) h.name,
      not_mem_of_isSpace (by decide : isSpace ':' = false) h.behind]
  have hbrace : '\x7b' ∉ header.between ++ (header.name.toList ++ header.behind) := by
    simp [not_mem_of_isSpace (by decide : isSpace '\x7b' = false) h.between,
      not_mem_of_word (by decide : endsLiteral '\x7b' = true) h.name,
      not_mem_of_isSpace (by decide : isSpace '\x7b' = false) h.behind]
  have hindent : c ∉ header.indent := by
    intro hmem
    have hc := hsolid c (by simp [hkey])
    rw [blanks_of_isSpace h.indent c hmem] at hc
    cases hc
  have htext : header.text = header.indent ++ (header.key.toList ++ [':'] ++
      ((header.between ++ (header.name.toList ++ header.behind)) ++
        '\x7b' :: (header.trail ++ ['\n']))) := by
    simp [Header.text]
  rw [htext, hkey, List.cons_append, after_append (unmarked_of_first hindent _), after_mark,
    ← List.cons_append, ← hkey,
    before_append (unmarked_of_mem (by simp) hcolon (hplain _ hkind) _)]
  have hopen : before (header.key.toList ++ [':']) ('\x7b' :: (header.trail ++ ['\n'])) =
      '\x7b' :: before (header.key.toList ++ [':']) (header.trail ++ ['\n']) := by
    have hne : c ∉ ['\x7b'] := by
      rw [List.mem_singleton]
      rintro rfl
      exact hplain _ hkind (by simp [hkey])
    rw [hkey]
    exact before_append (unmarked_of_first hne _)
  rw [hopen, before_append (unmarked_of_first hbrace _), before, if_pos (by simp), List.append_nil]

/-- A header is one by its text, of the field that has its name without white space around it. -/
theorem Header.Formed.isHeader_iff {header : Header} (h : header.Formed)
    (hkind : FieldKind header.key.toList) (name : List Char) :
    isHeader header.key.toList name header.text = true ↔ strip header.name.toList = name := by
  have hstart : header.key.toList ++ [':'] <+: strip header.text := by
    rw [solid_prefix_strip hkind.solid, Header.text, stripStart_append (blanks_of_isSpace h.indent)]
    obtain ⟨c, key, hkey, _⟩ := h.key.start
    have hc := hkind.solid c (by simp [hkey])
    rw [hkey, List.cons_append, List.cons_append, stripStart_cons hc]
    exact ⟨_, by simp; rfl⟩
  rw [isHeader, Bool.and_eq_true, beq_iff_eq, h.before_brace hkind,
    strip_between (blanks_of_isSpace h.between) (blanks_of_isSpace h.behind)]
  exact and_iff_right (List.isPrefixOf_iff_prefix.mpr hstart)

end LookmlProject.Lookml
