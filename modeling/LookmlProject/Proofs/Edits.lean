import LookmlProject.Proofs.Strip
import LookmlProject.Update
import Mathlib.Data.List.Pairwise

/-! # Edits of one field and of many

    An edit reads all lines, also those that earlier edits have written, and counts
    them as they were before.  That edits do not disturb one another rests on three
    facts:

    * no description line is a header, and a line is the header of one field only
      (`isHeader_descriptionLine`, `isHeader_unique`), so an edit finds its header
      where it was;
    * an edit changes nothing before its header and nothing behind the old description
      (`add_split`, `substitute_split`);
    * between a header and the end of its old description stands no other header, so
      the parts of the lines that edits touch are disjoint (`Apart.stop_le`).

    `editAll` makes all edits at once, line by line, and `Apart.run_editAll` is the step
    from the edits made so far to one more. -/

namespace LookmlProject.Edit

open Text

/-! ## Headers and descriptions -/

/-- The kinds of fields that have descriptions. -/
def FieldKind (kind : List Char) : Prop := kind ∈ Update.fieldKinds.map String.toList

/-- A kind with its colon has no white space at its ends, so stripping does not cut into it. -/
theorem FieldKind.solid {kind : List Char} (h : FieldKind kind) : Solid (kind ++ [':']) := by
  have hall : ∀ k ∈ Update.fieldKinds.map String.toList, Solid (k ++ [':']) := by decide
  exact hall kind h

/-- A header starts with its kind and a colon. -/
theorem FieldKind.prefix_of_isHeader {kind name : List Char} {line : Line} (hkind : FieldKind kind)
    (h : isHeader kind name line = true) : kind ++ [':'] <+: stripStart line := by
  rw [isHeader, Bool.and_eq_true] at h
  exact (solid_prefix_strip hkind.solid line).mp (List.isPrefixOf_iff_prefix.mp h.1)

/-- A line is the header of one field only. -/
theorem isHeader_unique {kind name kind' name' : List Char} {line : Line} (hkind : FieldKind kind)
    (hkind' : FieldKind kind') (h : isHeader kind name line = true)
    (h' : isHeader kind' name' line = true) : kind = kind' ∧ name = name' := by
  have hequal : ∀ k ∈ Update.fieldKinds.map String.toList,
      ∀ k' ∈ Update.fieldKinds.map String.toList, k ++ [':'] <+: k' ++ [':'] → k = k' := by
    decide
  have hsame : kind = kind' := by
    rcases List.prefix_or_prefix_of_prefix (hkind.prefix_of_isHeader h)
      (hkind'.prefix_of_isHeader h') with hprefix | hprefix
    · exact hequal kind hkind kind' hkind' hprefix
    · exact (hequal kind' hkind' kind hkind hprefix).symm
  subst hsame
  rw [isHeader, Bool.and_eq_true, beq_iff_eq] at h h'
  exact ⟨rfl, h.2.symm.trans h'.2⟩

theorem stripStart_descriptionLine (text : List Char) :
    stripStart (descriptionLine text) =
      "description:".toList ++ (" \"".toList ++ text ++ "\"\t".toList ++ comment ++ ['\n']) := by
  rfl

/-- The line of a description is no header, whatever the description says. -/
theorem isHeader_descriptionLine {kind : List Char} (hkind : FieldKind kind)
    (name text : List Char) : isHeader kind name (descriptionLine text) = false := by
  have hnone : ∀ k ∈ Update.fieldKinds.map String.toList,
      ¬ k ++ [':'] <+: "description:".toList ∧ ¬ "description:".toList <+: k ++ [':'] := by
    decide
  cases h : isHeader kind name (descriptionLine text) with
  | false => rfl
  | true =>
      have hprefix := hkind.prefix_of_isHeader h
      rw [stripStart_descriptionLine] at hprefix
      rcases List.prefix_or_prefix_of_prefix hprefix (List.prefix_append _ _) with hp | hp
      · exact absurd hp (hnone kind hkind).1
      · exact absurd hp (hnone kind hkind).2

/-! ## One edit -/

section OneEdit

variable {kind name : List Char} (text : List Char)

/-- Lines of which none is the header stay as they are. -/
theorem add_of_no_header {lines : List Line} (h : ∀ line ∈ lines, isHeader kind name line = false) :
    add kind name text lines = lines := by
  induction lines with
  | nil => rfl
  | cons line rest ih =>
      have hrest := ih fun other hother => h other (List.mem_cons_of_mem _ hother)
      rw [add] at hrest ⊢
      rw [List.flatMap_cons, h line (by simp), if_neg Bool.false_ne_true, hrest]
      rfl

/-- An addition goes through the lines one by one. -/
theorem add_append (first second : List Line) :
    add kind name text (first ++ second) =
      add kind name text first ++ add kind name text second := by
  rw [add, add, add, List.flatMap_append]

/-- An addition puts the description right below the header and keeps all lines. -/
theorem add_split {before after : List Line} {header : Line}
    (hheader : isHeader kind name header = true)
    (hbefore : ∀ line ∈ before, isHeader kind name line = false)
    (hafter : ∀ line ∈ after, isHeader kind name line = false) :
    add kind name text (before ++ header :: after) =
      before ++ header :: descriptionLine text :: after := by
  rw [add_append, add_of_no_header text hbefore, ← List.singleton_append, add_append,
    add_of_no_header text hafter]
  simp [add, hheader]

variable (count : Nat)

/-- Lines without the header are copied. -/
theorem copying_of_no_header {lines : List Line} (rest : List Line)
    (h : ∀ line ∈ lines, isHeader kind name line = false) :
    substituteFrom count kind name text .copying (lines ++ rest) =
      lines ++ substituteFrom count kind name text .copying rest := by
  induction lines with
  | nil => rfl
  | cons line more ih =>
      rw [List.cons_append, substituteFrom, h line (by simp), if_neg Bool.false_ne_true,
        ih fun other hother => h other (List.mem_cons_of_mem _ hother), List.cons_append]

theorem seeking_other {line : Line} (rest : List Line) (h : isDescription line = false) :
    substituteFrom count kind name text .seeking (line :: rest) =
      line :: substituteFrom count kind name text .seeking rest := by
  cases count <;> simp [substituteFrom, h]

/-- The first line of the old description is dropped, and with it as many as it has more. -/
theorem seeking_found {line : Line} (rest : List Line) (left : Nat)
    (h : isDescription line = true) :
    substituteFrom (left + 1) kind name text .seeking (line :: rest) =
      substituteFrom (left + 1) kind name text (.dropping left) rest := by
  simp [substituteFrom, h]

/-- Below the header, lines that look like no description are copied. -/
theorem seeking_of_no_description {lines : List Line} (rest : List Line)
    (h : ∀ line ∈ lines, isDescription line = false) :
    substituteFrom count kind name text .seeking (lines ++ rest) =
      lines ++ substituteFrom count kind name text .seeking rest := by
  induction lines with
  | nil => rfl
  | cons line more ih =>
      rw [List.cons_append, seeking_other text count _ (h line (by simp)),
        ih fun other hother => h other (List.mem_cons_of_mem _ hother), List.cons_append]

/-- The rest of the old description is dropped, and the new one stands in front of the next line. -/
theorem dropping_all (dropped : List Line) (last : Line) (rest : List Line) :
    substituteFrom count kind name text (.dropping dropped.length) (dropped ++ last :: rest) =
      descriptionLine text :: last :: substituteFrom count kind name text .copying rest := by
  induction dropped with
  | nil => simp [substituteFrom]
  | cons line more ih =>
      rw [List.length_cons, List.cons_append, substituteFrom]
      exact ih

/-- A substitution that does not get to an old description changes nothing. -/
theorem substitute_of_unmet {lines : List Line} (h : meetsDescription kind name lines = false) :
    substitute count kind name text lines = lines := by
  have hfirst : ∀ line ∈ lines.takeWhile (fun line => !isHeader kind name line),
      isHeader kind name line = false := by
    intro line hline
    simpa using List.mem_takeWhile_imp hline
  have hsplit := List.takeWhile_append_dropWhile (p := fun line => !isHeader kind name line)
    (l := lines)
  rw [meetsDescription] at h
  rw [substitute, ← hsplit, copying_of_no_header text count _ hfirst]
  congr 1
  -- Without a header all lines are copied; below one, no line looks like a description.
  cases hrest : lines.dropWhile (fun line => !isHeader kind name line) with
  | nil => rfl
  | cons header rest =>
      have hheader : isHeader kind name header = true := by
        simpa [hrest] using List.head?_dropWhile_not (fun line => !isHeader kind name line) lines
      rw [hrest, List.drop_one, List.tail_cons] at h
      have hnone : ∀ line ∈ rest, isDescription line = false := fun line hline =>
        Bool.eq_false_iff.mpr (List.any_eq_false.mp h line hline)
      have hkept : substituteFrom count kind name text .seeking (rest ++ []) = rest ++ [] :=
        seeking_of_no_description text count [] hnone
      rw [List.append_nil] at hkept
      rw [substituteFrom, hheader, if_pos rfl, hkept]

/-- A substitution puts the description in place of the old one and keeps all other lines, provided
that a line follows the old description. -/
theorem substitute_split {before between old after : List Line} {header first last : Line}
    (hheader : isHeader kind name header = true)
    (hbefore : ∀ line ∈ before, isHeader kind name line = false)
    (hbetween : ∀ line ∈ between, isDescription line = false)
    (hfirst : isDescription first = true)
    (hafter : ∀ line ∈ after, isHeader kind name line = false) :
    substitute (first :: old).length kind name text
        (before ++ header :: (between ++ (first :: old ++ last :: after))) =
      before ++ header :: (between ++ descriptionLine text :: last :: after) := by
  rw [substitute, copying_of_no_header text _ _ hbefore, substituteFrom, hheader, if_pos rfl,
    seeking_of_no_description text _ _ hbetween, List.cons_append, List.length_cons,
    seeking_found text _ old.length hfirst, dropping_all text (old.length + 1) old last after]
  have hcopied := copying_of_no_header text (old.length + 1) [] hafter
  rw [List.append_nil, substituteFrom, List.append_nil] at hcopied
  rw [hcopied]

end OneEdit

/-! ## Splitting lines where something stands -/

/-- Lines can be cut at the first one that passes a test. -/
theorem exists_split_findIdx (test : Line → Bool) (lines : List Line)
    (h : lines.findIdx test < lines.length) :
    ∃ before found after, lines = before ++ found :: after ∧
      (∀ line ∈ before, test line = false) ∧ test found = true ∧
      before.length = lines.findIdx test := by
  induction lines with
  | nil => exact nomatch h
  | cons line rest ih =>
      rw [List.findIdx_cons] at h ⊢
      cases hline : test line with
      | true => exact ⟨[], line, rest, rfl, (fun _ hmem => nomatch hmem), hline, rfl⟩
      | false =>
          rw [hline, cond_false, List.length_cons, Nat.add_lt_add_iff_right] at h
          obtain ⟨before, found, after, hsplit, hbefore, hfound, hlength⟩ := ih h
          refine ⟨line :: before, found, after, by rw [hsplit, List.cons_append], ?_, hfound,
            by rw [List.length_cons, hlength, cond_false]⟩
          intro other hother
          rcases List.mem_cons.mp hother with rfl | hmem
          · exact hline
          · exact hbefore other hmem

/-- Lines can be cut at the only one that passes a test. -/
theorem exists_split_countP (test : Line → Bool) (lines : List Line)
    (h : lines.countP test = 1) :
    ∃ before found after, lines = before ++ found :: after ∧
      (∀ line ∈ before, test line = false) ∧ test found = true ∧
      (∀ line ∈ after, test line = false) ∧ before.length = lines.findIdx test := by
  have hsome : ∃ line ∈ lines, test line = true :=
    List.countP_pos_iff.mp (by rw [h]; exact Nat.one_pos)
  obtain ⟨before, found, after, hsplit, hbefore, hfound, hlength⟩ :=
    exists_split_findIdx test lines (List.findIdx_lt_length.mpr hsome)
  refine ⟨before, found, after, hsplit, hbefore, hfound, ?_, hlength⟩
  rw [hsplit, List.countP_append, List.countP_cons, hfound, if_pos rfl] at h
  have hnone : after.countP test = 0 := by omega
  intro line hline
  cases hcase : test line with
  | false => rfl
  | true => exact absurd hcase (List.countP_eq_zero.mp hnone line hline)

/-! ## Edits line by line -/

/-- Each line replaced by what a function makes of it at its place. -/
def blocks (change : Nat → Line → List Line) : Nat → List Line → List Line
  | _, [] => []
  | place, line :: rest => change place line ++ blocks change (place + 1) rest

section Blocks

variable {change other : Nat → Line → List Line}

/-- Lines in two parts are changed part by part, each at its own place. -/
theorem blocks_append (first second : List Line) :
    ∀ place, blocks change place (first ++ second) =
      blocks change place first ++ blocks change (place + first.length) second := by
  induction first with
  | nil => intro place; rfl
  | cons line rest ih =>
      intro place
      rw [List.cons_append, blocks, blocks, ih, List.append_assoc, List.length_cons,
        Nat.add_right_comm place 1, Nat.add_assoc]

/-- Changes that agree on the places of some lines make the same of them. -/
theorem blocks_congr (lines : List Line) :
    ∀ place, (∀ spot, place ≤ spot → spot < place + lines.length →
        ∀ line, change spot line = other spot line) →
      blocks change place lines = blocks other place lines := by
  induction lines with
  | nil => intro place _; rfl
  | cons line rest ih =>
      intro place h
      rw [List.length_cons] at h
      rw [blocks, blocks, h place (Nat.le_refl _) (by omega) line,
        ih (place + 1) fun spot hle hlt => h spot (by omega) (by omega)]

/-- Lines stay where nothing is changed. -/
theorem blocks_keep (lines : List Line) (place : Nat)
    (h : ∀ spot, place ≤ spot → spot < place + lines.length → ∀ line, change spot line = [line]) :
    blocks change place lines = lines := by
  have hkept : ∀ spot, blocks (fun _ line => [line]) spot lines = lines := by
    induction lines with
    | nil => intro spot; rfl
    | cons line rest ih =>
        intro spot
        rw [blocks, ih (fun s hle hlt => h s hle (by rw [List.length_cons]; omega))]
        rfl
  rw [blocks_congr lines place h, hkept]

/-- Lines go where everything is dropped. -/
theorem blocks_drop (lines : List Line) (place : Nat)
    (h : ∀ spot, place ≤ spot → spot < place + lines.length → ∀ line, change spot line = []) :
    blocks change place lines = [] := by
  have hdropped : ∀ spot, blocks (fun _ _ => []) spot lines = [] := by
    induction lines with
    | nil => intro spot; rfl
    | cons line rest ih =>
        intro spot
        rw [blocks, ih (fun s hle hlt => h s hle (by rw [List.length_cons]; omega))]
        rfl
  rw [blocks_congr lines place h, hdropped]

/-- Every line that was written was written for some line. -/
theorem mem_blocks {line : Line} (lines : List Line) :
    ∀ place, line ∈ blocks change place lines →
      ∃ spot, ∃ source ∈ lines, line ∈ change spot source := by
  induction lines with
  | nil => intro place h; exact nomatch h
  | cons first rest ih =>
      intro place h
      rcases List.mem_append.mp h with hfirst | hrest
      · exact ⟨place, first, by simp, hfirst⟩
      · obtain ⟨spot, source, hsource, hmem⟩ := ih (place + 1) hrest
        exact ⟨spot, source, List.mem_cons_of_mem _ hsource, hmem⟩

end Blocks

/-! ## Many edits -/

/-- One order to describe a field: its kind and name, the description, whether it has one already,
and how many lines that one has. -/
structure Call where
  count : Nat
  kind : List Char
  name : List Char
  text : List Char
  present : Bool

namespace Call

/-- The lines after the edit. -/
def run (lines : List Line) (call : Call) : List Line :=
  modify call.count call.kind call.name call.text call.present lines

/-- Whether a line is the header of the field. -/
def heads (call : Call) (line : Line) : Bool := isHeader call.kind call.name line

/-- The place of the header. -/
def header (call : Call) (lines : List Line) : Nat := lines.findIdx call.heads

/-- The place at which the old description starts: the first below the header that looks like
one. -/
def old (call : Call) (lines : List Line) : Nat :=
  call.header lines + 1 + (lines.drop (call.header lines + 1)).findIdx isDescription

/-- The place behind the lines that the edit touches. -/
def stop (call : Call) (lines : List Line) : Nat :=
  if call.present then call.old lines + call.count else call.header lines + 1

/-- What an edit makes of the line at a place, if it touches that place: the new description stands
in place of the first line of the old one, whose other lines go, or right behind the header. -/
def edit (call : Call) (lines : List Line) (place : Nat) (line : Line) : Option (List Line) :=
  if call.present then
    if place = call.old lines then some [descriptionLine call.text]
    else if call.old lines < place ∧ place < call.old lines + call.count then some []
    else none
  else if place = call.header lines then some [line, descriptionLine call.text]
  else none

end Call

/-- What some edits make of the line at a place; a line that none of them touches stays. -/
def editAt (calls : List Call) (lines : List Line) (place : Nat) (line : Line) : List Line :=
  (calls.findSome? fun call => call.edit lines place line).getD [line]

/-- The lines after all edits, made at once. -/
def editAll (calls : List Call) (lines : List Line) : List Line :=
  blocks (editAt calls lines) 0 lines

/-- Edits that do not meet: they are about different fields, each of which has one header; behind an
old description stands a line; and between a header and that line stands no header of the fields. -/
structure Apart (lines : List Line) (calls : List Call) : Prop where
  kind : ∀ call ∈ calls, FieldKind call.kind
  count : ∀ call ∈ calls, 1 ≤ call.count
  distinct : calls.Pairwise fun first second =>
    (first.kind, first.name) ≠ (second.kind, second.name)
  once : ∀ call ∈ calls, lines.countP call.heads = 1
  follows : ∀ call ∈ calls, call.present = true → call.old lines + call.count < lines.length
  between : ∀ call ∈ calls, call.present = true → ∀ other ∈ calls,
    ∀ place < call.old lines + call.count, call.header lines < place →
      ∀ line ∈ lines[place]?, other.heads line = false

instance (lines : List Line) (calls : List Call) : Decidable (Apart lines calls) :=
  decidable_of_iff
    ((∀ call ∈ calls, (Update.fieldKinds.map String.toList).contains call.kind = true) ∧
      (∀ call ∈ calls, 1 ≤ call.count) ∧
      (calls.Pairwise fun first second => (first.kind, first.name) ≠ (second.kind, second.name)) ∧
      (∀ call ∈ calls, lines.countP call.heads = 1) ∧
      (∀ call ∈ calls, call.present = true → call.old lines + call.count < lines.length) ∧
      (∀ call ∈ calls, call.present = true → ∀ other ∈ calls,
        ∀ place < call.old lines + call.count, call.header lines < place →
          ∀ line ∈ lines[place]?, other.heads line = false))
    ⟨fun ⟨h1, h2, h3, h4, h5, h6⟩ =>
        ⟨fun call hcall => List.contains_iff_mem.mp (h1 call hcall), h2, h3, h4, h5, h6⟩,
      fun h => ⟨fun call hcall => List.contains_iff_mem.mpr (h.kind call hcall), h.count,
        h.distinct, h.once, h.follows, h.between⟩⟩

namespace Apart

variable {lines : List Line} {calls : List Call}

/-- Edits that do not meet do not meet in another order. -/
theorem perm {order : List Call} (h : Apart lines calls) (hperm : order.Perm calls) :
    Apart lines order where
  kind := fun call hcall => h.kind call (hperm.subset hcall)
  count := fun call hcall => h.count call (hperm.subset hcall)
  distinct := (hperm.pairwise_iff (fun hne heq => hne heq.symm)).mpr h.distinct
  once := fun call hcall => h.once call (hperm.subset hcall)
  follows := fun call hcall => h.follows call (hperm.subset hcall)
  between := fun call hcall hpresent other hother =>
    h.between call (hperm.subset hcall) hpresent other (hperm.subset hother)

/-- Fewer edits do not meet either. -/
theorem sublist {fewer : List Call} (h : Apart lines calls) (hsub : fewer.Sublist calls) :
    Apart lines fewer where
  kind := fun call hcall => h.kind call (hsub.subset hcall)
  count := fun call hcall => h.count call (hsub.subset hcall)
  distinct := h.distinct.sublist hsub
  once := fun call hcall => h.once call (hsub.subset hcall)
  follows := fun call hcall => h.follows call (hsub.subset hcall)
  between := fun call hcall hpresent other hother =>
    h.between call (hsub.subset hcall) hpresent other (hsub.subset hother)

/-- The header of a field stands at its place and nowhere else. -/
theorem header_split (h : Apart lines calls) {call : Call} (hcall : call ∈ calls) :
    ∃ before header after, lines = before ++ header :: after ∧
      (∀ line ∈ before, call.heads line = false) ∧ call.heads header = true ∧
      (∀ line ∈ after, call.heads line = false) ∧ before.length = call.header lines :=
  exists_split_countP call.heads lines (h.once call hcall)

/-- The line at the place of the header is the header. -/
theorem header_line (h : Apart lines calls) {call : Call} (hcall : call ∈ calls) :
    ∃ line, lines[call.header lines]? = some line ∧ call.heads line = true := by
  obtain ⟨before, header, after, hsplit, _, hheader, _, hlength⟩ := h.header_split hcall
  refine ⟨header, ?_, hheader⟩
  rw [← hlength, hsplit]
  simp

/-- Two fields do not share a header. -/
theorem header_ne (h : Apart lines calls) {first second : Call} (hfirst : first ∈ calls)
    (hsecond : second ∈ calls) (hne : (first.kind, first.name) ≠ (second.kind, second.name)) :
    first.header lines ≠ second.header lines := by
  intro heq
  obtain ⟨line, hline, hheads⟩ := h.header_line hfirst
  obtain ⟨line', hline', hheads'⟩ := h.header_line hsecond
  rw [← heq, hline] at hline'
  obtain rfl := Option.some.inj hline'
  obtain ⟨hkind, hname⟩ :=
    isHeader_unique (h.kind first hfirst) (h.kind second hsecond) hheads hheads'
  exact hne (by rw [hkind, hname])

/-- An edit is over before the next header. -/
theorem stop_le (h : Apart lines calls) {first second : Call} (hfirst : first ∈ calls)
    (hsecond : second ∈ calls) (hlt : first.header lines < second.header lines) :
    first.stop lines ≤ second.header lines := by
  rw [Call.stop]
  split
  · next hpresent =>
      refine Nat.le_of_not_lt fun hinside => ?_
      obtain ⟨line, hline, hheads⟩ := h.header_line hsecond
      have hnone := h.between first hfirst hpresent second hsecond _ hinside hlt line hline
      rw [hheads] at hnone
      exact nomatch hnone
  · exact hlt

end Apart

/-- An edit touches places from its header to its stop only. -/
theorem Call.edit_outside {call : Call} (hcount : 1 ≤ call.count) (lines : List Line) {place : Nat}
    (h : place < call.header lines ∨ call.stop lines ≤ place) (line : Line) :
    call.edit lines place line = none := by
  rw [Call.stop] at h
  have hold : call.header lines < call.old lines := by rw [Call.old]; omega
  rw [Call.edit]
  split
  · next hpresent =>
      rw [if_pos hpresent] at h
      rw [if_neg (by omega), if_neg (by omega)]
  · next hpresent =>
      rw [if_neg hpresent] at h
      rw [if_neg (by omega)]

/-- A line that no edit touches stays. -/
theorem editAt_of_untouched {calls : List Call} {lines : List Line} {place : Nat} {line : Line}
    (h : ∀ call ∈ calls, call.edit lines place line = none) :
    editAt calls lines place line = [line] := by
  rw [editAt, List.findSome?_eq_none_iff.mpr h]
  rfl

/-- One more edit is asked after the others. -/
theorem editAt_append (calls : List Call) (call : Call) (lines : List Line) (place : Nat)
    (line : Line) :
    editAt (calls ++ [call]) lines place line =
      ((calls.findSome? fun c => c.edit lines place line).or (call.edit lines place line)).getD
        [line] := by
  rw [editAt, List.findSome?_append, List.findSome?_singleton]

/-- What edits write is the line that was there or a description. -/
theorem mem_editAt {calls : List Call} {lines : List Line} {place : Nat} {line written : Line}
    (h : written ∈ editAt calls lines place line) :
    written = line ∨ ∃ text, written = descriptionLine text := by
  rw [editAt] at h
  cases hfound : calls.findSome? fun call => call.edit lines place line with
  | none =>
      rw [hfound] at h
      exact Or.inl (List.mem_singleton.mp h)
  | some edited =>
      rw [hfound] at h
      obtain ⟨call, _, hedit⟩ := List.exists_of_findSome?_eq_some hfound
      -- An edit writes the new description, or drops the line, or writes the description behind it.
      rw [Call.edit] at hedit
      split at hedit
      · split at hedit
        · obtain rfl := Option.some.inj hedit
          exact Or.inr ⟨call.text, List.mem_singleton.mp h⟩
        · split at hedit
          · obtain rfl := Option.some.inj hedit
            exact nomatch h
          · exact nomatch hedit
      · split at hedit
        · obtain rfl := Option.some.inj hedit
          rcases List.mem_cons.mp h with heq | hmem
          · exact Or.inl heq
          · exact Or.inr ⟨call.text, List.mem_singleton.mp hmem⟩
        · exact nomatch hedit

namespace Apart

variable {lines : List Line} {calls : List Call} {call : Call}

/-- Edits write no header into lines without one. -/
theorem not_heads_of_mem_blocks (hkind : FieldKind call.kind) {part : List Line}
    (h : ∀ line ∈ part, call.heads line = false) (place : Nat) :
    ∀ line ∈ blocks (editAt calls lines) place part, call.heads line = false := by
  intro line hline
  obtain ⟨spot, source, hsource, hmem⟩ := mem_blocks part place hline
  rcases mem_editAt hmem with rfl | ⟨text, rfl⟩
  · exact h _ hsource
  · exact isHeader_descriptionLine hkind call.name text

/-- The places that one edit touches are touched by no other. -/
theorem edit_other (h : Apart lines (calls ++ [call])) {other : Call} (hother : other ∈ calls)
    {place : Nat} (hfrom : call.header lines ≤ place) (hto : place < call.stop lines)
    (line : Line) : other.edit lines place line = none := by
  have hmem : call ∈ calls ++ [call] := by simp
  have hmem' : other ∈ calls ++ [call] := List.mem_append_left _ hother
  have hne : (other.kind, other.name) ≠ (call.kind, call.name) :=
    (List.pairwise_append.mp h.distinct).2.2 other hother call (by simp)
  have hheader := h.header_ne hmem' hmem hne
  refine Call.edit_outside (h.count other hmem') lines ?_ line
  -- One of the two edits is over before the other starts.
  rcases Nat.lt_or_gt_of_ne hheader with hlt | hgt
  · exact Or.inr (Nat.le_trans (h.stop_le hmem' hmem hlt) hfrom)
  · exact Or.inl (Nat.lt_of_lt_of_le hto (h.stop_le hmem hmem' hgt))

/-- An edit touches the place of its header, at least. -/
theorem header_lt_stop (call : Call) (lines : List Line) : call.header lines < call.stop lines := by
  rw [Call.stop, Call.old]
  split <;> omega

/-- Where an edit ends, the others may add behind the line but keep it. -/
theorem editAt_stop (h : Apart lines (calls ++ [call])) (line : Line) :
    ∃ more, editAt calls lines (call.stop lines) line = line :: more ∧
      ∀ written ∈ more, ∃ text, written = descriptionLine text := by
  rw [editAt]
  cases hfound : calls.findSome? fun c => c.edit lines (call.stop lines) line with
  | none => exact ⟨[], rfl, fun _ hmem => nomatch hmem⟩
  | some edited =>
      obtain ⟨other, hother, hedit⟩ := List.exists_of_findSome?_eq_some hfound
      have hmem : call ∈ calls ++ [call] := by simp
      have hmem' : other ∈ calls ++ [call] := List.mem_append_left _ hother
      have hne : (other.kind, other.name) ≠ (call.kind, call.name) :=
        (List.pairwise_append.mp h.distinct).2.2 other hother call (by simp)
      have hstop := header_lt_stop call lines
      -- the other edit can only start here: it is over before the header, or starts behind it
      have hbegin : call.stop lines ≤ other.header lines := by
        rcases Nat.lt_or_gt_of_ne (h.header_ne hmem' hmem hne) with hlt | hgt
        · rw [Call.edit_outside (h.count other hmem') lines
            (Or.inr (Nat.le_trans (h.stop_le hmem' hmem hlt) (Nat.le_of_lt hstop))) line] at hedit
          exact nomatch hedit
        · exact h.stop_le hmem hmem' hgt
      have hold : other.header lines < other.old lines := by rw [Call.old]; omega
      rw [Call.edit] at hedit
      split at hedit
      · rw [if_neg (by omega), if_neg (by omega)] at hedit
        exact nomatch hedit
      · split at hedit
        · obtain rfl := Option.some.inj hedit
          exact ⟨[descriptionLine other.text], rfl, fun written hwritten =>
            ⟨other.text, List.mem_singleton.mp hwritten⟩⟩
        · exact nomatch hedit

/-- Outside of what an edit touches, one more edit changes nothing. -/
theorem editAt_outside (hcount : 1 ≤ call.count) {place : Nat}
    (hplace : place < call.header lines ∨ call.stop lines ≤ place) (line : Line) :
    editAt (calls ++ [call]) lines place line = editAt calls lines place line := by
  rw [editAt_append, Call.edit_outside hcount lines hplace line, Option.or_none, editAt]

/-- Lines outside of what an edit touches are left to the others. -/
theorem blocks_outside (hcount : 1 ≤ call.count) {place : Nat} {part : List Line}
    (hwhere : place + part.length ≤ call.header lines ∨ call.stop lines ≤ place) :
    blocks (editAt (calls ++ [call]) lines) place part = blocks (editAt calls lines) place part :=
  blocks_congr part place fun _ _ _ => editAt_outside hcount (by omega)

/-- Where an edit touches a place, it alone says what stands there. -/
theorem editAt_inside (h : Apart lines (calls ++ [call])) {place : Nat}
    (hfrom : call.header lines ≤ place) (hto : place < call.stop lines) (line : Line) :
    editAt calls lines place line = [line] ∧
      editAt (calls ++ [call]) lines place line = (call.edit lines place line).getD [line] := by
  have hnone : ∀ other ∈ calls, other.edit lines place line = none := fun other hother =>
    h.edit_other hother hfrom hto line
  refine ⟨editAt_of_untouched hnone, ?_⟩
  rw [editAt_append, List.findSome?_eq_none_iff.mpr hnone, Option.none_or]

/-- What a substitution makes of the places that it touches: the lines above the old description
stay, the new one stands in place of the first line of the old one, and the other lines of that
go. -/
theorem editAt_present (h : Apart lines (calls ++ [call])) (hpresent : call.present = true)
    {place : Nat} (hfrom : call.header lines ≤ place) (hto : place < call.stop lines)
    (line : Line) :
    editAt (calls ++ [call]) lines place line =
      if place < call.old lines then [line]
      else if place = call.old lines then [descriptionLine call.text] else [] := by
  rw [(h.editAt_inside hfrom hto line).2, Call.edit, if_pos hpresent]
  rw [Call.stop, if_pos hpresent] at hto
  rcases Nat.lt_trichotomy place (call.old lines) with hlt | heq | hgt
  · rw [if_neg (by omega), if_neg (by omega), if_pos hlt, Option.getD_none]
  · rw [if_pos heq, if_neg (by omega), if_pos heq, Option.getD_some]
  · rw [if_neg (by omega), if_pos ⟨hgt, hto⟩, if_neg (by omega), if_neg (by omega),
      Option.getD_some]

/-- The lines of a field with a description, cut at its header and around the old description. -/
theorem present_split (h : Apart lines calls) (hcall : call ∈ calls)
    (hpresent : call.present = true) :
    ∃ before header between first old last after,
      lines = before ++ header :: (between ++ (first :: old ++ last :: after)) ∧
      (∀ line ∈ before, call.heads line = false) ∧ call.heads header = true ∧
      (∀ line ∈ last :: after, call.heads line = false) ∧
      (∀ line ∈ between, isDescription line = false) ∧ isDescription first = true ∧
      before.length = call.header lines ∧
      before.length + 1 + between.length = call.old lines ∧ (first :: old).length = call.count := by
  obtain ⟨before, header, below, hsplit, hbefore, hheader, hbelow, hlength⟩ := h.header_split hcall
  have hdrop : lines.drop (call.header lines + 1) = below := by
    rw [← hlength, hsplit, List.append_cons, List.drop_left' (by simp)]
  have hold : call.old lines = call.header lines + 1 + below.findIdx isDescription := by
    rw [Call.old, hdrop]
  have hroom : below.findIdx isDescription + call.count < below.length := by
    have hfollows := h.follows call hcall hpresent
    have htotal := congrArg List.length hsplit
    rw [List.length_append, List.length_cons, hlength] at htotal
    omega
  obtain ⟨between, first, rest, hbetween, hnone, hfirst, hplace⟩ :=
    exists_split_findIdx isDescription below (by omega)
  -- The old description ends in front of the last line, so there is a line to stop at.
  have hcount := h.count call hcall
  have hrest : call.count - 1 < rest.length := by
    have htotal := congrArg List.length hbetween
    rw [List.length_append, List.length_cons] at htotal
    omega
  have hcut : rest = rest.take (call.count - 1) ++ rest[call.count - 1] ::
      rest.drop (call.count - 1 + 1) := by
    rw [← List.drop_eq_getElem_cons hrest, List.take_append_drop]
  refine ⟨before, header, between, first, rest.take (call.count - 1), rest[call.count - 1],
    rest.drop (call.count - 1 + 1), ?_, hbefore, hheader, ?_, hnone, hfirst, hlength, ?_, ?_⟩
  · rw [hsplit, hbetween, List.cons_append, ← hcut]
  · intro line hline
    refine hbelow line ?_
    rw [hbetween, hcut]
    exact List.mem_append_right _ (List.mem_cons_of_mem _ (List.mem_append_right _ hline))
  · rw [hold, hplace, hlength]
  · rw [List.length_cons, List.length_take_of_le (Nat.le_of_lt hrest)]
    omega

/-- One more addition on lines that others have edited. -/
theorem run_addition (h : Apart lines (calls ++ [call])) (habsent : call.present = false) :
    call.run (editAll calls lines) = editAll (calls ++ [call]) lines := by
  have hcall : call ∈ calls ++ [call] := by simp
  have hkind := h.kind call hcall
  have hcount := h.count call hcall
  obtain ⟨before, header, after, hsplit, hbefore, hheader, hafter, hplace⟩ := h.header_split hcall
  have hend : call.stop lines = call.header lines + 1 := by
    rw [Call.stop, habsent, if_neg Bool.false_ne_true]
  have hparts : ∀ change, blocks change 0 lines = blocks change 0 before ++
      (change (call.header lines) header ++ blocks change (call.header lines + 1) after) := by
    intro change
    rw [← hplace]
    rw [hsplit, blocks_append, blocks, Nat.zero_add]
  obtain ⟨hfree, hedited⟩ :=
    h.editAt_inside (Nat.le_refl _) (header_lt_stop call lines) header
  have hnew : call.edit lines (call.header lines) header =
      some [header, descriptionLine call.text] := by
    rw [Call.edit, habsent, if_neg Bool.false_ne_true, if_pos rfl]
  -- The earlier edits wrote no header, so the header is found at its place among what they left.
  rw [Call.run, modify, habsent, if_neg Bool.false_ne_true, editAll, editAll, hparts, hparts,
    hfree, hedited, hnew, blocks_outside hcount (Or.inl (by omega)),
    blocks_outside hcount (Or.inr (by omega)), List.singleton_append,
    add_split call.text hheader (not_heads_of_mem_blocks hkind hbefore _)
      (not_heads_of_mem_blocks hkind hafter _)]
  rfl

/-- One more substitution on lines that others have edited. -/
theorem run_substitution (h : Apart lines (calls ++ [call])) (hpresent : call.present = true) :
    call.run (editAll calls lines) = editAll (calls ++ [call]) lines := by
  have hcall : call ∈ calls ++ [call] := by simp
  have hkind := h.kind call hcall
  have hcount := h.count call hcall
  obtain ⟨before, header, between, first, old, last, after, hsplit, hbefore, hheader, hafter,
    hbetween, hfirst, hplace, hold, hlength⟩ := h.present_split hcall hpresent
  have hend : call.stop lines = call.old lines + call.count := by
    rw [Call.stop, if_pos hpresent]
  have hparts : ∀ change, blocks change 0 lines = blocks change 0 before ++
      (change (call.header lines) header ++
        (blocks change (call.header lines + 1) between ++
          (change (call.old lines) first ++ (blocks change (call.old lines + 1) old ++
            (change (call.stop lines) last ++ blocks change (call.stop lines + 1) after))))) := by
    intro change
    have hstop : call.stop lines = call.old lines + 1 + old.length := by
      rw [hend, ← hlength, List.length_cons]
      omega
    rw [hstop, ← hold, ← hplace]
    rw [hsplit, blocks_append, blocks, blocks_append, List.cons_append, blocks, blocks_append,
      blocks, Nat.zero_add]
  have hfree : ∀ place, call.header lines ≤ place → place < call.stop lines → ∀ line,
      editAt calls lines place line = [line] :=
    fun _ hfrom hto line => (h.editAt_inside hfrom hto line).1
  obtain ⟨more, hlast, hmore⟩ := h.editAt_stop last
  -- the lines that the earlier edits have left: the part from the header on is untouched
  have hthen : editAll calls lines = blocks (editAt calls lines) 0 before ++
      header :: (between ++ (first :: old ++ last ::
        (more ++ blocks (editAt calls lines) (call.stop lines + 1) after))) := by
    rw [editAll, hparts, hfree _ (Nat.le_refl _) (header_lt_stop call lines) header,
      blocks_keep between _ fun spot hle hlt => hfree spot (by omega) (by omega),
      hfree (call.old lines) (by omega) (by omega) first,
      blocks_keep old _ fun spot hle hlt => hfree spot (by omega) (by
        rw [List.length_cons] at hlength; omega), hlast]
    simp
  -- with this edit the old description gives way to the new one
  have hnow : editAll (calls ++ [call]) lines = blocks (editAt calls lines) 0 before ++
      header :: (between ++ descriptionLine call.text :: last ::
        (more ++ blocks (editAt calls lines) (call.stop lines + 1) after)) := by
    have hkept : ∀ place, call.header lines ≤ place → place < call.old lines → ∀ line,
        editAt (calls ++ [call]) lines place line = [line] := by
      intro place hfrom hto line
      rw [h.editAt_present hpresent hfrom (by omega), if_pos hto]
    have hgone : ∀ place, call.old lines < place → place < call.stop lines → ∀ line,
        editAt (calls ++ [call]) lines place line = [] := by
      intro place hfrom hto line
      rw [h.editAt_present hpresent (by omega) hto, if_neg (by omega), if_neg (by omega)]
    have hnew : editAt (calls ++ [call]) lines (call.old lines) first =
        [descriptionLine call.text] := by
      rw [h.editAt_present hpresent (by omega) (by omega), if_neg (Nat.lt_irrefl _), if_pos rfl]
    rw [editAll, hparts, hkept _ (Nat.le_refl _) (by omega) header,
      blocks_keep between _ fun spot hle hlt => hkept spot (by omega) (by omega), hnew,
      blocks_drop old _ fun spot hle hlt => hgone spot (by omega) (by
        rw [List.length_cons] at hlength; omega),
      editAt_outside hcount (Or.inr (Nat.le_refl _)), hlast,
      blocks_outside hcount (Or.inl (by omega)), blocks_outside hcount (Or.inr (by omega))]
    simp
  have hnone : ∀ line ∈ more ++ blocks (editAt calls lines) (call.stop lines + 1) after,
      call.heads line = false := by
    intro line hline
    rcases List.mem_append.mp hline with hmem | hmem
    · obtain ⟨text, rfl⟩ := hmore line hmem
      exact isHeader_descriptionLine hkind call.name text
    · exact not_heads_of_mem_blocks hkind
        (fun other hother => hafter other (List.mem_cons_of_mem _ hother)) _ line hmem
  rw [hthen, hnow, Call.run, modify, if_pos hpresent, ← hlength]
  exact substitute_split call.text hheader (not_heads_of_mem_blocks hkind hbefore _) hbetween
    hfirst hnone

/-- **ONE MORE EDIT** on lines that others have edited is the same as all of them at once. -/
theorem run_editAll (h : Apart lines (calls ++ [call])) :
    call.run (editAll calls lines) = editAll (calls ++ [call]) lines := by
  cases hpresent : call.present with
  | true => exact h.run_substitution hpresent
  | false => exact h.run_addition hpresent

/-- Edits one after the other, from lines on which some are made already. -/
theorem foldl_run (rest : List Call) :
    ∀ done : List Call, Apart lines (done ++ rest) →
      rest.foldl Call.run (editAll done lines) = editAll (done ++ rest) lines := by
  -- The invariant is that the lines so far are those with the done edits made at once.
  induction rest with
  | nil => intro done _; rw [List.foldl_nil, List.append_nil]
  | cons call more ih =>
      intro done h
      rw [List.append_cons] at h ⊢
      rw [List.foldl_cons, (h.sublist (List.sublist_append_left _ _)).run_editAll]
      exact ih (done ++ [call]) h

end Apart

/-- Without edits all lines stay. -/
theorem editAll_nil (lines : List Line) : editAll [] lines = lines :=
  blocks_keep lines 0 fun _ _ _ _ => rfl

namespace Apart

variable {lines : List Line} {calls : List Call}

/-- Only one edit touches a place. -/
theorem edit_unique (h : Apart lines calls) {first second : Call} (hfirst : first ∈ calls)
    (hsecond : second ∈ calls) {place : Nat} {line : Line} {made made' : List Line}
    (hedit : first.edit lines place line = some made)
    (hedit' : second.edit lines place line = some made') : first = second := by
  have hwithin : ∀ call ∈ calls, call.edit lines place line ≠ none →
      call.header lines ≤ place ∧ place < call.stop lines := by
    intro call hcall hsome
    refine ⟨Nat.le_of_not_lt fun hlt => hsome ?_, Nat.lt_of_not_le fun hle => hsome ?_⟩
    · exact Call.edit_outside (h.count call hcall) lines (Or.inl hlt) line
    · exact Call.edit_outside (h.count call hcall) lines (Or.inr hle) line
  obtain ⟨hfrom, hto⟩ := hwithin first hfirst (by rw [hedit]; exact Option.some_ne_none _)
  obtain ⟨hfrom', hto'⟩ := hwithin second hsecond (by rw [hedit']; exact Option.some_ne_none _)
  by_cases heq : first = second
  · exact heq
  · exfalso
    have hsymm : Std.Symm fun a b : Call => (a.kind, a.name) ≠ (b.kind, b.name) :=
      ⟨fun _ _ hne heq => hne heq.symm⟩
    have hne : (first.kind, first.name) ≠ (second.kind, second.name) :=
      h.distinct.forall hfirst hsecond heq
    rcases Nat.lt_or_gt_of_ne (h.header_ne hfirst hsecond hne) with hlt | hgt
    · have := h.stop_le hfirst hsecond hlt
      omega
    · have := h.stop_le hsecond hfirst hgt
      omega

/-- All edits at once do not depend on the order in which they are listed. -/
theorem editAll_perm {order : List Call} (h : Apart lines calls) (hperm : order.Perm calls) :
    editAll order lines = editAll calls lines := by
  refine blocks_congr lines 0 fun place _ _ line => congrArg (Option.getD · [line]) ?_
  -- What the first edit in one order makes of the line is what the first in the other makes: it is
  -- the same edit.
  have hsome : ∀ made, (order.findSome? fun call => call.edit lines place line) = some made →
      (calls.findSome? fun call => call.edit lines place line) = some made := by
    intro made hmade
    obtain ⟨call, hcall, hedit⟩ := List.exists_of_findSome?_eq_some hmade
    cases hfound : calls.findSome? fun call => call.edit lines place line with
    | none =>
        rw [List.findSome?_eq_none_iff.mp hfound call (hperm.subset hcall)] at hedit
        exact nomatch hedit
    | some made' =>
        obtain ⟨call', hcall', hedit'⟩ := List.exists_of_findSome?_eq_some hfound
        obtain rfl := h.edit_unique (hperm.subset hcall) hcall' hedit hedit'
        exact hedit'.symm.trans hedit
  cases hfound : order.findSome? fun call => call.edit lines place line with
  | none =>
      refine (List.findSome?_eq_none_iff.mpr fun call hcall => ?_).symm
      exact List.findSome?_eq_none_iff.mp hfound call (hperm.symm.subset hcall)
  | some made => exact (hsome made hfound).symm

end Apart

/-- **EDITS AT ONCE**: edits of different fields that do not meet give, one after the other and in
whatever order, the lines with all of them made at once. -/
theorem foldl_run_eq_editAll (lines : List Line) (calls : List Call) (h : Apart lines calls)
    (order : List Call) (hperm : order.Perm calls) :
    order.foldl Call.run lines = editAll calls lines := by
  have hall := Apart.foldl_run order [] (h.perm hperm)
  rw [editAll_nil, List.nil_append] at hall
  rw [hall, h.editAll_perm hperm]

/-- Lines with a field whose description is to be replaced and one that gets its first. -/
def twoFields : List Line :=
  ["  dimension: a \x7b\n".toList, "    description: \"old\n".toList, "    text\"\n".toList,
    "  \x7d\n".toList, "  measure: b \x7b\n".toList, "  \x7d\n".toList]

/-- An order for each of the two fields. -/
def bothFields : List Call :=
  [⟨2, "dimension".toList, "a".toList, "A".toList, true⟩,
    ⟨1, "measure".toList, "b".toList, "B".toList, false⟩]

/-- Two edits that do not meet, made in the other order. -/
theorem twoFields_edited :
    Apart twoFields bothFields ∧
      bothFields.reverse.foldl Call.run twoFields =
        ["  dimension: a \x7b\n".toList, descriptionLine "A".toList, "  \x7d\n".toList,
          "  measure: b \x7b\n".toList, descriptionLine "B".toList, "  \x7d\n".toList] := by
  have hapart : Apart twoFields bothFields := by decide
  refine ⟨hapart, ?_⟩
  rw [foldl_run_eq_editAll twoFields bothFields hapart _ (List.reverse_perm _)]
  decide

end LookmlProject.Edit
