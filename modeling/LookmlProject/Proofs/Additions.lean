import LookmlProject.Edit.Request
import LookmlProject.Proofs.Edits

/-! # Additions of descriptions

    An addition goes through all lines, also those that earlier additions have written,
    and nothing is assumed about the lines: a field may have no header, or many, or
    stand on one line.

    * `annotate` puts below each line the description of the field whose header it is,
      all fields at once;
    * one more addition on annotated lines is one more field in the annotation
      (`add_annotate`), since no description is a header and no line the header of two
      fields;
    * so additions give the annotated lines in every order, and the lines below headers
      are all that they put in (`withoutNotes_annotate`, `length_annotate`). -/

namespace LookmlProject.Edit

/-! ## Lines with descriptions below headers -/

/-- Whether a line is the header of one of some fields. -/
def headsSome (calls : List Call) (line : Line) : Bool := calls.any fun call => call.heads line

/-- What is put below a line: the description of the field whose header it is. -/
def notes (calls : List Call) (line : Line) : List Line :=
  ((calls.find? fun call => call.heads line).map fun call => descriptionLine call.text).toList

/-- Each line with what is put below it. -/
def annotate (calls : List Call) (lines : List Line) : List Line :=
  lines.flatMap fun line => line :: notes calls line

/-- Lines without those right below a header.  The flag says that a header has just come. -/
def withoutNotes (heads : Line → Bool) : Bool → List Line → List Line
  | _, [] => []
  | true, _ :: rest => withoutNotes heads false rest
  | false, line :: rest => line :: withoutNotes heads (heads line) rest

section Annotate

variable (calls : List Call) {line : Line}

theorem annotate_cons (line : Line) (rest : List Line) :
    annotate calls (line :: rest) = line :: (notes calls line ++ annotate calls rest) := by
  rw [annotate, List.flatMap_cons, List.cons_append, annotate]

theorem annotate_nil (lines : List Line) : annotate [] lines = lines := by
  induction lines with
  | nil => rfl
  | cons line rest ih => rw [annotate_cons, ih]; rfl

/-- Below a header stands one line, and below any other none. -/
theorem notes_cases (line : Line) :
    (headsSome calls line = true ∧ ∃ note, notes calls line = [note]) ∨
      (headsSome calls line = false ∧ notes calls line = []) := by
  rw [notes, headsSome]
  cases hfound : calls.find? fun call => call.heads line with
  | some call =>
      have hmem := List.mem_of_find?_eq_some hfound
      have hheads := List.find?_some hfound
      exact .inl ⟨List.any_eq_true.mpr ⟨call, hmem, hheads⟩, _, rfl⟩
  | none =>
      refine .inr ⟨List.any_eq_false.mpr fun call hcall => ?_, rfl⟩
      exact List.find?_eq_none.mp hfound call hcall

/-- There is one more line for each header. -/
theorem length_annotate (lines : List Line) :
    (annotate calls lines).length = lines.length + lines.countP (headsSome calls) := by
  induction lines with
  | nil => rfl
  | cons line rest ih =>
      rw [annotate_cons, List.length_cons, List.length_append, ih, List.length_cons,
        List.countP_cons]
      rcases notes_cases calls line with ⟨hheads, note, hnote⟩ | ⟨hheads, hnote⟩
      · rw [hnote, hheads, if_pos rfl, List.length_singleton]
        omega
      · rw [hnote, hheads, if_neg Bool.false_ne_true, List.length_nil]
        omega

/-- Without the lines below headers the lines are as they were. -/
theorem withoutNotes_annotate (lines : List Line) :
    withoutNotes (headsSome calls) false (annotate calls lines) = lines := by
  induction lines with
  | nil => rfl
  | cons line rest ih =>
      rw [annotate_cons, withoutNotes]
      rcases notes_cases calls line with ⟨hheads, note, hnote⟩ | ⟨hheads, hnote⟩
      · rw [hnote, hheads, List.singleton_append, withoutNotes, ih]
      · rw [hnote, hheads, List.nil_append, ih]

end Annotate

/-! ## One addition more -/

/-- Different fields, all of a kind that has descriptions. -/
structure Unlike (calls : List Call) : Prop where
  kind : ∀ call ∈ calls, FieldKind call.kind
  distinct : calls.Pairwise fun first second =>
    (first.kind, first.name) ≠ (second.kind, second.name)

namespace Unlike

variable {calls : List Call}

/-- Different fields are different in any order. -/
theorem perm {order : List Call} (h : Unlike calls) (hperm : order.Perm calls) : Unlike order where
  kind := fun call hcall => h.kind call (hperm.subset hcall)
  distinct := (hperm.pairwise_iff fun hne heq => hne heq.symm).mpr h.distinct

theorem sublist {fewer : List Call} (h : Unlike calls) (hsub : fewer.Sublist calls) :
    Unlike fewer where
  kind := fun call hcall => h.kind call (hsub.subset hcall)
  distinct := h.distinct.sublist hsub

/-- A line is the header of at most one of the fields. -/
theorem heads_unique (h : Unlike calls) {first second : Call} (hfirst : first ∈ calls)
    (hsecond : second ∈ calls) {line : Line} (hheads : first.heads line = true)
    (hheads' : second.heads line = true) : first = second := by
  obtain ⟨hkind, hname⟩ :=
    isHeader_unique (h.kind first hfirst) (h.kind second hsecond) hheads hheads'
  have hsymm : Std.Symm fun a b : Call => (a.kind, a.name) ≠ (b.kind, b.name) :=
    ⟨fun _ _ hne heq => hne heq.symm⟩
  by_contra hne
  exact h.distinct.forall hfirst hsecond hne (by rw [hkind, hname])

/-- The field whose header a line is, is found wherever it stands. -/
theorem find?_eq_some_iff (h : Unlike calls) (line : Line) (call : Call) :
    (calls.find? fun call => call.heads line) = some call ↔
      call ∈ calls ∧ call.heads line = true := by
  constructor
  · intro hfound
    have hheads := List.find?_some hfound
    exact ⟨List.mem_of_find?_eq_some hfound, hheads⟩
  · rintro ⟨hcall, hheads⟩
    cases hfound : calls.find? fun call => call.heads line with
    | none => exact absurd hheads (List.find?_eq_none.mp hfound call hcall)
    | some other =>
        have hheads' := List.find?_some hfound
        rw [h.heads_unique (List.mem_of_find?_eq_some hfound) hcall hheads' hheads]

/-- What is put below a line does not depend on the order of the fields. -/
theorem notes_perm {order : List Call} (h : Unlike calls) (hperm : order.Perm calls) (line : Line) :
    notes order line = notes calls line := by
  have hfind : (order.find? fun call => call.heads line) =
      calls.find? fun call => call.heads line := by
    -- Whichever field is found, it is the only one whose header the line is.
    refine Option.ext fun call => ?_
    rw [(h.perm hperm).find?_eq_some_iff, h.find?_eq_some_iff, hperm.mem_iff]
  rw [notes, notes, hfind]

/-- All descriptions at once do not depend on the order of the fields. -/
theorem annotate_perm {order : List Call} (h : Unlike calls) (hperm : order.Perm calls)
    (lines : List Line) : annotate order lines = annotate calls lines := by
  rw [annotate, annotate]
  exact congrArg (lines.flatMap ·) (funext fun line => by rw [h.notes_perm hperm])

/-- Below a line, one more addition finds no header among what others have put there, and if the
line is its own header, nothing has been put there. -/
theorem add_notes {call : Call} (h : Unlike (calls ++ [call])) (line : Line) :
    add call.kind call.name call.text (line :: notes calls line) =
      line :: notes (calls ++ [call]) line := by
  have hcall : call ∈ calls ++ [call] := by simp
  have hnone : ∀ note ∈ notes calls line, isHeader call.kind call.name note = false := by
    intro note hnote
    rw [notes, Option.mem_toList, Option.map_eq_some_iff] at hnote
    obtain ⟨other, _, rfl⟩ := hnote
    exact isHeader_descriptionLine (h.kind call hcall) call.name other.text
  have hfind : ((calls ++ [call]).find? fun c => c.heads line) =
      (calls.find? fun c => c.heads line).or (if call.heads line then some call else none) := by
    rw [List.find?_append, List.find?_singleton]
  rw [← List.singleton_append, add_append, add_of_no_header _ hnone]
  -- If the line is the header of this field, it is the header of no other, so nothing stands below
  -- it.
  cases hheads : call.heads line with
  | false =>
      have hsame : notes (calls ++ [call]) line = notes calls line := by
        rw [notes, hfind, hheads, if_neg Bool.false_ne_true, Option.or_none, notes]
      rw [hsame, add_of_no_header _ (List.forall_mem_singleton.mpr hheads)]
      rfl
  | true =>
      have hfree : (calls.find? fun c => c.heads line) = none := by
        refine List.find?_eq_none.mpr fun other hother hother' => ?_
        have hne := (List.pairwise_append.mp h.distinct).2.2 other hother call (by simp)
        rw [h.heads_unique (List.mem_append_left _ hother) hcall hother' hheads] at hne
        exact hne rfl
      have hown : isHeader call.kind call.name line = true := hheads
      rw [notes, notes, hfind, hfree, hheads, add, List.flatMap_singleton, if_pos hown]
      rfl

/-- **ONE MORE ADDITION** on annotated lines is one more field in the annotation. -/
theorem add_annotate {call : Call} (h : Unlike (calls ++ [call])) (lines : List Line) :
    add call.kind call.name call.text (annotate calls lines) =
      annotate (calls ++ [call]) lines := by
  induction lines with
  | nil => rfl
  | cons line rest ih =>
      rw [annotate_cons, ← List.cons_append, add_append, h.add_notes, ih, annotate_cons,
        List.cons_append]

end Unlike

/-! ## Requests one after the other -/

/-- A request with texts is an addition. -/
theorem addRequest_text (kind name text : String) (lines : List Line) :
    addRequest (.text kind) (.text name) (.text text) lines =
      .ok (add kind.toList name.toList text.toList lines) := by
  cases lines with
  | nil => rfl
  | cons line rest => rfl

/-- The request to add a description to a field. -/
def Call.addition (lines : List Line) (call : Call) : Except Fault (List Line) :=
  addRequest (.text (String.ofList call.kind)) (.text (String.ofList call.name))
    (.text (String.ofList call.text)) lines

/-- The request for a field is its addition. -/
theorem Call.addition_eq (call : Call) (lines : List Line) :
    call.addition lines = .ok (add call.kind call.name call.text lines) := by
  rw [Call.addition, addRequest_text]
  simp only [String.toList_ofList]

/-- Additions one after the other, from lines to which some are made already. -/
theorem Unlike.foldlM_addition (lines : List Line) (rest : List Call) :
    ∀ done : List Call, Unlike (done ++ rest) →
      rest.foldlM Call.addition (annotate done lines) = .ok (annotate (done ++ rest) lines) := by
  induction rest with
  | nil => intro done _; rw [List.append_nil]; rfl
  | cons call more ih =>
      intro done h
      rw [List.append_cons] at h ⊢
      rw [List.foldlM_cons, Call.addition_eq,
        (h.sublist (List.sublist_append_left _ _)).add_annotate]
      exact ih (done ++ [call]) h

/-- **ADDITIONS ONLY INSERT**: whatever the lines are, additions to different fields give in every
order the lines with each description right below each header of its field.  There are as many more
lines as there are headers, and without the lines below headers the lines are as they were. -/
theorem additions_insert_below_headers (lines : List Line) (calls order : List Call)
    (hkind : ∀ call ∈ calls, FieldKind call.kind)
    (hdistinct : calls.Pairwise fun first second =>
      (first.kind, first.name) ≠ (second.kind, second.name))
    (hperm : order.Perm calls) :
    order.foldlM Call.addition lines = .ok (annotate calls lines) ∧
      (annotate calls lines).length = lines.length + lines.countP (headsSome calls) ∧
      withoutNotes (headsSome calls) false (annotate calls lines) = lines := by
  have hunlike : Unlike calls := ⟨hkind, hdistinct⟩
  have hrun := Unlike.foldlM_addition lines order [] (hunlike.perm hperm)
  rw [annotate_nil, List.nil_append, hunlike.annotate_perm hperm] at hrun
  exact ⟨hrun, length_annotate calls lines, withoutNotes_annotate calls lines⟩

/-- Lines in which one field has two headers, another stands on one line, and a third is not
there. -/
def looseLines : List Line :=
  ["dimension: a \x7b\n".toList, "\x7d dimension_group: a \x7b\x7d\n".toList,
    "  dimension_group: a \x7b \x7d\n".toList, "dimension: a\x7b".toList]

/-- An addition for each field, with a description that looks like a header. -/
def looseCalls : List Call :=
  [⟨1, "dimension".toList, "a".toList, "x\ndimension: a \x7b".toList, false⟩,
    ⟨1, "dimension_group".toList, "a".toList, "y".toList, false⟩,
    ⟨1, "measure".toList, "a".toList, "z".toList, false⟩]

/-- Three additions in the other order: two headers, a field on one line, and a field that is not
there. -/
theorem looseLines_annotated :
    looseCalls.reverse.foldlM Call.addition looseLines =
        .ok ["dimension: a \x7b\n".toList, descriptionLine "x\ndimension: a \x7b".toList,
          "\x7d dimension_group: a \x7b\x7d\n".toList, "  dimension_group: a \x7b \x7d\n".toList,
          descriptionLine "y".toList, "dimension: a\x7b".toList,
          descriptionLine "x\ndimension: a \x7b".toList] ∧
      withoutNotes (headsSome looseCalls) false (annotate looseCalls looseLines) = looseLines := by
  have hkind : ∀ call ∈ looseCalls, FieldKind call.kind := by
    have hall : ∀ call ∈ looseCalls,
        (Update.fieldKinds.map String.toList).contains call.kind = true := by decide
    exact fun call hcall => List.contains_iff_mem.mp (hall call hcall)
  obtain ⟨hrun, _, hkept⟩ := additions_insert_below_headers looseLines looseCalls _ hkind
    (by decide) (List.reverse_perm looseCalls)
  refine ⟨?_, hkept⟩
  rw [hrun]
  refine congrArg Except.ok ?_
  decide

end LookmlProject.Edit
