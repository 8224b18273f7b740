import LookmlProject.Proofs.Additions
import LookmlProject.Proofs.AllOrNothing

/-! # Descriptions that are replaced

    A substitution is told how many lines the old description has, drops that many, and
    writes the new description in front of the next line.  What it does depends on what
    stands behind the dropped lines, whether they are the old description or not:

    * `substitute_below`: the lines from the first description on are dropped, and where
      nothing is left the new description is not written either (`replacement`);
    * so the new description stands in place of the old one exactly if a line follows
      (`substituted_iff_line_follows`);
    * a request that is made with texts is the edit of a call, whether an old description
      is met or not (`modifyRequest_text`, `foldlM_request`);
    * a field that is described twice is edited with what was known of it before: an
      addition stands above the first one (`run_run_absent`), and a substitution drops as
      many lines as before, from the new description on (`run_run_present`).  So the
      later definition wins exactly if the old description had one line
      (`later_definition_wins_iff`). -/

namespace LookmlProject.Edit

/-! ## What stands behind an old description -/

/-- The lines from an old description on, where these are left behind it. -/
def replacement (text : List Char) : List Line → List Line
  | [] => []
  | line :: rest => descriptionLine text :: line :: rest

section Below

variable {kind name : List Char} (text : List Char)

/-- Dropping goes on to the end of the lines, or to a line above which the description is
written. -/
theorem dropping_eq (count : Nat) {lines : List Line}
    (h : ∀ line ∈ lines, isHeader kind name line = false) :
    ∀ left, substituteFrom count kind name text (.dropping left) lines =
      replacement text (lines.drop left) := by
  induction lines with
  | nil => intro left; rw [List.drop_nil]; rfl
  | cons line rest ih =>
      obtain ⟨_, hrest⟩ := List.forall_mem_cons.mp h
      intro left
      cases left with
      | zero =>
          have hcopied := copying_of_no_header text count [] hrest
          rw [List.append_nil, substituteFrom, List.append_nil] at hcopied
          rw [substituteFrom, hcopied]
          rfl
      | succ left => rw [substituteFrom, ih hrest, List.drop_succ_cons]

variable {before between below : List Line} {header first : Line}

/-- A substitution drops as many lines as it is told, from the first description below the header
on. -/
theorem substitute_below (hheader : isHeader kind name header = true)
    (hbefore : ∀ line ∈ before, isHeader kind name line = false)
    (hbetween : ∀ line ∈ between, isDescription line = false)
    (hfirst : isDescription first = true)
    (hbelow : ∀ line ∈ below, isHeader kind name line = false) (left : Nat) :
    substitute (left + 1) kind name text (before ++ header :: (between ++ first :: below)) =
      before ++ header :: (between ++ replacement text (below.drop left)) := by
  rw [substitute, copying_of_no_header text _ _ hbefore, substituteFrom, hheader, if_pos rfl,
    seeking_of_no_description text _ _ hbetween, seeking_found text _ left hfirst,
    dropping_eq text _ hbelow]

theorem meetsDescription_below (hheader : isHeader kind name header = true)
    (hbefore : ∀ line ∈ before, isHeader kind name line = false)
    (hfirst : isDescription first = true) :
    meetsDescription kind name (before ++ header :: (between ++ first :: below)) = true := by
  rw [meetsDescription, List.dropWhile_append_of_pos fun line hline => by
      rw [hbefore line hline]; rfl,
    List.dropWhile_cons_of_neg (by rw [hheader]; exact Bool.false_ne_true), List.drop_one,
    List.tail_cons, List.any_append, List.any_cons, hfirst, Bool.true_or, Bool.or_true]

end Below

theorem substituteRequest_text {kind name : String} (text : String) {lines : List Line}
    (h : meetsDescription kind.toList name.toList lines = true) (count : Nat) :
    substituteRequest (.int count) (.text kind) (.text name) (.text text) lines =
      .ok (substitute count kind.toList name.toList text.toList lines) := by
  rw [substituteRequest]
  split
  · next hempty =>
      rw [List.isEmpty_iff.mp hempty] at h
      exact nomatch h
  · show (if meetsDescription kind.toList name.toList lines = true then _ else _) = _
    rw [if_pos h]
    rfl

/-- **A LINE HAS TO FOLLOW**: a substitution that is told the number of lines of the old description
puts the new one in its place, and keeps all other lines, exactly if a line follows the old one.  If
none does, the new description is lost with the old one. -/
theorem substituted_iff_line_follows {kind name text : String}
    {before between old after : List Line} {header first : Line}
    (hheader : isHeader kind.toList name.toList header = true)
    (honly : ∀ line ∈ before ++ (between ++ (first :: old ++ after)),
      isHeader kind.toList name.toList line = false)
    (hbetween : ∀ line ∈ between, isDescription line = false)
    (hfirst : isDescription first = true) :
    ∃ result, substituteRequest (.int (first :: old).length) (.text kind) (.text name) (.text text)
        (before ++ header :: (between ++ (first :: old ++ after))) = .ok result ∧
      result = before ++ header :: (between ++ replacement text.toList after) ∧
      (result = before ++ header :: (between ++ descriptionLine text.toList :: after) ↔
        after ≠ []) := by
  have hbefore : ∀ line ∈ before, isHeader kind.toList name.toList line = false :=
    fun line hline => honly line (List.mem_append_left _ hline)
  have hbelow : ∀ line ∈ old ++ after, isHeader kind.toList name.toList line = false :=
    fun line hline => honly line (List.mem_append_right _ (List.mem_append_right _
      (List.mem_cons_of_mem _ hline)))
  have hmeets : meetsDescription kind.toList name.toList
      (before ++ header :: (between ++ (first :: old ++ after))) = true :=
    meetsDescription_below hheader hbefore hfirst
  have hresult := substitute_below text.toList hheader hbefore hbetween hfirst hbelow old.length
  rw [List.drop_left] at hresult
  refine ⟨_, substituteRequest_text text hmeets _, hresult, ?_⟩
  rw [List.length_cons, List.cons_append, hresult, List.append_cancel_left_eq, List.cons.injEq,
    List.append_cancel_left_eq]
  cases after with
  | nil => simp [replacement]
  | cons line rest => simp [replacement]

/-- The lines of a field whose brace stands on a line of its own. -/
theorem replaced_in_front_of_brace :
    ∃ result, substituteRequest (.int 2) (.text "dimension") (.text "a") (.text "new")
        (["view: v \x7b\n".toList] ++ "dimension: a \x7b\n".toList :: (["type: string\n".toList] ++
          ("description: \"old\n".toList :: ["text\"\n".toList] ++ ["\x7d \x7d".toList]))) =
          .ok result ∧
      result = ["view: v \x7b\n".toList, "dimension: a \x7b\n".toList, "type: string\n".toList,
        descriptionLine "new".toList, "\x7d \x7d".toList] := by
  obtain ⟨result, hresult, _, hiff⟩ := @substituted_iff_line_follows "dimension" "a" "new"
    ["view: v \x7b\n".toList] ["type: string\n".toList] ["text\"\n".toList] ["\x7d \x7d".toList]
    "dimension: a \x7b\n".toList "description: \"old\n".toList (by decide) (by decide) (by decide)
    (by decide)
  exact ⟨result, hresult, hiff.mpr (by decide)⟩

/-- With the braces on the last line of the description, that description and the new one are
lost. -/
theorem last_description_lost :
    isHeader "dimension".toList "a".toList "dimension: a \x7b\n".toList = true ∧
      isDescription "description: \"old\" \x7d \x7d".toList = true ∧
      substituteRequest (.int 1) (.text "dimension") (.text "a") (.text "new")
        ["view: v \x7b\n".toList, "dimension: a \x7b\n".toList,
          "description: \"old\" \x7d \x7d".toList] =
        .ok ["view: v \x7b\n".toList, "dimension: a \x7b\n".toList] ∧
      ["view: v \x7b\n".toList, "dimension: a \x7b\n".toList] ≠
        ["view: v \x7b\n".toList, "dimension: a \x7b\n".toList, descriptionLine "new".toList] := by
  refine ⟨by decide, by decide, ?_, by decide⟩
  exact (substituteRequest_text "new" (by decide) 1).trans (congrArg Except.ok (by decide))

/-! ## Requests with texts -/

theorem modifyRequest_text (count : Nat) (kind name text : String) (present : Bool)
    (lines : List Line) :
    modifyRequest (.int count) (.text kind) (.text name) (.text text) (.bool present) lines =
      .ok (modify count kind.toList name.toList text.toList present lines) := by
  have htruthy : (Value.bool present).truthy = present := rfl
  rw [modifyRequest, htruthy, modify]
  cases present with
  | false => exact addRequest_text kind name text lines
  | true =>
      rw [if_pos rfl, if_pos rfl]
      cases hmeets : meetsDescription kind.toList name.toList lines with
      | true => exact substituteRequest_text text hmeets count
      | false =>
          -- The request leaves the lines alone at once, and the edit goes through them in vain.
          rw [substitute_of_unmet text.toList count hmeets, substituteRequest]
          split
          · rfl
          · show (if meetsDescription kind.toList name.toList lines = true then _ else _) = _
            rw [hmeets, if_neg Bool.false_ne_true]
            rfl

/-- The request for an edit. -/
def Call.request (lines : List Line) (call : Call) : Except Fault (List Line) :=
  modifyRequest (.int call.count) (.text (String.ofList call.kind))
    (.text (String.ofList call.name)) (.text (String.ofList call.text)) (.bool call.present) lines

theorem Call.request_eq (call : Call) (lines : List Line) :
    call.request lines = .ok (call.run lines) := by
  rw [Call.request, modifyRequest_text]
  simp only [String.toList_ofList, Call.run]

/-- **REQUESTS** with texts, one after the other, make the edits of the calls. -/
theorem foldlM_request (calls : List Call) (lines : List Line) :
    calls.foldlM Call.request lines = .ok (calls.foldl Call.run lines) := by
  induction calls generalizing lines with
  | nil => rfl
  | cons call rest ih =>
      rw [List.foldlM_cons, Call.request_eq, List.foldl_cons]
      exact ih (call.run lines)

/-! ## One field described twice -/

/-- The same order with another description. -/
def Call.describing (call : Call) (text : List Char) : Call := { call with text := text }

/-- A field with one header.  If it has a description, a line stands behind as many lines as that
has. -/
structure Clear (lines : List Line) (call : Call) : Prop where
  kind : FieldKind call.kind
  count : 1 ≤ call.count
  once : lines.countP call.heads = 1
  follows : call.present = true → call.old lines + call.count < lines.length

theorem length_replacement_le (text : List Char) (rest : List Line) :
    (replacement text rest).length ≤ rest.length + 1 := by
  cases rest <;> simp [replacement]

theorem isDescription_descriptionLine (text : List Char) :
    isDescription (descriptionLine text) = true := by
  rw [isDescription, List.isPrefixOf_iff_prefix, Text.solid_prefix_strip (by decide),
    stripStart_descriptionLine]
  exact (by decide : "description".toList <+: "description:".toList).trans (List.prefix_append _ _)

namespace Clear

variable {lines : List Line} {call : Call}

theorem apart (h : Clear lines call) : Apart lines [call] where
  kind := List.forall_mem_singleton.mpr h.kind
  count := List.forall_mem_singleton.mpr h.count
  distinct := List.pairwise_singleton _ _
  once := List.forall_mem_singleton.mpr h.once
  follows := List.forall_mem_singleton.mpr h.follows
  between := by
    obtain ⟨before, header, after, hsplit, _, _, hafter, hlength⟩ :=
      exists_split_countP call.heads lines h.once
    intro call' hcall _ other hother place _ hplace line hline
    obtain rfl := List.mem_singleton.mp hcall
    obtain rfl := List.mem_singleton.mp hother
    have hbehind : before.length < place := by rw [hlength]; exact hplace
    rw [hsplit, List.append_cons, List.getElem?_append_right (by simpa using hbehind)] at hline
    exact hafter line (List.mem_of_getElem? hline)

/-- Two additions leave two descriptions, the later one above the earlier. -/
theorem run_run_absent (h : Clear lines call) (habsent : call.present = false) :
    ∃ before header after, lines = before ++ header :: after ∧
      ∀ first, (call.describing first).run lines =
          before ++ header :: descriptionLine first :: after ∧
        ∀ second, (call.describing second).run ((call.describing first).run lines) =
          before ++ header :: descriptionLine second :: descriptionLine first :: after := by
  obtain ⟨before, header, after, hsplit, hbefore, hheader, hafter, _⟩ :=
    exists_split_countP call.heads lines h.once
  have hrun : ∀ text below, (∀ line ∈ below, call.heads line = false) →
      (call.describing text).run (before ++ header :: below) =
        before ++ header :: descriptionLine text :: below := by
    intro text below hbelow
    show modify call.count call.kind call.name text call.present _ = _
    rw [modify, habsent, if_neg Bool.false_ne_true, add_split text hheader hbefore hbelow]
  refine ⟨before, header, after, hsplit, fun first => ?_⟩
  rw [hsplit, hrun first after hafter]
  refine ⟨rfl, fun second => hrun second _ (List.forall_mem_cons.mpr ⟨?_, hafter⟩)⟩
  exact isHeader_descriptionLine h.kind call.name first

/-- A second substitution drops as many lines as the first, now from the new description on. -/
theorem run_run_present (h : Clear lines call) (hpresent : call.present = true) :
    ∃ before header between old rest, lines = before ++ header :: (between ++ (old ++ rest)) ∧
      old.length = call.count ∧ rest ≠ [] ∧
      before.length + 1 + between.length = call.old lines ∧
      ∀ first, (call.describing first).run lines =
          before ++ header :: (between ++ descriptionLine first :: rest) ∧
        ∀ second, (call.describing second).run ((call.describing first).run lines) =
          before ++ header :: (between ++ replacement second (rest.drop (call.count - 1))) := by
  obtain ⟨before, header, between, found, old, last, after, hsplit, hbefore, hheader, hafter,
    hbetween, hfound, _, hplace, hlength⟩ := h.apart.present_split (by simp) hpresent
  have hrun : ∀ text lines', (call.describing text).run lines' =
      substitute (call.count - 1 + 1) call.kind call.name text lines' := by
    intro text lines'
    show modify call.count call.kind call.name text call.present lines' = _
    rw [modify, if_pos hpresent, Nat.sub_add_cancel h.count]
  refine ⟨before, header, between, found :: old, last :: after, hsplit, hlength,
    List.cons_ne_nil _ _, hplace, fun first => ?_⟩
  have honce : (call.describing first).run lines =
      before ++ header :: (between ++ descriptionLine first :: last :: after) := by
    rw [hrun, Nat.sub_add_cancel h.count, ← hlength, hsplit]
    exact substitute_split first hheader hbefore hbetween hfound
      (List.forall_mem_cons.mp hafter).2
  refine ⟨honce, fun second => ?_⟩
  rw [honce, hrun]
  exact substitute_below second hheader hbefore hbetween (isDescription_descriptionLine first)
    hafter _

/-- **THE LATER EDIT WINS** exactly if there is an old description, of one line. -/
theorem run_run_eq_iff (h : Clear lines call) (first second : List Char) :
    (call.describing second).run ((call.describing first).run lines) =
        (call.describing second).run lines ↔
      call.present = true ∧ call.count = 1 := by
  cases hpresent : call.present with
  | false =>
      obtain ⟨before, header, after, _, hrun⟩ := h.run_run_absent hpresent
      rw [(hrun first).2, (hrun second).1]
      refine iff_of_false (fun heq => ?_) (fun h => Bool.false_ne_true h.1)
      have hlength := congrArg List.length heq
      simp at hlength
  | true =>
      obtain ⟨before, header, between, old, rest, _, _, hrest, _, hrun⟩ :=
        h.run_run_present hpresent
      rw [(hrun first).2, (hrun second).1, List.append_cancel_left_eq, List.cons.injEq,
        List.append_cancel_left_eq]
      have hcount := h.count
      constructor
      · rintro ⟨_, heq⟩
        have hlength := congrArg List.length heq
        have hle := length_replacement_le second (rest.drop (call.count - 1))
        have hpos := List.length_pos_iff.mpr hrest
        rw [List.length_drop] at hle
        rw [List.length_cons] at hlength
        exact ⟨rfl, by omega⟩
      · rintro ⟨_, hone⟩
        rw [hone, Nat.sub_self, List.drop_zero]
        cases rest with
        | nil => exact absurd rfl hrest
        | cons line rest => exact ⟨rfl, rfl⟩

/-- An edit changes nothing exactly if the old description is the line that it writes. -/
theorem run_eq_self_iff (h : Clear lines call) (text : List Char) :
    (call.describing text).run lines = lines ↔
      call.present = true ∧ call.count = 1 ∧
        lines[call.old lines]? = some (descriptionLine text) := by
  cases hpresent : call.present with
  | false =>
      obtain ⟨before, header, after, hsplit, hrun⟩ := h.run_run_absent hpresent
      refine iff_of_false (fun heq => ?_) (fun h => Bool.false_ne_true h.1)
      rw [(hrun text).1, hsplit] at heq
      have hlength := congrArg List.length heq
      simp at hlength
  | true =>
      obtain ⟨before, header, between, old, rest, hsplit, hold, _, hplace, hrun⟩ :=
        h.run_run_present hpresent
      have hline : lines[call.old lines]? = (old ++ rest)[0]? := by
        rw [← hplace]
        conv_lhs => rw [hsplit]
        rw [List.getElem?_append_right (by omega), show before.length + 1 + between.length -
          before.length = between.length + 1 by omega, List.getElem?_cons_succ,
          List.getElem?_append_right (Nat.le_refl _), Nat.sub_self]
      rw [hline, (hrun text).1]
      conv_lhs => rw [hsplit]
      rw [List.append_cancel_left_eq, List.cons.injEq, List.append_cancel_left_eq,
        ← List.singleton_append, List.append_cancel_right_eq, ← hold]
      cases old with
      | nil => exact absurd hold (by have := h.count; simp; omega)
      | cons line more => cases more <;> simp [eq_comm]

end Clear

end LookmlProject.Edit

namespace LookmlProject.Update

open Lookml Edit Value

theorem splitChar_length_pos (mark : Char) (cs : List Char) :
    1 ≤ (Text.splitChar mark cs).length := by
  cases cs with
  | nil => exact Nat.le_refl 1
  | cons c rest =>
      rw [Text.splitChar]
      split
      · exact Nat.le_add_left 1 _
      · split
        · exact Nat.le_refl 1
        · exact Nat.le_add_left 1 _

/-- The same request with another definition. -/
def Request.defining (request : Request) (definition : Value) : Request :=
  { request with definition := definition }

/-- The edit for a request of a document. -/
theorem Requests.clear {doc : Document} {row : Row} {request : Request} {definition : Value}
    {lines : List Line} (h : Requests doc row (request.defining definition))
    (honce : lines.countP request.call.heads = 1)
    (hfollows : request.present = true →
      request.call.old lines + request.call.count < lines.length) :
    Clear lines request.call where
  kind := by
    obtain ⟨field, hlocated, _⟩ := h.field
    obtain ⟨_, key, _, _, _, hkey, hmem, _⟩ := hlocated.found
    cases hkey
    exact List.mem_map_of_mem hmem
  count := splitChar_length_pos _ _
  once := honce
  follows := hfollows

/-- **THE LATER DEFINITION WINS** only in some cases.  A document has a field with one header and,
if the field has a description, with a line behind as many lines as that has.  Two edits of the field,
both made with what the document says of it, give the same lines as the later one alone exactly if
the description has one line.  Two rows about it give the same lines as the later one alone exactly
if the earlier asks for nothing, or the description has one line and the later row asks for
something, or the earlier one asks for the very line that is there. -/
theorem later_definition_wins_iff {doc : Document} {lines : List Line} {first second : Row}
    {request : Request} {earlier later : Value}
    (hfirst : Requests doc first (request.defining earlier))
    (hsecond : Requests doc second (request.defining later))
    (honce : lines.countP request.call.heads = 1)
    (hfollows : request.present = true →
      request.call.old lines + request.call.count < lines.length) :
    (∀ text text' : List Char,
      (request.call.describing text').run ((request.call.describing text).run lines) =
          (request.call.describing text').run lines ↔
        request.present = true ∧ request.call.count = 1) ∧
    ([first, second].foldlM (describe doc) lines = [second].foldlM (describe doc) lines ↔
      isCurrent (.text request.old) earlier = true ∨
        request.present = true ∧ request.call.count = 1 ∧
          (isCurrent (.text request.old) later = true →
            lines[request.call.old lines]? = some (descriptionLine earlier.display.toList))) := by
  have hclear : Clear lines request.call := hfirst.clear honce hfollows
  refine ⟨fun text text' => hclear.run_run_eq_iff text text', ?_⟩
  rw [foldlM_describe_of_requests (.cons hfirst (.cons hsecond .nil)),
    foldlM_describe_of_requests (.cons hsecond .nil), Except.ok.injEq]
  have hrun : ∀ (definition : Value) (lines : List Line),
      Request.run lines (request.defining definition) =
        if isCurrent (.text request.old) definition then lines
        else (request.call.describing definition.display.toList).run lines := fun _ _ => rfl
  have hpresent : request.present = request.call.present := rfl
  simp only [List.foldl_cons, List.foldl_nil, hrun, hpresent]
  cases hearlier : isCurrent (.text request.old) earlier with
  | true => simp
  | false =>
      cases hlater : isCurrent (.text request.old) later with
      | true => simpa using hclear.run_eq_self_iff earlier.display.toList
      | false =>
          simpa using hclear.run_run_eq_iff earlier.display.toList later.display.toList

namespace Twice

/-- A view with one dimension and these lines at its start. -/
def view (lines : String) : List Char :=
  ("view: v \x7b\n  dimension: a \x7b\n" ++ lines ++ "    type: string\n  \x7d\n\x7d\n").toList

/-- The view in a store. -/
def store (lines : String) : Store := storeOf "v.view.lkml" (view lines)

/-- The row for the dimension with a definition. -/
def row (definition : String) : Row :=
  Definitions.columns.zip (["v.view.lkml", "dimension", "a", definition].map .text)

/-- What the view says of the dimension. -/
def request (old : String) (present : Bool) : Request :=
  ⟨"dimension", .text "a", .null, old, present⟩

theorem exists_requests {lines old : String} {present : Bool}
    (h : ((Document.load (store lines) "v.view.lkml").toOption.bind fun doc =>
      (findDescription doc (.text "dimension") (.text "a")).toOption.map fun found =>
        (found.1.isText old, found.2)) = some (true, present)) :
    ∃ doc, Document.load (store lines) "v.view.lkml" = .ok doc ∧ ∀ definition,
      Requests doc (row definition) ((request old present).defining (.text definition)) := by
  cases hdoc : Document.load (store lines) "v.view.lkml" with
  | error fault => rw [hdoc] at h; exact nomatch h
  | ok doc =>
      rw [hdoc] at h
      cases hdescription : findDescription doc (.text "dimension") (.text "a") with
      | error fault => simp [Except.toOption, hdescription] at h
      | ok found =>
          simp only [Except.toOption, Option.bind_some, hdescription, Option.map_some,
            Option.some.injEq, Prod.mk.injEq] at h
          obtain ⟨field, hlocated, hanswer⟩ := (findDescription_eq_ok_iff _ _ _ _).mp hdescription
          have hold : answer field = (.text old, present) := by
            rw [← hanswer]
            exact Prod.ext (eq_text_of_isText h.1) h.2
          exact ⟨doc, rfl, fun _ => ⟨rfl, rfl, rfl, field, hlocated, hold⟩⟩

end Twice

/-- Of two rows about a description of one line the later wins. -/
theorem short_later_wins :
    ∃ doc, Document.load (Twice.store "    description: \"old\"\n") "v.view.lkml" = .ok doc ∧
      [Twice.row "one", Twice.row "two"].foldlM (describe doc)
          (Text.lines (Twice.view "    description: \"old\"\n")) =
        [Twice.row "two"].foldlM (describe doc)
          (Text.lines (Twice.view "    description: \"old\"\n")) := by
  obtain ⟨doc, hdoc, hrequests⟩ := @Twice.exists_requests "    description: \"old\"\n" "old" true
    (by decide +kernel)
  refine ⟨doc, hdoc, ?_⟩
  exact (later_definition_wins_iff (hrequests "one") (hrequests "two") (by decide)
    (fun _ => by decide)).2.mpr (.inr ⟨rfl, by decide, fun h => absurd h (by decide)⟩)

/-- Without a description both definitions are written, and where there is one of two lines the
second row drops a line more. -/
theorem both_written_or_line_lost :
    (∃ doc, Document.load (Twice.store "") "v.view.lkml" = .ok doc ∧
      [Twice.row "one", Twice.row "two"].foldlM (describe doc) (Text.lines (Twice.view "")) =
        .ok ["view: v \x7b\n".toList, "  dimension: a \x7b\n".toList, descriptionLine "two".toList,
          descriptionLine "one".toList, "    type: string\n".toList, "  \x7d\n".toList,
          "\x7d\n".toList] ∧
      [Twice.row "two"].foldlM (describe doc) (Text.lines (Twice.view "")) =
        .ok ["view: v \x7b\n".toList, "  dimension: a \x7b\n".toList, descriptionLine "two".toList,
          "    type: string\n".toList, "  \x7d\n".toList, "\x7d\n".toList]) ∧
    ∃ doc, Document.load (Twice.store "    description: \"old\n text\"\n") "v.view.lkml" =
        .ok doc ∧
      [Twice.row "one", Twice.row "two"].foldlM (describe doc)
          (Text.lines (Twice.view "    description: \"old\n text\"\n")) =
        .ok ["view: v \x7b\n".toList, "  dimension: a \x7b\n".toList, descriptionLine "two".toList,
          "  \x7d\n".toList, "\x7d\n".toList] ∧
      [Twice.row "two"].foldlM (describe doc)
          (Text.lines (Twice.view "    description: \"old\n text\"\n")) =
        .ok ["view: v \x7b\n".toList, "  dimension: a \x7b\n".toList, descriptionLine "two".toList,
          "    type: string\n".toList, "  \x7d\n".toList, "\x7d\n".toList] := by
  constructor
  · obtain ⟨doc, hdoc, hrequests⟩ := @Twice.exists_requests "" "" false (by decide +kernel)
    refine ⟨doc, hdoc, ?_, ?_⟩
    · rw [foldlM_describe_of_requests (.cons (hrequests "one") (.cons (hrequests "two") .nil))]
      exact congrArg Except.ok (by decide)
    · rw [foldlM_describe_of_requests (.cons (hrequests "two") .nil)]
      exact congrArg Except.ok (by decide)
  · obtain ⟨doc, hdoc, hrequests⟩ := @Twice.exists_requests
      "    description: \"old\n text\"\n" "old\n text" true (by decide +kernel)
    refine ⟨doc, hdoc, ?_, ?_⟩
    · rw [foldlM_describe_of_requests (.cons (hrequests "one") (.cons (hrequests "two") .nil))]
      exact congrArg Except.ok (by decide)
    · rw [foldlM_describe_of_requests (.cons (hrequests "two") .nil)]
      exact congrArg Except.ok (by decide)

end LookmlProject.Update
