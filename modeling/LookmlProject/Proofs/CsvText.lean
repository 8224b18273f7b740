import LookmlProject.Csv.Reader
import LookmlProject.Csv.Writer

/-! # Records that are written and read

    `FileText` says when a text is records written as CSV: a field stands as it is,
    or in quotes that double the quotes inside, and a line ends by a line feed, a
    carriage return or both.  The writer writes such texts (`fileText_lines`).  The
    reader finds these records again (`records_of_fileText`), and makes a table of
    them if all have as many fields as the first (`parse_of_records`).  The route, up
    the grammar:

    * a field leaves the reader with its characters, and nothing else finished
      (`FieldText.leads`);
    * a line that starts with blanks is read again from its start, which is where
      the reader last noted it (`FieldText.leads_fieldStart`);
    * a line leaves one more record, and the reader ready for the next one
      (`Ready.exists_ready`).

    The bound on the steps is kept along the way (`Leads`): a line of some length
    takes at most five times as many steps. -/

namespace LookmlProject.Csv

/-! ## Written records -/

/-- A character that stands for itself in a field without quotes. -/
def IsPlain (c : Char) : Prop := c ≠ ',' ∧ c ≠ '"' ∧ c ≠ '\n' ∧ c ≠ '\r'

/-- A field as it is written: as it stands, or in quotes. -/
inductive FieldText : List Char → List Char → Prop where
  | plain {cell : List Char} : (∀ c ∈ cell, IsPlain c) → FieldText cell cell
  | quoted (cell : List Char) : FieldText cell (quote cell)

/-- The fields of a line as they are written, with commas between them. -/
inductive LineText : List (List Char) → List Char → Prop where
  | last {cell written : List Char} : FieldText cell written → LineText [cell] written
  | cons {cell written : List Char} {more : List (List Char)} {text : List Char} :
      FieldText cell written → LineText more text → LineText (cell :: more) (written ++ ',' :: text)

/-- What ends a line. -/
inductive LineEnd : List Char → Prop where
  | feed : LineEnd ['\n']
  | carriage : LineEnd ['\r']
  | both : LineEnd ['\r', '\n']

/-- Records as they are written, a line for each; the last line may lack its end. -/
inductive FileText : List Record → List Char → Prop where
  | nil : FileText [] []
  | last {fields : Record} {line : List Char} : LineText fields line → FileText [fields] line
  | cons {fields : Record} {line ends : List Char} {more : List Record} {text : List Char} :
      LineText fields line → LineEnd ends → FileText more text →
      FileText (fields :: more) (line ++ (ends ++ text))

/-! ## What is written -/

/-- The writer spells a cell as a field, if it has no carriage return. -/
theorem fieldText_cell {cs : List Char} (h : '\r' ∉ cs) : FieldText cs (cell cs) := by
  rw [cell]
  split
  · exact .quoted cs
  · next hplain =>
      refine .plain fun c hc => ?_
      have hmark : ¬ (c == ',' || c == '"' || c == '\n') = true := fun hmark =>
        hplain (List.any_eq_true.mpr ⟨c, hc, hmark⟩)
      simp only [Bool.or_eq_true, beq_iff_eq, not_or] at hmark
      exact ⟨hmark.1.1, hmark.1.2, hmark.2, fun hreturn => h (hreturn ▸ hc)⟩

theorem lineText_joinWith {cells : List (List Char)} (hne : cells ≠ [])
    (h : ∀ cell ∈ cells, '\r' ∉ cell) : LineText cells (Text.joinWith [','] (cells.map cell)) := by
  induction cells with
  | nil => exact absurd rfl hne
  | cons first rest ih =>
      obtain ⟨hfirst, hrest⟩ := List.forall_mem_cons.mp h
      cases rest with
      | nil => exact .last (fieldText_cell hfirst)
      | cons second more =>
          show LineText _ (cell first ++ [','] ++ Text.joinWith [','] ((second :: more).map cell))
          rw [List.append_assoc, List.singleton_append]
          exact .cons (fieldText_cell hfirst) (ih (List.cons_ne_nil _ _) hrest)

/-- **WHAT IS WRITTEN** for records of several fields without carriage returns is their text. -/
theorem fileText_lines {all : List Record}
    (h : ∀ cells ∈ all, 2 ≤ cells.length ∧ ∀ cell ∈ cells, '\r' ∉ cell) :
    FileText all (all.flatMap line) := by
  induction all with
  | nil => exact .nil
  | cons cells more ih =>
      obtain ⟨⟨hlength, hcells⟩, hmore⟩ := List.forall_mem_cons.mp h
      have hline : line cells = Text.joinWith [','] (cells.map cell) ++ ['\n'] := by
        unfold line
        split
        · exact absurd hlength (by decide)
        · rfl
      have hne : cells ≠ [] := fun hnil => absurd hlength (by simp [hnil])
      rw [List.flatMap_cons, hline, List.append_assoc]
      exact .cons (lineText_joinWith hne hcells) .feed (ih hmore)

/-! ## Steps of the reader -/

/-- The reader comes from one draft and text to another, by so many steps at most. -/
def Leads (count : Nat) (draft : Draft) (text : List Char) (draft' : Draft) (text' : List Char) :
    Prop :=
  ∃ n ≤ count, ∀ fuel, Draft.run (n + fuel) draft text = Draft.run fuel draft' text'

theorem Leads.refl (draft : Draft) (text : List Char) : Leads 0 draft text draft text :=
  ⟨0, Nat.le_refl 0, fun fuel => by rw [Nat.zero_add]⟩

theorem Leads.trans {first second : Nat} {draft draft' draft'' : Draft}
    {text text' text'' : List Char} (h : Leads first draft text draft' text')
    (h' : Leads second draft' text' draft'' text'') :
    Leads (first + second) draft text draft'' text'' := by
  obtain ⟨n, hn, hrun⟩ := h
  obtain ⟨n', hn', hrun'⟩ := h'
  exact ⟨n + n', Nat.add_le_add hn hn', fun fuel => by rw [Nat.add_assoc, hrun, hrun']⟩

theorem Leads.weaken {count count' : Nat} {draft draft' : Draft} {text text' : List Char}
    (h : Leads count draft text draft' text') (hcount : count ≤ count') :
    Leads count' draft text draft' text' := by
  obtain ⟨n, hn, hrun⟩ := h
  exact ⟨n, Nat.le_trans hn hcount, hrun⟩

theorem Leads.step {draft draft' : Draft} {c : Char} {rest text' : List Char}
    (h : draft.step c rest = (draft', text')) : Leads 1 draft (c :: rest) draft' text' := by
  refine ⟨1, Nat.le_refl 1, fun fuel => ?_⟩
  rw [Nat.add_comm, Draft.run, h]

/-- A reader that comes to the end of the text stays there. -/
theorem Leads.run_eq {count fuel : Nat} {draft draft' : Draft} {text : List Char}
    (h : Leads count draft text draft' []) (hfuel : count ≤ fuel) :
    Draft.run fuel draft text = draft' := by
  obtain ⟨n, hn, hrun⟩ := h
  obtain ⟨more, rfl⟩ := Nat.exists_eq_add_of_le (Nat.le_trans hn hfuel)
  rw [hrun]
  cases more <;> rfl

/-! ## Fields -/

/-- The reader is in a field that a mark may end. -/
def InField (stage : Stage) : Prop := stage = .fieldStart ∨ stage = .plain ∨ stage = .quoteMet

section Reader

variable {records : List Record} {fields : Record}

/-- A field without quotes. -/
theorem leads_plain (cell rest : List Char) (h : ∀ c ∈ cell, IsPlain c) (back : List Char) :
    ∀ (stage : Stage) (current : List Char), stage = .fieldStart ∨ stage = .plain →
      ∃ stage', InField stage' ∧ Leads cell.length ⟨stage, records, fields, current, back⟩
        (cell ++ rest) ⟨stage', records, fields, cell.reverse ++ current, back⟩ rest := by
  induction cell with
  | nil =>
      intro stage current hstage
      exact ⟨stage, hstage.imp_right Or.inl, Leads.refl _ _⟩
  | cons c cell ih =>
      intro stage current hstage
      obtain ⟨⟨hcomma, hquote, hfeed, hreturn⟩, hcell⟩ := List.forall_mem_cons.mp h
      have hstep : Draft.step ⟨stage, records, fields, current, back⟩ c (cell ++ rest) =
          (⟨.plain, records, fields, c :: current, back⟩, cell ++ rest) := by
        rcases hstage with rfl | rfl <;>
          simp [Draft.step, Draft.take, Draft.push, hcomma, hquote, hfeed, hreturn]
      obtain ⟨stage', hstage', hleads⟩ := ih hcell .plain (c :: current) (Or.inr rfl)
      refine ⟨stage', hstage', ?_⟩
      rw [List.reverse_cons, List.append_assoc, List.singleton_append]
      exact ((Leads.step hstep).trans hleads).weaken (by rw [List.length_cons]; omega)

/-- The characters of a field inside quotes, as they are written. -/
def doubled (cell : List Char) : List Char :=
  cell.flatMap fun c => if c = '"' then ['"', '"'] else [c]

theorem quote_append (cell rest : List Char) :
    quote cell ++ rest = '"' :: (doubled cell ++ '"' :: rest) := by
  rw [quote, List.cons_append, List.cons_append, List.append_assoc]
  rfl

/-- Inside quotes every other character stands for itself; a line feed is noted as the start of a
line all the same. -/
theorem step_quoted (current back rest : List Char) {c : Char} (hquote : c ≠ '"') :
    ∃ back', Draft.step ⟨.quoted, records, fields, current, back⟩ c rest =
      (⟨.quoted, records, fields, c :: current, back'⟩, rest) := by
  by_cases hfeed : c = '\n'
  · subst hfeed
    exact ⟨rest, rfl⟩
  · exact ⟨back, by simp [Draft.step, Draft.push, hfeed, hquote]⟩

/-- A field in quotes, behind the opening one. -/
theorem leads_quoted (cell rest : List Char) :
    ∀ current back : List Char, ∃ back', Leads ((doubled cell).length + 1)
      ⟨.quoted, records, fields, current, back⟩ (doubled cell ++ '"' :: rest)
      ⟨.quoteMet, records, fields, cell.reverse ++ current, back'⟩ rest := by
  induction cell with
  | nil =>
      intro current back
      exact ⟨back, Leads.step rfl⟩
  | cons c cell ih =>
      intro current back
      rw [List.reverse_cons, List.append_assoc, List.singleton_append]
      by_cases hquote : c = '"'
      · -- The second of two quotes is the one that belongs to the field.
        subst hquote
        obtain ⟨back', hleads⟩ := ih ('"' :: current) back
        have hfirst : Leads 1 ⟨.quoted, records, fields, current, back⟩
            ('"' :: '"' :: (doubled cell ++ '"' :: rest))
            ⟨.quoteMet, records, fields, current, back⟩
            ('"' :: (doubled cell ++ '"' :: rest)) := Leads.step rfl
        have hsecond : Leads 1 ⟨.quoteMet, records, fields, current, back⟩
            ('"' :: (doubled cell ++ '"' :: rest))
            ⟨.quoted, records, fields, '"' :: current, back⟩
            (doubled cell ++ '"' :: rest) := Leads.step rfl
        refine ⟨back', ((hfirst.trans hsecond).trans hleads).weaken ?_⟩
        show 1 + 1 + ((doubled cell).length + 1) ≤ (doubled cell).length + 1 + 1 + 1
        omega
      · have hdoubled : doubled (c :: cell) = c :: doubled cell := by
          rw [doubled, List.flatMap_cons, if_neg hquote]
          rfl
        obtain ⟨back', hstep⟩ := step_quoted current back (doubled cell ++ '"' :: rest) hquote
        obtain ⟨back'', hleads⟩ := ih (c :: current) back'
        rw [hdoubled, List.length_cons]
        exact ⟨back'', ((Leads.step hstep).trans hleads).weaken (by omega)⟩

/-- **A FIELD** leaves its characters, and nothing else finished. -/
theorem FieldText.leads {cell written : List Char} (h : FieldText cell written)
    (records : List Record) (fields : Record) (back rest : List Char) :
    ∃ stage back', InField stage ∧ Leads written.length ⟨.fieldStart, records, fields, [], back⟩
      (written ++ rest) ⟨stage, records, fields, cell.reverse, back'⟩ rest := by
  cases h with
  | plain hplain =>
      obtain ⟨stage, hstage, hleads⟩ :=
        leads_plain cell rest hplain back .fieldStart [] (Or.inl rfl)
      rw [List.append_nil] at hleads
      exact ⟨stage, back, hstage, hleads⟩
  | quoted =>
      obtain ⟨back', hleads⟩ := leads_quoted cell rest [] back
      rw [List.append_nil] at hleads
      have hopen : Leads 1 ⟨.fieldStart, records, fields, [], back⟩
          ('"' :: (doubled cell ++ '"' :: rest)) ⟨.quoted, records, fields, [], back⟩
          (doubled cell ++ '"' :: rest) := Leads.step rfl
      rw [quote_append]
      refine ⟨.quoteMet, back', Or.inr (Or.inr rfl), (hopen.trans hleads).weaken ?_⟩
      rw [← List.append_nil (quote cell), quote_append, List.length_cons, List.length_append]
      show _ ≤ (doubled cell).length + 1 + 1
      omega

theorem InField.comma {stage : Stage} (h : InField stage) (cell back rest : List Char) :
    Leads 1 ⟨stage, records, fields, cell.reverse, back⟩ (',' :: rest)
      ⟨.fieldStart, records, cell :: fields, [], back⟩ rest := by
  refine Leads.step ?_
  rcases h with rfl | rfl | rfl <;> simp [Draft.step, Draft.take, Draft.endField]

theorem InField.feed {stage : Stage} (h : InField stage) (cell back rest : List Char) :
    Leads 1 ⟨stage, records, fields, cell.reverse, back⟩ ('\n' :: rest)
      ⟨.lineStart, (cell :: fields).reverse :: records, [], [], rest⟩ rest := by
  refine Leads.step ?_
  rcases h with rfl | rfl | rfl <;>
    simp [Draft.step, Draft.take, Draft.endField, Draft.endRecord]

theorem InField.carriage {stage : Stage} (h : InField stage) (cell back rest : List Char) :
    Leads 1 ⟨stage, records, fields, cell.reverse, back⟩ ('\r' :: rest)
      ⟨.returnMet, records, cell :: fields, [], back⟩ rest := by
  refine Leads.step ?_
  rcases h with rfl | rfl | rfl <;> simp [Draft.step, Draft.take, Draft.endField, Draft.goTo]

/-! ## Lines -/

/-- **A LINE**, once its first field has begun, leaves all its fields but the last finished, and the
last one in the reader. -/
theorem LineText.leads {cells : List (List Char)} {line : List Char} (h : LineText cells line)
    (rest : List Char) :
    ∀ (fields : Record) (back : List Char), ∃ stage back' done last, InField stage ∧
      (last :: done).reverse = fields.reverse ++ cells ∧
      Leads line.length ⟨.fieldStart, records, fields, [], back⟩ (line ++ rest)
        ⟨stage, records, done, last.reverse, back'⟩ rest := by
  induction h with
  | @last cell written hcell =>
      intro fields back
      obtain ⟨stage, back', hstage, hleads⟩ := hcell.leads records fields back rest
      exact ⟨stage, back', fields, cell, hstage, List.reverse_cons, hleads⟩
  | @cons cell written more text hcell _ ih =>
      intro fields back
      obtain ⟨stage, back', hstage, hleads⟩ :=
        hcell.leads records fields back (',' :: (text ++ rest))
      obtain ⟨stage', back'', done, last, hstage', hdone, hmore⟩ := ih (cell :: fields) back'
      refine ⟨stage', back'', done, last, hstage', ?_, ?_⟩
      · rw [hdone, List.reverse_cons, List.append_assoc]
        rfl
      · rw [List.append_assoc, List.cons_append]
        refine ((hleads.trans (hstage.comma cell back' _)).trans hmore).weaken ?_
        rw [List.length_append, List.length_cons]
        omega

/-- The reader is ready for a line: before it, with its start noted, or behind the carriage return
of the record before. -/
inductive Ready (records : List Record) (text : List Char) : Draft → Prop where
  | lineStart : Ready records text ⟨.lineStart, records, [], [], text⟩
  | carriage {earlier : List Record} {fields : Record} {back : List Char} :
      fields.reverse :: earlier = records →
      Ready records text ⟨.returnMet, earlier, fields, [], back⟩

/-- Behind blanks the reader goes back to the start of the line. -/
theorem leads_blankLine (records : List Record) (cell rest text : List Char)
    (h : ∀ c ∈ cell, IsPlain c) :
    Leads (cell.length + 1) ⟨.blankLine, records, [], [], text⟩ (cell ++ ',' :: rest)
      ⟨.fieldStart, records, [], [], text⟩ text := by
  induction cell with
  | nil => exact Leads.step rfl
  | cons c cell ih =>
      obtain ⟨⟨_, _, hfeed, hreturn⟩, hcell⟩ := List.forall_mem_cons.mp h
      cases hblank : Draft.isLineBlank c with
      | true =>
          have hstep : Draft.step ⟨.blankLine, records, [], [], text⟩ c (cell ++ ',' :: rest) =
              (⟨.blankLine, records, [], [], text⟩, cell ++ ',' :: rest) := by
            simp [Draft.step, hfeed, hreturn, hblank]
          exact ((Leads.step hstep).trans (ih hcell)).weaken (by rw [List.length_cons]; omega)
      | false =>
          have hstep : Draft.step ⟨.blankLine, records, [], [], text⟩ c (cell ++ ',' :: rest) =
              (⟨.fieldStart, records, [], [], text⟩, text) := by
            simp [Draft.step, Draft.goTo, hfeed, hreturn, hblank]
          exact (Leads.step hstep).weaken (by omega)

/-- A line that starts with a field and a comma is read from its start. -/
theorem FieldText.leads_fieldStart {cell written : List Char} (h : FieldText cell written)
    (rest : List Char) :
    Leads (written.length + 1) ⟨.lineStart, records, [], [], written ++ ',' :: rest⟩
      (written ++ ',' :: rest) ⟨.fieldStart, records, [], [], written ++ ',' :: rest⟩
      (written ++ ',' :: rest) := by
  cases h with
  | quoted =>
      rw [quote_append]
      exact (Leads.step rfl).weaken (by omega)
  | plain hplain =>
      cases cell with
      | nil => exact Leads.step rfl
      | cons c cell =>
          obtain ⟨⟨_, _, hfeed, hreturn⟩, hcell⟩ := List.forall_mem_cons.mp hplain
          generalize htext : c :: cell ++ ',' :: rest = text
          cases hblank : Draft.isLineBlank c with
          | true =>
              have hstep : Draft.step ⟨.lineStart, records, [], [], text⟩ c (cell ++ ',' :: rest) =
                  (⟨.blankLine, records, [], [], text⟩, cell ++ ',' :: rest) := by
                simp [Draft.step, Draft.goTo, hfeed, hreturn, hblank]
              have hback := leads_blankLine records cell rest text hcell
              have hleads := (Leads.step hstep).trans hback
              rw [← List.cons_append, htext] at hleads
              exact hleads.weaken (by rw [List.length_cons]; omega)
          | false =>
              have hstep : Draft.step ⟨.lineStart, records, [], [], text⟩ c (cell ++ ',' :: rest) =
                  (⟨.fieldStart, records, [], [], text⟩, text) := by
                rw [← htext]
                simp [Draft.step, Draft.goTo, hfeed, hreturn, hblank]
              have hleads := Leads.step hstep
              rw [← List.cons_append, htext] at hleads
              exact hleads.weaken (by omega)

/-- The first field of a line with several. -/
theorem FieldText.leads_first {cell written : List Char} (h : FieldText cell written)
    (records : List Record) (rest : List Char) :
    ∃ back, Leads (2 * written.length + 2)
      ⟨.lineStart, records, [], [], written ++ ',' :: rest⟩ (written ++ ',' :: rest)
      ⟨.fieldStart, records, [cell], [], back⟩ rest := by
  obtain ⟨stage, back, hstage, hleads⟩ :=
    h.leads records [] (written ++ ',' :: rest) (',' :: rest)
  refine ⟨back, ((h.leads_fieldStart rest).trans
    (hleads.trans (hstage.comma cell back rest))).weaken ?_⟩
  omega

/-- The first field of a line with several, wherever the reader is ready for it. -/
theorem Ready.leads_first {draft : Draft} {cell written rest : List Char}
    (h : Ready records (written ++ ',' :: rest) draft) (hcell : FieldText cell written) :
    ∃ back, Leads (2 * written.length + 3) draft (written ++ ',' :: rest)
      ⟨.fieldStart, records, [cell], [], back⟩ rest := by
  cases h with
  | lineStart =>
      obtain ⟨back, hleads⟩ := hcell.leads_first records rest
      exact ⟨back, hleads.weaken (by omega)⟩
  | @carriage earlier fields back hrecords =>
      subst hrecords
      cases written with
      | nil =>
          -- A comma behind the carriage return ends an empty field at once.
          cases hcell with
          | plain => exact ⟨back, (Leads.step rfl).weaken (by omega)⟩
      | cons c written =>
          have hmark : c ≠ '\n' ∧ c ≠ ',' := by
            cases hcell with
            | plain hplain =>
                obtain ⟨hcomma, _, hfeed, _⟩ := hplain c List.mem_cons_self
                exact ⟨hfeed, hcomma⟩
            | quoted => decide
          have hstep : Draft.step ⟨.returnMet, earlier, fields, [], back⟩ c
              (written ++ ',' :: rest) =
              (⟨.lineStart, fields.reverse :: earlier, [], [], c :: written ++ ',' :: rest⟩,
                c :: written ++ ',' :: rest) := by
            simp [Draft.step, Draft.endRecord, hmark]
          obtain ⟨back', hleads⟩ := hcell.leads_first (fields.reverse :: earlier) rest
          exact ⟨back', ((Leads.step hstep).trans hleads).weaken (by omega)⟩

/-- A line with several fields, up to its end. -/
theorem Ready.leads_line {draft : Draft} {cells : Record} {line rest : List Char}
    (h : Ready records (line ++ rest) draft) (hline : LineText cells line)
    (hcells : 2 ≤ cells.length) :
    ∃ stage back done last, InField stage ∧ (last :: done).reverse = cells ∧
      Leads (5 * line.length) draft (line ++ rest) ⟨stage, records, done, last.reverse, back⟩
        rest := by
  cases hline with
  | last => exact absurd hcells (by simp)
  | @cons cell written more text hcell hmore =>
      rw [List.append_assoc, List.cons_append] at h ⊢
      obtain ⟨back, hfirst⟩ := h.leads_first hcell
      obtain ⟨stage, back', done, last, hstage, hdone, hleads⟩ := hmore.leads rest [cell] back
      refine ⟨stage, back', done, last, hstage, hdone, (hfirst.trans hleads).weaken ?_⟩
      rw [List.length_append, List.length_cons]
      omega

/-- **A LINE AND ITS END** leave one more record, and the reader ready for the next line. -/
theorem Ready.exists_ready {draft : Draft} {cells : Record} {line ends rest : List Char}
    (h : Ready records (line ++ (ends ++ rest)) draft) (hline : LineText cells line)
    (hcells : 2 ≤ cells.length) (hends : LineEnd ends) :
    ∃ draft', Ready (cells :: records) rest draft' ∧
      Leads (5 * (line ++ ends).length) draft (line ++ (ends ++ rest)) draft' rest := by
  obtain ⟨stage, back, done, last, hstage, rfl, hleads⟩ := h.leads_line hline hcells
  have hlength : 5 * line.length + 2 ≤ 5 * (line ++ ends).length := by
    rw [List.length_append]
    cases hends <;> simp only [List.length_cons, List.length_nil] <;> omega
  cases hends with
  | feed => exact ⟨_, .lineStart, (hleads.trans (hstage.feed last back rest)).weaken (by omega)⟩
  | carriage =>
      exact ⟨_, .carriage rfl, (hleads.trans (hstage.carriage last back rest)).weaken (by omega)⟩
  | both =>
      have hfeed : Leads 1 ⟨.returnMet, records, last :: done, [], back⟩ ('\n' :: rest)
          ⟨.lineStart, (last :: done).reverse :: records, [], [], rest⟩ rest := Leads.step rfl
      exact ⟨_, .lineStart, ((hleads.trans (hstage.carriage last back ('\n' :: rest))).trans
        hfeed).weaken (by omega)⟩

/-! ## Files -/

theorem Ready.finish {draft : Draft} {text : List Char} (h : Ready records text draft) :
    draft.finish = .ok records.reverse := by
  cases h with
  | lineStart => rfl
  | carriage hrecords => rw [← hrecords]; rfl

theorem InField.finish {stage : Stage} (h : InField stage) (records : List Record) (done : Record)
    (last back : List Char) :
    Draft.finish ⟨stage, records, done, last.reverse, back⟩ =
      .ok ((last :: done).reverse :: records).reverse := by
  rcases h with rfl | rfl | rfl <;>
    simp [Draft.finish, Draft.endField, Draft.endRecord]

/-- **A FILE** is read to its end, line by line. -/
theorem FileText.leads {all : List Record} {text : List Char} (h : FileText all text) :
    ∀ {records : List Record} {draft : Draft}, (∀ cells ∈ all, 2 ≤ cells.length) →
      Ready records text draft →
      ∃ draft', Leads (5 * text.length) draft text draft' [] ∧
        draft'.finish = .ok (records.reverse ++ all) := by
  induction h with
  | nil =>
      intro records draft _ hready
      rw [List.append_nil]
      exact ⟨draft, Leads.refl _ _, hready.finish⟩
  | @last cells line hline =>
      intro records draft hall hready
      rw [← List.append_nil line] at hready
      obtain ⟨stage, back, done, last, hstage, hcells, hleads⟩ :=
        hready.leads_line hline (hall cells List.mem_cons_self)
      rw [List.append_nil] at hleads
      refine ⟨_, hleads, ?_⟩
      rw [hstage.finish, hcells, List.reverse_cons]
  | @cons cells line ends more text hline hends _ ih =>
      intro records draft hall hready
      obtain ⟨hcells, hmore⟩ := List.forall_mem_cons.mp hall
      obtain ⟨draft', hready', hleads⟩ := hready.exists_ready hline hcells hends
      obtain ⟨draft'', hleads', hfinish⟩ := ih hmore hready'
      refine ⟨draft'', (hleads.trans hleads').weaken ?_, ?_⟩
      · rw [List.length_append, List.length_append, List.length_append]
        omega
      · rw [hfinish, List.reverse_cons, List.append_assoc]
        rfl

end Reader

/-- The bound on the steps of the reader. -/
theorem steps_le (n : Nat) : 5 * n ≤ 2 * (n + 1) * (n + 1) := by
  have hsquare : n ≤ n * n := by
    cases n with
    | zero => exact Nat.le_refl 0
    | succ m => exact Nat.le_mul_of_pos_left _ (Nat.succ_pos m)
  have hexpand : (n + 1) * (n + 1) = n * n + 2 * n + 1 := by
    rw [Nat.add_mul, Nat.mul_add]
    omega
  rw [Nat.mul_assoc, hexpand]
  omega

/-- A text without a byte order mark is read as it stands. -/
theorem records_eq {text : List Char} (h : ∀ c ∈ text.head?, c.toNat ≠ 0xFEFF) :
    records text = List.map (List.map untilNul) <$>
      (Draft.run (2 * (text.length + 1) * (text.length + 1)) (.start text) text).finish := by
  cases text with
  | nil => rfl
  | cons c rest =>
      unfold records
      dsimp only
      rw [if_neg (h c rfl)]

/-- Records are written from the first character of the first field on, or from its quote. -/
theorem FileText.head? {c : Char} {cell : List Char} {fields : Record} {more : List Record}
    {text : List Char} (h : FileText (((c :: cell) :: fields) :: more) text) :
    text.head? = some c ∨ text.head? = some '"' := by
  have hfield : ∀ {written : List Char} (rest : List Char), FieldText (c :: cell) written →
      (written ++ rest).head? = some c ∨ (written ++ rest).head? = some '"' := by
    intro written rest hwritten
    cases hwritten with
    | plain => exact Or.inl rfl
    | quoted => exact Or.inr rfl
  have hline : ∀ {line : List Char} (rest : List Char), LineText ((c :: cell) :: fields) line →
      (line ++ rest).head? = some c ∨ (line ++ rest).head? = some '"' := by
    intro line rest htext
    cases htext with
    | last hwritten => exact hfield rest hwritten
    | cons hwritten _ =>
        rw [List.append_assoc]
        exact hfield _ hwritten
  cases h with
  | last htext => simpa using hline [] htext
  | cons htext _ _ => exact hline _ htext

/-- **RECORDS ARE READ BACK**, each field up to a NUL, if they have several fields each and the text
does not start with a byte order mark. -/
theorem records_of_fileText {all : List Record} {text : List Char} (h : FileText all text)
    (hall : ∀ cells ∈ all, 2 ≤ cells.length) (hmark : ∀ c ∈ text.head?, c.toNat ≠ 0xFEFF) :
    records text = .ok (all.map (List.map untilNul)) := by
  obtain ⟨draft, hleads, hfinish⟩ := h.leads hall .lineStart
  rw [records_eq hmark, Draft.start, hleads.run_eq (steps_le _), hfinish]
  rfl

/-- **RECORDS OF ONE LENGTH** are a table without row labels, which is read column by column. -/
theorem parse_of_records {text : List Char} {fields : Record} {rows : List Record}
    (h : records text = .ok (fields :: rows)) (hrows : ∀ row ∈ rows, row.length = fields.length) :
    parse text = .ok {
      columns := columnNames fields
      rows := Table.transpose rows.length ((List.range (columnNames fields).length).map fun i =>
        column (rows.map fun row => row.getD i [])) } := by
  have hlabels : (rows.head?.getD []).length - fields.length = 0 := by
    cases rows with
    | nil => exact Nat.zero_sub _
    | cons row more =>
        show row.length - fields.length = 0
        rw [hrows row List.mem_cons_self, Nat.sub_self]
  have hlong : ¬ (rows.drop 1).any (fun row => 0 + fields.length < row.length) = true := by
    intro hany
    obtain ⟨row, hrow, hlong⟩ := List.any_eq_true.mp hany
    rw [hrows row (List.mem_of_mem_drop hrow), Nat.zero_add] at hlong
    exact absurd (of_decide_eq_true hlong) (Nat.lt_irrefl _)
  rw [parse, h]
  simp only [bind, Except.bind, hlabels]
  rw [if_neg hlong]
  simp only [Nat.zero_add, if_true]
  rfl

end LookmlProject.Csv
