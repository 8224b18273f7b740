import LookmlProject.Proofs.FieldRows

/-! # Rules that judge every field, and two that stop at some

    A field of a view is declared with a name and whatever other parameters it has.
    Of the rules about fields, two ask for the type of a field and do not look first
    whether it has one: they stop at a dimension, or at a measure, without a type
    (`Stuck`).  The route:

    * at a declared field, every question has an answer (`OfKind.isAny_eq`,
      `Declared.hasKey_eq`), so a rule has a verdict unless it is stuck
      (`onField_outcome`);
    * work that stops for one reason only stops exactly if it meets the reason
      (`StopsIf`): so do an enumeration and a loop of such work (`stopsIf_gather`,
      `stopsIf_foldlM`);
    * so the rows about a document stop at a site where the rule is stuck
      (`fieldRows_stopsIf`), and a lint does so with all its reports unwritten. -/

namespace LookmlProject

/-! ## Work that stops for one reason -/

/-- The work ends with a fault if the reason is there, and well if it is not. -/
def StopsIf {α : Type} (fault : Fault) (reason : Prop) (result : Except Fault α) : Prop :=
  (¬ reason → ∃ a, result = .ok a) ∧ (reason → result = .error fault)

namespace StopsIf

variable {α β : Type} {fault : Fault} {reason : Prop}

theorem congr {other : Prop} {result : Except Fault α} (h : StopsIf fault reason result)
    (hiff : reason ↔ other) : StopsIf fault other result := by
  rwa [← propext hiff]

/-- Work that goes on with what stops for some reason, and ends well then, stops for that reason. -/
theorem bind {result : Except Fault α} {next : α → Except Fault β}
    (h : StopsIf fault reason result) (hnext : ∀ a, ∃ b, next a = .ok b) :
    StopsIf fault reason (result >>= next) := by
  constructor
  · intro hreason
    obtain ⟨a, ha⟩ := h.1 hreason
    rw [ha]
    exact hnext a
  · intro hreason
    rw [h.2 hreason]
    rfl

/-- Changing the result does not change when work stops. -/
theorem of_map {result : Except Fault α} {change : α → β}
    (h : StopsIf fault reason (change <$> result)) : StopsIf fault reason result := by
  cases result with
  | error other =>
      refine ⟨fun hreason => ?_, fun hreason => ?_⟩
      · obtain ⟨b, hb⟩ := h.1 hreason
        cases hb
      · cases h.2 hreason
        rfl
  | ok a =>
      refine ⟨fun _ => ⟨a, rfl⟩, fun hreason => ?_⟩
      cases h.2 hreason

end StopsIf

namespace Rule

open Value

/-! ## Declared fields -/

/-- The names that a field uses for itself: its questions, and where it looks for its parameters. -/
def reserved : List String :=
  ["is_dimension", "is_dimension_group", "is_measure", "has_key", "json_data"]

/-- A field as it is declared: its name is a text, and so is its description, if it has one; no
parameter has a name that the field uses for itself.  All other parameters, its type and the fields
to drill down to among them, may be there or not and have any values. -/
structure Declared (parameters : Fields) : Prop where
  name : ∃ s, Fields.get? parameters "name" = some (.text s)
  description : ∀ v, Fields.get? parameters "description" = some v → ∃ s, v = .text s
  plain : ∀ key ∈ reserved, Fields.get? parameters key = none

instance (v : Value) : Decidable (∃ s, v = .text s) :=
  match v with
  | .text s => .isTrue ⟨s, rfl⟩
  | .null | .bool _ | .int _ | .float _ | .list _ | .record _ => .isFalse nofun

instance (parameters : Fields) : Decidable (Declared parameters) :=
  decidable_of_iff
    ((∃ v ∈ Fields.get? parameters "name", ∃ s, v = .text s) ∧
      (∀ v ∈ Fields.get? parameters "description", ∃ s, v = .text s) ∧
      ∀ key ∈ reserved, Fields.get? parameters key = none)
    ⟨fun ⟨⟨_, hmem, s, hs⟩, hdescription, hplain⟩ => ⟨⟨s, hs ▸ hmem⟩, hdescription, hplain⟩,
      fun h => ⟨h.name.elim fun s hs => ⟨_, hs, s, rfl⟩, h.description, h.plain⟩⟩

/-- A declared field with the mark of its kind. -/
structure OfKind (kind : String) (parameters : Fields) : Prop extends Declared parameters where
  kind_mem : kind ∈ Lint.Linter.fieldKinds.map Prod.fst
  mark : Fields.get? parameters "_type" = some (.text kind)

variable {parameters : Fields} {kind : String}

theorem get_eq {key : String} {v : Value} (h : Fields.get? parameters key = some v) :
    Field.get ⟨parameters⟩ key = .ok v := by
  rw [Field.get, h]

/-- Asking for a parameter that is not there is a fault. -/
theorem get_eq_error {key : String} (h : Fields.get? parameters key = none) :
    Field.get ⟨parameters⟩ key = .error .noMember := by
  rw [Field.get, h]

/-- A question can be asked. -/
theorem Declared.ask_eq (h : Declared parameters) {question : String} (hmem : question ∈ reserved)
    (answer : Except Fault Bool) : Field.ask ⟨parameters⟩ question answer = answer := by
  rw [Field.ask, Fields.has, h.plain question hmem]
  rfl

/-- Whether a parameter is there has an answer: no parameter hides the question. -/
theorem Declared.hasKey_eq (h : Declared parameters) (key : String) :
    Field.hasKey ⟨parameters⟩ key = .ok (Fields.get? parameters key).isSome := by
  rw [Field.hasKey, Field.holds, h.ask_eq (by decide), Field.searched, h.plain _ (by decide)]
  rfl

namespace OfKind

variable (h : OfKind kind parameters)
include h

/-- The kind that a field is marked with is its kind. -/
theorem kindIs_eq (other : String) :
    Field.kindIs ⟨parameters⟩ other = .ok (kind == other) := by
  rw [Field.kindIs, get_eq h.mark]
  rfl

/-- Whether a field is a dimension is told by its kind. -/
theorem isDimension_eq : Field.isDimension ⟨parameters⟩ = .ok (kind == "dimension") := by
  rw [Field.isDimension, h.ask_eq (by decide), h.kindIs_eq]

/-- Whether a field is a dimension group is told by its kind. -/
theorem isDimensionGroup_eq :
    Field.isDimensionGroup ⟨parameters⟩ = .ok (kind == "dimension_group") := by
  rw [Field.isDimensionGroup, h.ask_eq (by decide), h.kindIs_eq]

/-- Whether a field is a measure is told by its kind. -/
theorem isMeasure_eq : Field.isMeasure ⟨parameters⟩ = .ok (kind == "measure") := by
  rw [Field.isMeasure, h.ask_eq (by decide), h.kindIs_eq]

/-- A field is of one of the three kinds. -/
theorem isAny_eq : Field.isAny ⟨parameters⟩ = .ok true := by
  rw [Field.isAny, h.isDimension_eq, h.isDimensionGroup_eq, h.isMeasure_eq]
  have hkind := h.kind_mem
  simp only [Lint.Linter.fieldKinds, List.map_cons, List.map_nil, List.mem_cons,
    List.not_mem_nil, or_false] at hkind
  rcases hkind with rfl | rfl | rfl <;> rfl

end OfKind

/-! ## One rule at one field -/

/-- A rule about fields; a lexicon has a list of phrases. -/
structure AboutFields (rule : Rule) : Prop where
  kind : rule.kind ∈
    [.description, .drillDown, .yesNoName, .countName, .allCaps, RuleKind.lexicon]
  phrases : rule.kind = .lexicon → ∃ phrases, rule.setting? "phrases" = some (.list phrases)

/-- The rule asks for the type of a field that has none. -/
def Stuck (rule : RuleKind) (kind : String) (parameters : Fields) : Prop :=
  (rule = .yesNoName ∧ kind = "dimension" ∨ rule = .countName ∧ kind = "measure") ∧
    Fields.get? parameters "type" = none

instance (rule : RuleKind) (kind : String) (parameters : Fields) :
    Decidable (Stuck rule kind parameters) :=
  inferInstanceAs (Decidable (_ ∧ _))

/-- What a rule is about: every field, or measures, or fields of one kind and one type. -/
def Concerns (kind : String) (parameters : Fields) : RuleKind → Prop
  | .description | .allCaps | .lexicon => True
  | .drillDown => kind = "measure"
  | .yesNoName => kind = "dimension" ∧ Fields.get? parameters "type" = some (.text "yesno")
  | .countName => kind = "measure" ∧ Fields.get? parameters "type" = some (.text "count")
  | .oneViewPerFile | .filenameViewnameMatch | .dataSource => False

/-- What a rule says is a judgement, or that it is not about the field. -/
def Says (result : Except Fault Verdict) (concerned : Prop) : Prop :=
  ∃ verdict, result = .ok verdict ∧ ((∃ passed, verdict = .judged passed) ↔ concerned)

/-- A judgement is said where the rule is concerned. -/
theorem says_judged (passed : Bool) {concerned : Prop} (h : concerned) :
    Says (.ok (.judged passed)) concerned :=
  ⟨_, rfl, iff_of_true ⟨passed, rfl⟩ h⟩

/-- That the rule is not about the field is said where it is not concerned. -/
theorem says_irrelevant {concerned : Prop} (h : ¬ concerned) :
    Says (.ok .irrelevant) concerned :=
  ⟨_, rfl, iff_of_false nofun h⟩

/-- The rule about descriptions judges every field. -/
theorem description_says (h : OfKind kind parameters) : Says (description ⟨parameters⟩) True := by
  rw [description, h.isAny_eq, h.hasKey_eq]
  cases hget : Fields.get? parameters "description" with
  | none => exact says_judged false trivial
  | some v =>
      rw [get_eq hget]
      exact says_judged (!v.isText "") trivial

/-- The rule about drilling down judges measures, and no other fields. -/
theorem drillDown_says (h : OfKind kind parameters) :
    Says (drillDown ⟨parameters⟩) (kind = "measure") := by
  rw [drillDown, h.isMeasure_eq, h.hasKey_eq]
  cases hkind : kind == "measure" with
  | false => exact says_irrelevant (beq_eq_false_iff_ne.mp hkind)
  | true =>
      have hmeasure := beq_iff_eq.mp hkind
      cases hget : Fields.get? parameters "drill_fields" with
      | none => exact says_judged false hmeasure
      | some v =>
          rw [get_eq hget]
          exact says_judged (!v.isEmptyList) hmeasure

/-- The rule about capital letters judges every field, by its name. -/
theorem allCaps_says (h : OfKind kind parameters) : Says (allCaps ⟨parameters⟩) True := by
  obtain ⟨name, hname⟩ := h.name
  rw [allCaps, h.isAny_eq, get_eq hname]
  exact says_judged _ trivial

/-- A text that a lexicon looks at: the name of a field or its description. -/
def Worded (parameters : Fields) (s : String) : Prop :=
  Fields.get? parameters "name" = some (.text s) ∨
    Fields.get? parameters "description" = some (.text s)

/-- A phrase stands, as it is written, in the name of a field or in its description. -/
def Mentioned (parameters : Fields) (phrase : String) : Prop :=
  ∃ s, Worded parameters s ∧ Text.occurs phrase.toList s.toList = true

/-- What occurs in the empty text occurs everywhere. -/
theorem occurs_of_occurs_nil {part : List Char} (h : Text.occurs part [] = true)
    (cs : List Char) : Text.occurs part cs = true := by
  obtain rfl := List.isEmpty_iff.mp h
  cases cs <;> rfl

/-- Whether a declared field mentions a phrase has an answer: what is searched are texts. -/
theorem exists_mentions (h : Declared parameters) (phrase : String) :
    ∃ found, mentions ⟨parameters⟩ phrase = .ok found ∧
      (found = true ↔ Mentioned parameters phrase) := by
  have hhas : ∀ s : String,
      (Value.text s).has phrase = .ok (Text.occurs phrase.toList s.toList) := fun _ => rfl
  obtain ⟨name, hname⟩ := h.name
  have hworded : ∀ s, Worded parameters s ↔
      s = name ∨ Fields.get? parameters "description" = some (.text s) := by
    simp [Worded, hname, eq_comm]
  simp only [Mentioned, hworded]
  rw [mentions, get_eq hname, h.hasKey_eq]
  simp only [bind, Except.bind, hhas]
  split
  · next hfound => exact ⟨true, rfl, iff_of_true rfl ⟨name, .inl rfl, hfound⟩⟩
  · next hnot =>
      cases hget : Fields.get? parameters "description" with
      | none => exact ⟨false, rfl, by simpa using hnot⟩
      | some v =>
          obtain ⟨text, rfl⟩ := h.description v hget
          rw [get_eq hget]
          simp only [Option.isSome_some, if_true, hhas]
          -- An empty description is not searched; what would be found there is in the name.
          split
          · next hempty =>
              obtain rfl : text = "" := beq_iff_eq.mp hempty
              have hnil : ¬ Text.occurs phrase.toList [] = true :=
                fun hnil => hnot (occurs_of_occurs_nil hnil _)
              exact ⟨false, rfl, by simpa [hnot] using hnil⟩
          · exact ⟨_, rfl, by simp [hnot]⟩

/-- Whether a declared field mentions one of some phrases has an answer. -/
theorem exists_mentionsAny (h : Declared parameters) (phrases : List String) :
    ∃ found, mentionsAny ⟨parameters⟩ phrases = .ok found ∧
      (found = true ↔ ∃ phrase ∈ phrases, Mentioned parameters phrase) := by
  induction phrases with
  | nil => exact ⟨false, rfl, by simp⟩
  | cons phrase rest ih =>
      obtain ⟨found, hfound, hiff⟩ := exists_mentions h phrase
      rw [mentionsAny, hfound]
      cases found with
      | true => exact ⟨true, rfl, iff_of_true rfl ⟨phrase, List.mem_cons_self, hiff.mp rfl⟩⟩
      | false =>
          obtain ⟨later, hlater, hrest⟩ := ih
          have hnot : ¬ Mentioned parameters phrase := fun hphrase => by cases hiff.mpr hphrase
          exact ⟨later, hlater, by simp [hnot, hrest]⟩

/-- A lexicon judges every field, by whether one of its phrases, put into small letters, is
mentioned. -/
theorem exists_lexicon (h : OfKind kind parameters) {rule : Rule} {phrases : List Value}
    (hphrases : rule.setting? "phrases" = some (.list phrases)) :
    ∃ passed, lexicon rule ⟨parameters⟩ = .ok (.judged passed) ∧
      (passed = false ↔ ∃ phrase ∈ phrases, Mentioned parameters (smallPhrase phrase)) := by
  obtain ⟨found, hfound, hiff⟩ := exists_mentionsAny h.toDeclared (phrases.map smallPhrase)
  refine ⟨!found, ?_, ?_⟩
  · rw [lexicon, h.isAny_eq, hphrases]
    show (mentionsAny ⟨parameters⟩ (phrases.map smallPhrase) >>= _) = _
    rw [hfound]
    rfl
  · simp [hiff]

/-- A lexicon judges every field. -/
theorem lexicon_says (h : OfKind kind parameters) {rule : Rule} {phrases : List Value}
    (hphrases : rule.setting? "phrases" = some (.list phrases)) :
    Says (lexicon rule ⟨parameters⟩) True := by
  obtain ⟨passed, hpassed, _⟩ := exists_lexicon h hphrases
  rw [hpassed]
  exact says_judged passed trivial

theorem isText_iff (v : Value) (s : String) : v.isText s = true ↔ v = .text s := by
  cases v with
  | text t => rw [Value.isText, beq_iff_eq, Value.text.injEq]
  | _ => exact iff_of_false Bool.false_ne_true nofun

/-- What a rule about the names of fields of one type says of a field. -/
def judgeName (type : String) (judge : List Char → Bool) (field : Field) :
    Except Fault Verdict := do
  let actual ← field.get "type"
  if actual.isText type then
    let name ← textOf (← field.get "name")
    return .judged (judge name)
  else return .irrelevant

/-- Such a rule does not look first whether the field has a type. -/
theorem judgeName_of_no_type (type : String) (judge : List Char → Bool)
    (h : Fields.get? parameters "type" = none) :
    judgeName type judge ⟨parameters⟩ = .error .noMember := by
  rw [judgeName, get_eq_error h]
  rfl

/-- Where there is a type, such a rule judges the fields of its type. -/
theorem judgeName_says (h : Declared parameters) (type : String) (judge : List Char → Bool)
    (htype : Fields.get? parameters "type" ≠ none) :
    Says (judgeName type judge ⟨parameters⟩)
      (Fields.get? parameters "type" = some (.text type)) := by
  obtain ⟨actual, hactual⟩ := Option.ne_none_iff_exists'.mp htype
  obtain ⟨name, hname⟩ := h.name
  rw [judgeName, get_eq hactual, hactual, get_eq hname]
  show Says (if actual.isText type = true then _ else _) _
  split
  · next his => exact says_judged _ (congrArg some ((isText_iff actual type).mp his))
  · next hother =>
      exact says_irrelevant fun heq => hother ((isText_iff actual type).mpr (Option.some.inj heq))

/-- A rule about the names of fields of one kind and one type, at any field. -/
theorem named_outcome (h : Declared parameters) {question : Except Fault Bool} {asked : String}
    (hquestion : question = .ok (kind == asked)) (type : String) (judge : List Char → Bool) :
    let result := question >>= fun yes =>
      if yes then judgeName type judge ⟨parameters⟩ else .ok .irrelevant
    (kind = asked ∧ Fields.get? parameters "type" = none → result = .error .noMember) ∧
    (¬ (kind = asked ∧ Fields.get? parameters "type" = none) →
      Says result (kind = asked ∧ Fields.get? parameters "type" = some (.text type))) := by
  intro result
  have hresult : result = if kind == asked then judgeName type judge ⟨parameters⟩
      else .ok .irrelevant := by
    show (question >>= _) = _
    rw [hquestion]
    rfl
  rw [hresult]
  -- The kind is asked first, so the missing type of a field of another kind goes unnoticed.
  by_cases hkind : kind = asked
  · rw [if_pos (beq_iff_eq.mpr hkind)]
    simp only [hkind, true_and]
    exact ⟨judgeName_of_no_type type judge, judgeName_says h type judge⟩
  · rw [if_neg (mt beq_iff_eq.mp hkind)]
    exact ⟨fun hboth => absurd hboth.1 hkind, fun _ => says_irrelevant fun hboth => hkind hboth.1⟩

/-- **ONE RULE AT ONE FIELD**: if the rule is stuck at the field it stops, and otherwise it has a
verdict, which is a judgement exactly if the field is of its concern. -/
theorem onField_outcome {rule : Rule} (hrule : AboutFields rule) (h : OfKind kind parameters) :
    (Stuck rule.kind kind parameters → rule.onField ⟨parameters⟩ = .error .noMember) ∧
    (¬ Stuck rule.kind kind parameters →
      Says (rule.onField ⟨parameters⟩) (Concerns kind parameters rule.kind)) := by
  rw [onField]
  have hmem := hrule.kind
  cases hkind : rule.kind with
  | description => exact ⟨by simp [Stuck], fun _ => description_says h⟩
  | drillDown => exact ⟨by simp [Stuck], fun _ => drillDown_says h⟩
  | allCaps => exact ⟨by simp [Stuck], fun _ => allCaps_says h⟩
  | lexicon =>
      obtain ⟨phrases, hphrases⟩ := hrule.phrases hkind
      exact ⟨by simp [Stuck], fun _ => lexicon_says h hphrases⟩
  | yesNoName =>
      have houtcome := named_outcome h.toDeclared h.isDimension_eq "yesno" "is_".toList.isPrefixOf
      simp only [Stuck, true_and, reduceCtorEq, false_and, or_false]
      exact houtcome
  | countName =>
      have houtcome := named_outcome h.toDeclared h.isMeasure_eq "count" "_count".toList.isSuffixOf
      simp only [Stuck, true_and, reduceCtorEq, false_and, false_or]
      exact houtcome
  | oneViewPerFile => rw [hkind] at hmem; simp at hmem
  | filenameViewnameMatch => rw [hkind] at hmem; simp at hmem
  | dataSource => rw [hkind] at hmem; simp at hmem

/-- Marking the kind of a field leaves it declared: the mark is no parameter that matters. -/
theorem Declared.mark (h : Declared parameters) (kind : Value) :
    Declared (Lint.Linter.mark kind parameters) := by
  have hother : ∀ key ≠ "_type", Fields.get? (Lint.Linter.mark kind parameters) key =
      Fields.get? parameters key := by
    intro key hkey
    rw [Lint.Linter.mark, Lookml.get?_set, if_neg hkey.symm]
  constructor
  · rw [hother _ (by decide)]
    exact h.name
  · rw [hother _ (by decide)]
    exact h.description
  · intro key hmem
    rw [hother key fun heq => absurd (heq ▸ hmem) (by decide)]
    exact h.plain key hmem

end Rule

namespace Lint

open Lookml Value Rule

/-! ## The rows about a document -/

/-- An enumeration stops exactly if the work on some element does. -/
theorem stopsIf_gather {α β : Type} {fault : Fault} {f : α → Except Fault (List β)}
    {reason : α → Prop} {items : List α} (h : ∀ a ∈ items, StopsIf fault (reason a) (f a)) :
    StopsIf fault (∃ a ∈ items, reason a) (gather f items) := by
  induction items with
  | nil => exact ⟨fun _ => ⟨[], rfl⟩, fun hnone => by simp at hnone⟩
  | cons a rest ih =>
      have hrest := ih fun b hb => h b (List.mem_cons_of_mem _ hb)
      rw [gather_cons]
      by_cases hreason : reason a
      · rw [(h a List.mem_cons_self).2 hreason]
        exact ⟨fun hnot => absurd ⟨a, List.mem_cons_self, hreason⟩ hnot, fun _ => rfl⟩
      · obtain ⟨first, hfirst⟩ := (h a List.mem_cons_self).1 hreason
        rw [hfirst]
        refine (hrest.bind fun others => ⟨first ++ others, rfl⟩).congr ?_
        simp [hreason]

/-- The rule is stuck at the field. -/
def Site.Stuck (site : Site) : Prop := Rule.Stuck site.rule.kind site.kind site.parameters

instance (site : Site) : Decidable site.Stuck :=
  inferInstanceAs (Decidable (Rule.Stuck _ _ _))

/-- The fields in the first view of a document are declared fields. -/
def Declares (doc : Document) : Prop :=
  doc.hasViews = true → ∃ view, doc.views.nth 0 = .ok view ∧
    ∀ kind ∈ Linter.fieldKinds, ∃ fields, fieldsUnder view kind.2 = .ok fields ∧
      ∀ field ∈ fields, ∃ parameters, parametersOf field = .ok parameters ∧ Declared parameters

instance {α : Type} (result : Except Fault α) (p : α → Prop) [DecidablePred p] :
    Decidable (∃ a, result = .ok a ∧ p a) :=
  match result with
  | .ok a => decidable_of_iff (p a) ⟨fun h => ⟨a, rfl, h⟩, fun ⟨_, heq, h⟩ => Except.ok.inj heq ▸ h⟩
  | .error _ => .isFalse nofun

instance (doc : Document) : Decidable (Declares doc) :=
  inferInstanceAs (Decidable (_ → _))

variable {linter : Linter} {found : Found}

/-- The row of a rule about a field stops exactly if the rule is stuck there. -/
theorem fieldRow_stopsIf {kind : String} (hkind : kind ∈ Linter.fieldKinds.map Prod.fst)
    {parameters : Fields} (h : Declared parameters) {rule : Rule} (hrule : AboutFields rule) :
    StopsIf .noMember (Rule.Stuck rule.kind kind parameters)
      (found.fieldRow kind parameters rule) := by
  have hfield : OfKind kind (Linter.mark (.text kind) parameters) :=
    { h.mark (.text kind) with
      kind_mem := hkind
      mark := by rw [Linter.mark, get?_set, if_pos rfl] }
  -- The mark does not touch the type, so the rule is stuck at the marked field if it is at this
  -- one.
  have htype : Fields.get? (Linter.mark (.text kind) parameters) "type" =
      Fields.get? parameters "type" := by
    rw [Linter.mark, get?_set, if_neg (by decide)]
  obtain ⟨hstuck, hsays⟩ := onField_outcome hrule hfield
  rw [Rule.Stuck, htype] at hstuck hsays
  obtain ⟨name, hname⟩ := h.name
  have hlookup : (Value.record parameters).lookup "name" = .ok (.text name) := by
    rw [Value.lookup, hname]
  rw [Found.fieldRow]
  refine StopsIf.bind ⟨fun hnot => ?_, hstuck⟩ fun verdict => ?_
  · obtain ⟨verdict, hverdict, _⟩ := hsays hnot
    exact ⟨verdict, hverdict⟩
  · cases verdict with
    | irrelevant => exact ⟨_, rfl⟩
    | judged passed =>
        rw [hlookup]
        exact ⟨_, rfl⟩

/-- **ONE DOCUMENT**: the rows about its fields stop exactly if some rule is stuck at a field of its
first view. -/
theorem fieldRows_stopsIf (hrules : ∀ rule ∈ linter.fieldRules, AboutFields rule)
    (h : Declares found.doc) :
    StopsIf .noMember (∃ site ∈ firstSites linter found, site.Stuck)
      (found.fieldRows linter) := by
  rw [Found.fieldRows]
  by_cases hviews : found.doc.hasViews = true
  · obtain ⟨view, hview, hkinds⟩ := h hviews
    obtain ⟨rest, hmembers⟩ := members_of_nth_zero hview
    rw [if_pos hviews, hview, firstSites, hmembers, List.take_succ_cons, List.take_zero,
      List.flatMap_singleton]
    -- The three loops over kinds, fields and rules, each an enumeration.
    have hgather : StopsIf .noMember (∃ kind ∈ Linter.fieldKinds, ∃ field ∈ fieldsAt view kind.2,
        ∃ site ∈ fieldSites linter found kind.1 field, site.Stuck)
        (gather (fun kind => do
          gather (fun field => do
            let parameters ← parametersOf field
            gather (found.fieldRow kind.1 parameters) linter.fieldRules)
            (← fieldsUnder view kind.2)) Linter.fieldKinds) := by
      refine stopsIf_gather fun kind hkind => ?_
      obtain ⟨fields, hfields, hdeclared⟩ := hkinds kind hkind
      rw [fieldsAt, hfields]
      refine stopsIf_gather fun field hfield => ?_
      obtain ⟨parameters, hparameters, hdeclares⟩ := hdeclared field hfield
      obtain rfl := eq_record_of_parametersOf hparameters
      refine (stopsIf_gather fun rule hrule => fieldRow_stopsIf
        (List.mem_map_of_mem hkind) hdeclares (hrules rule hrule)).congr ?_
      simp [fieldSites, Site.Stuck]
    refine hgather.congr ?_
    simp only [viewSites, List.mem_flatMap]
    constructor
    · rintro ⟨kind, hkind, field, hfield, site, hsite, hstuck⟩
      exact ⟨site, ⟨kind, hkind, field, hfield, hsite⟩, hstuck⟩
    · rintro ⟨site, ⟨kind, hkind, field, hfield, hsite⟩, hstuck⟩
      exact ⟨kind, hkind, field, hfield, site, hsite, hstuck⟩
  · have hnone : members found.doc.views = [] :=
      members_of_not_present (Bool.eq_false_iff.mpr hviews)
    rw [if_neg hviews, firstSites, hnone]
    exact ⟨fun _ => ⟨[], rfl⟩, fun hsome => by simp at hsome⟩

/-! ## The loops of a lint -/

/-- A loop stops at a step that stops, where each step goes through a part of what is gathered. -/
theorem stopsIf_foldlM {α γ σ : Type} {fault : Fault} {f : α → Except Fault (List γ)}
    {step : σ → α → Except Fault σ} {ready reason : γ → Prop}
    (hstep : ∀ a part, f a = .ok part → (∀ c ∈ part, ready c) → ∀ state,
      StopsIf fault (∃ c ∈ part, reason c) (step state a)) (items : List α) :
    ∀ all, gather f items = .ok all → (∀ c ∈ all, ready c) → ∀ state,
      StopsIf fault (∃ c ∈ all, reason c) (items.foldlM step state) := by
  induction items with
  | nil =>
      intro all hall _ state
      cases hall
      exact ⟨fun _ => ⟨state, rfl⟩, fun hnone => by simp at hnone⟩
  | cons a rest ih =>
      intro all hall hready state
      obtain ⟨first, hfirst, hall⟩ := bind_eq_ok.mp hall
      obtain ⟨others, hothers, hall⟩ := bind_eq_ok.mp hall
      cases hall
      have hhere := hstep a first hfirst (fun c hc => hready c (List.mem_append_left _ hc)) state
      rw [List.foldlM_cons]
      -- The loop stops here, whatever is gathered from the others, or it goes on with the next
      -- state.
      by_cases hreason : ∃ c ∈ first, reason c
      · rw [hhere.2 hreason]
        obtain ⟨c, hc, hreason⟩ := hreason
        exact ⟨fun hnot => absurd ⟨c, List.mem_append_left _ hc, hreason⟩ hnot, fun _ => rfl⟩
      · obtain ⟨next, hnext⟩ := hhere.1 hreason
        rw [hnext]
        refine (ih others hothers (fun c hc => hready c (List.mem_append_right _ hc)) next).congr ?_
        simp only [List.mem_append, or_and_right, exists_or, hreason, false_or]

/-- A document is ready for a lint: its own rules have no fault, and its fields are declared
fields. -/
structure Ready (linter : Linter) (found : Found) : Prop where
  documents : ∃ rows, found.documentRows linter = .ok rows
  fields : Declares found.doc

/-- **ONE PATH** stops exactly if some rule is stuck in its document. -/
theorem lintPath_stopsIf (hrules : ∀ rule ∈ linter.fieldRules, AboutFields rule) {store : Store}
    {glob path : String} {doc : Document} (hdoc : Document.load store path = .ok doc)
    (hready : Ready linter ⟨glob, path, doc⟩) (rows : Rows) :
    StopsIf .noMember (∃ site ∈ firstSites linter ⟨glob, path, doc⟩, site.Stuck)
      (linter.lintPath store rows path) := by
  obtain ⟨⟨_, hdocuments⟩, hfields⟩ := hready
  have hstops := fieldRows_stopsIf hrules hfields
  rw [Found.fieldRows_eq] at hstops
  rw [Found.documentRows_eq] at hdocuments
  have hjudged := hstops.of_map
  rw [Linter.lintPath, hdoc]
  show StopsIf _ _ (complete (linter.judgeDocument doc (.text (Store.baseName path))) >>= _)
  cases hown : complete (linter.judgeDocument doc (.text (Store.baseName path))) with
  | error fault =>
      rw [Found.file, hown] at hdocuments
      cases hdocuments
  | ok documents => exact hjudged.bind fun fields => ⟨_, rfl⟩

/-- **ONE PATTERN** stops exactly if some rule is stuck in one of its documents. -/
theorem lintGlob_stopsIf (hrules : ∀ rule ∈ linter.fieldRules, AboutFields rule)
    {expand : Glob.Expansion} {store : Store} {glob : Value} {part : List Found}
    (hpart : foundBy expand store glob = .ok part) (hready : ∀ found ∈ part, Ready linter found)
    (rows : Rows) :
    StopsIf .noMember (∃ found ∈ part, ∃ site ∈ firstSites linter found, site.Stuck)
      (linter.lintGlob expand store rows glob) := by
  obtain ⟨text, htext, hpart⟩ := bind_eq_ok.mp hpart
  obtain ⟨paths, hpaths, hpart⟩ := bind_eq_ok.mp hpart
  rw [Linter.lintGlob, htext]
  show StopsIf _ _ (expand store text >>= _)
  rw [hpaths]
  show StopsIf _ _ (paths.foldlM (linter.lintPath store) rows >>= _)
  refine StopsIf.bind (stopsIf_foldlM ?_ paths part hpart hready rows) fun rows => ⟨_, rfl⟩
  intro path loaded hloaded hready rows
  obtain ⟨doc, hdoc, hloaded⟩ := bind_eq_ok.mp hloaded
  cases hloaded
  have hone := hready ⟨text, path, doc⟩ (List.mem_singleton.mpr rfl)
  refine (lintPath_stopsIf hrules hdoc hone rows).congr ?_
  simp

/-- A lint can be run on a store: its rules about fields are such rules, it has no rule about
orphans, its patterns find documents, and these are ready. -/
structure Prepared (linter : Linter) (expand : Glob.Expansion) (store : Store)
    (documents : List Found) : Prop where
  rules : ∀ rule ∈ linter.fieldRules, AboutFields rule
  others : ∃ names, linter.otherRules = .ok names ∧
    names.any (Value.isText "NoOrphansRule") = false
  globs : ∃ globs, (linter.settings.lookup "infile_globs" >>= elements) = .ok globs ∧
    gather (foundBy expand store) globs = .ok documents
  documents : ∀ found ∈ documents, Ready linter found

/-- **ALL PATTERNS**: a lint stops exactly if some rule is stuck in one of its documents. -/
theorem collect_stopsIf {expand : Glob.Expansion} {store : Store} {documents : List Found}
    (h : Prepared linter expand store documents) :
    StopsIf .noMember (∃ found ∈ documents, ∃ site ∈ firstSites linter found, site.Stuck)
      (linter.collectWith expand store) := by
  obtain ⟨names, hnames, hnone⟩ := h.others
  obtain ⟨globs, hglobs, hfound⟩ := h.globs
  obtain ⟨value, hvalue, hglobs⟩ := bind_eq_ok.mp hglobs
  have hcollect : linter.collectWith expand store = linter.lintGlobs expand store globs := by
    rw [Linter.collectWith, hnames]
    show (if names.any (Value.isText "NoOrphansRule") = true then _ else _) = _
    rw [hnone, if_neg Bool.false_ne_true, hvalue]
    show (value.elements >>= _) = _
    rw [hglobs]
    rfl
  rw [hcollect]
  exact stopsIf_foldlM (fun glob part hpart hready rows =>
    lintGlob_stopsIf h.rules hpart hready rows) globs documents hfound h.documents .empty

/-- A lint that collects no rows writes no report. -/
theorem run_of_collect_error {expand : Glob.Expansion} {time : String} {desk : Desk}
    {fault : Fault} (h : linter.collectWith expand desk.store = .error fault) :
    (linter.runWith expand time).run desk = .error fault desk := by
  rw [Linter.runWith]
  show EStateM.bind (Delivery.lift (linter.collectWith expand desk.store)) _ desk = _
  rw [h]
  rfl

/-- **STUCK WITHOUT A TYPE**: at every declared field of one of the three kinds, whichever of its
other parameters are there, each of the six rules has a verdict, which is a judgement exactly if the
field is of its concern; except that the rule about names of yes-no dimensions stops at a dimension
without a type, and the rule about names of counts at a measure without one.  So a lint of documents
whose fields are declared fields collects its rows if no rule is stuck at a field in the first view
of a document, and otherwise it stops, and no report is written. -/
theorem rules_stop_exactly_where_stuck {rule : Rule} (hrule : AboutFields rule) {kind : String}
    {parameters : Fields} (hfield : OfKind kind parameters) {linter : Linter}
    {expand : Glob.Expansion} {desk : Desk} {documents : List Found}
    (hlint : Prepared linter expand desk.store documents) :
    (Rule.Stuck rule.kind kind parameters → rule.onField ⟨parameters⟩ = .error .noMember) ∧
    (¬ Rule.Stuck rule.kind kind parameters → ∃ verdict,
      rule.onField ⟨parameters⟩ = .ok verdict ∧
        ((∃ passed, verdict = .judged passed) ↔ Concerns kind parameters rule.kind)) ∧
    ((∀ found ∈ documents, ∀ site ∈ firstSites linter found, ¬ site.Stuck) →
      ∃ rows, linter.collectWith expand desk.store = .ok rows) ∧
    ((∃ found ∈ documents, ∃ site ∈ firstSites linter found, site.Stuck) →
      ∀ time, (linter.runWith expand time).run desk = .error .noMember desk) := by
  obtain ⟨hstops, hsays⟩ := onField_outcome hrule hfield
  obtain ⟨hcollect, hstop⟩ := collect_stopsIf hlint
  refine ⟨hstops, hsays, fun hnone => hcollect ?_,
    fun hstuck time => run_of_collect_error (hstop hstuck)⟩
  rintro ⟨found, hfound, site, hsite, hstuck⟩
  exact hnone found hfound site hsite hstuck

/-- A lint with all rules about fields. -/
def sixRules : Linter where
  settings := .record [("rules", .record []), ("output", .record []),
    ("infile_globs", .list [.text "*.lkml"]), ("git", .record [("url", .null)])]
  documentRules := []
  fieldRules := [⟨.description, .null⟩, ⟨.drillDown, .null⟩, ⟨.yesNoName, .null⟩,
    ⟨.countName, .null⟩, ⟨.allCaps, .null⟩,
    ⟨.lexicon, .record [("phrases", .list [.text "spend"])]⟩]

/-- The six rules are about fields, and the lexicon has its phrases. -/
theorem sixRules_aboutFields : ∀ rule ∈ sixRules.fieldRules, AboutFields rule := by
  have hkinds : ∀ rule ∈ sixRules.fieldRules, rule.kind ∈
      [.description, .drillDown, .yesNoName, .countName, .allCaps, RuleKind.lexicon] := by decide
  have hphrases : ∀ rule ∈ sixRules.fieldRules, rule.kind = .lexicon →
      ∃ phrases, rule.setting? "phrases" = some (.list phrases) := by
    simp [sixRules, Rule.setting?, Fields.get?]
  exact fun rule hrule => ⟨hkinds rule hrule, hphrases rule hrule⟩

/-- What is left to check of a lint with these rules is what its documents declare. -/
theorem prepared_sixRules {expand : Glob.Expansion} {store : Store} {documents : List Found}
    (hfound : gather (foundBy expand store) [.text "*.lkml"] = .ok documents)
    (hdeclares : ∀ found ∈ documents, Declares found.doc) :
    Prepared sixRules expand store documents where
  rules := sixRules_aboutFields
  others := ⟨[], rfl, rfl⟩
  globs := ⟨_, rfl, hfound⟩
  documents := fun found hmem => ⟨⟨[], rfl⟩, hdeclares found hmem⟩

/-- A desk with a document of a dimension, of which the parameters are given, and a dimension group
without any. -/
def deskOf (parameters : String) : Desk :=
  ⟨⟨[(["v.view.lkml"], "view: v \x7b\n dimension: is_a \x7b" ++ parameters ++
    "\x7d\n dimension_group: b \x7b\x7d\n\x7d\n")], []⟩, []⟩

/-- The documents of such a desk. -/
def documentsOf (parameters : String) : Except Fault (List Found) :=
  gather (foundBy Glob.expand (deskOf parameters).store) [.text "*.lkml"]

/-- A dimension with its type is judged, and so is a dimension group without one. -/
theorem typed_dimension_judged :
    (∃ verdict, Rule.onField ⟨.yesNoName, .null⟩
      ⟨[("_type", .text "dimension"), ("name", .text "is_a"), ("type", .text "yesno")]⟩ =
        .ok verdict ∧ ∃ passed, verdict = .judged passed) ∧
    ∃ rows, sixRules.collect (deskOf "type: yesno").store = .ok rows := by
  have hrule : AboutFields ⟨.yesNoName, .null⟩ := sixRules_aboutFields _ (by simp [sixRules])
  have hfield : OfKind "dimension"
      [("_type", .text "dimension"), ("name", .text "is_a"), ("type", .text "yesno")] :=
    ⟨by decide, by decide, rfl⟩
  have hsummary : ((documentsOf "type: yesno").toOption.map fun documents =>
      decide (∀ found ∈ documents, Declares found.doc ∧
        ∀ site ∈ firstSites sixRules found, ¬ site.Stuck)) = some true := by
    decide +kernel
  cases hfound : documentsOf "type: yesno" with
  | error fault => rw [hfound] at hsummary; cases hsummary
  | ok documents =>
      rw [hfound] at hsummary
      have hall := of_decide_eq_true (Option.some.inj hsummary)
      obtain ⟨_, hverdict, hrows, _⟩ := rules_stop_exactly_where_stuck hrule hfield
        (@prepared_sixRules Glob.expand (deskOf "type: yesno").store documents hfound
          fun found hmem => (hall found hmem).1)
      obtain ⟨verdict, hok, hconcerns⟩ := hverdict (by decide)
      exact ⟨⟨verdict, hok, hconcerns.mpr ⟨rfl, rfl⟩⟩,
        hrows fun found hmem => (hall found hmem).2⟩

/-- A dimension that has a name and nothing else is a declared field, as is a measure, and each
stops a rule; a lint of a document with such a dimension writes nothing. -/
theorem untyped_field_stops_lint :
    OfKind "dimension" [("_type", .text "dimension"), ("name", .text "a")] ∧
    Rule.onField ⟨.yesNoName, .null⟩ ⟨[("_type", .text "dimension"), ("name", .text "a")]⟩ =
      .error .noMember ∧
    OfKind "measure" [("_type", .text "measure"), ("name", .text "a")] ∧
    Rule.onField ⟨.countName, .null⟩ ⟨[("_type", .text "measure"), ("name", .text "a")]⟩ =
      .error .noMember ∧
    (∃ documents, Prepared sixRules Glob.expand (deskOf "").store documents) ∧
    (sixRules.run "now").run (deskOf "") = .error .noMember (deskOf "") := by
  have hsummary : ((documentsOf "").toOption.map fun documents =>
      decide ((∀ found ∈ documents, Declares found.doc) ∧
        ∃ found ∈ documents, ∃ site ∈ firstSites sixRules found, site.Stuck)) = some true := by
    decide +kernel
  refine ⟨⟨by decide, by decide, rfl⟩, rfl, ⟨by decide, by decide, rfl⟩, rfl, ?_⟩
  cases hfound : documentsOf "" with
  | error fault => rw [hfound] at hsummary; cases hsummary
  | ok documents =>
      rw [hfound] at hsummary
      obtain ⟨hdeclares, hstuck⟩ := of_decide_eq_true (Option.some.inj hsummary)
      have hprepared := prepared_sixRules hfound hdeclares
      exact ⟨⟨documents, hprepared⟩, run_of_collect_error ((collect_stopsIf hprepared).2 hstuck)⟩

end Lint

end LookmlProject
