import LookmlProject.Proofs.FieldVerdicts

/-! # The parameters that a rule looks at

    A field holds its parameters in one record with the names that it uses for itself,
    so a parameter of any name could change what a rule says.  For each rule about
    fields the keys that it looks at are listed (`reads`), and the list is exact:

    * **finite support** (`onField_congr`): two fields that agree on the keys of a rule
      get the same verdict, or stop it with the same fault;
    * **every key counts** (`onField_alter_ne`): at a sample field, taking out one of
      the listed parameters, or putting in one of the listed names, changes what the
      rule says;
    * so a rule cannot see a key exactly if it is not on its list (`unseen_iff`).  All
      lists together are five parameters (`watched`) and the five names that a field
      uses for itself (`reserved`). -/

namespace LookmlProject.Rule

open Value Lookml

/-! ## Fields that agree on some keys -/

/-- Under each of the keys both fields have the same value, or both have none. -/
def AgreeOn (keys : List String) (first second : Fields) : Prop :=
  ∀ key ∈ keys, Fields.get? first key = Fields.get? second key

/-- The keys that tell of which kind a field is. -/
def kindKeys : List String := ["is_dimension", "is_dimension_group", "is_measure", "_type"]

/-- The keys that tell, besides a key itself, whether a field has the key. -/
def presenceKeys : List String := ["has_key", "json_data"]

/-- The keys that a rule looks at. -/
def reads : RuleKind → List String
  | .description => kindKeys ++ presenceKeys ++ ["description"]
  | .drillDown => ["is_measure", "_type"] ++ presenceKeys ++ ["drill_fields"]
  | .yesNoName => ["is_dimension", "_type", "type", "name"]
  | .countName => ["is_measure", "_type", "type", "name"]
  | .allCaps => kindKeys ++ ["name"]
  | .lexicon => kindKeys ++ presenceKeys ++ ["name", "description"]
  | .oneViewPerFile | .filenameViewnameMatch | .dataSource => ["has_views"]

namespace AgreeOn

variable {keys : List String} {first second : Fields}

/-- Fields that agree on some keys agree on fewer. -/
theorem mono {fewer : List String} (h : AgreeOn keys first second) (hsub : fewer ⊆ keys) :
    AgreeOn fewer first second :=
  fun key hkey => h key (hsub hkey)

/-- What a field gives for a key depends on the parameter of that name alone. -/
theorem get_eq (h : AgreeOn keys first second) {key : String} (hkey : key ∈ keys) :
    Field.get ⟨first⟩ key = Field.get ⟨second⟩ key := by
  rw [Field.get, Field.get, h key hkey]

/-- A question to a field is answered by its parameter of that name, where it has one. -/
theorem ask_eq (h : AgreeOn keys first second) {question : String} (hkey : question ∈ keys)
    (answer : Except Fault Bool) :
    Field.ask ⟨first⟩ question answer = Field.ask ⟨second⟩ question answer := by
  rw [Field.ask, Field.ask, Fields.has, Fields.has, h question hkey]

/-- Of which kind a field says it is, is told by its mark. -/
theorem kindIs_eq (h : AgreeOn keys first second) (hkey : "_type" ∈ keys) (kind : String) :
    Field.kindIs ⟨first⟩ kind = Field.kindIs ⟨second⟩ kind := by
  rw [Field.kindIs, Field.kindIs, h.get_eq hkey]

/-- Whether a field is a dimension is told by the question and the mark. -/
theorem isDimension_eq (h : AgreeOn ["is_dimension", "_type"] first second) :
    Field.isDimension ⟨first⟩ = Field.isDimension ⟨second⟩ := by
  rw [Field.isDimension, Field.isDimension, h.kindIs_eq (by decide), h.ask_eq (by decide)]

theorem isDimensionGroup_eq (h : AgreeOn ["is_dimension_group", "_type"] first second) :
    Field.isDimensionGroup ⟨first⟩ = Field.isDimensionGroup ⟨second⟩ := by
  rw [Field.isDimensionGroup, Field.isDimensionGroup, h.kindIs_eq (by decide),
    h.ask_eq (by decide)]

theorem isMeasure_eq (h : AgreeOn ["is_measure", "_type"] first second) :
    Field.isMeasure ⟨first⟩ = Field.isMeasure ⟨second⟩ := by
  rw [Field.isMeasure, Field.isMeasure, h.kindIs_eq (by decide), h.ask_eq (by decide)]

/-- Whether a field is of one of the three kinds is told by the three questions and the mark. -/
theorem isAny_eq (h : AgreeOn kindKeys first second) :
    Field.isAny ⟨first⟩ = Field.isAny ⟨second⟩ := by
  rw [Field.isAny, Field.isAny, (h.mono (by decide)).isDimension_eq,
    (h.mono (by decide)).isDimensionGroup_eq, (h.mono (by decide)).isMeasure_eq]

/-- Whether a field has a key is told by the key alone, or by what takes the place of the
parameters. -/
theorem hasKey_eq (h : AgreeOn presenceKeys first second) {key : String}
    (hkey : Fields.get? first key = Fields.get? second key) :
    Field.hasKey ⟨first⟩ key = Field.hasKey ⟨second⟩ key := by
  -- What stands under the name of the record, if anything, is searched in the place of the
  -- parameters.
  have hsearched : (Field.searched ⟨first⟩).holds (.text key) =
      (Field.searched ⟨second⟩).holds (.text key) := by
    rw [Field.searched, Field.searched, h "json_data" (by decide)]
    cases Fields.get? second "json_data" with
    | some v => rfl
    | none =>
        show Except.ok (Fields.has first key) = Except.ok (Fields.has second key)
        rw [Fields.has, Fields.has, hkey]
  rw [Field.hasKey, Field.hasKey, Field.holds, Field.holds, hsearched, h.ask_eq (by decide)]

/-! ## What a rule says of fields that agree on its keys -/

/-- The rule about descriptions sees its keys only. -/
theorem description_eq (h : AgreeOn (reads .description) first second) :
    description ⟨first⟩ = description ⟨second⟩ := by
  rw [description, description, (h.mono (by decide)).isAny_eq,
    (h.mono (by decide)).hasKey_eq (h "description" (by decide)), h.get_eq (by decide)]

/-- The rule about drill fields sees its keys only. -/
theorem drillDown_eq (h : AgreeOn (reads .drillDown) first second) :
    drillDown ⟨first⟩ = drillDown ⟨second⟩ := by
  rw [drillDown, drillDown, (h.mono (by decide)).isMeasure_eq,
    (h.mono (by decide)).hasKey_eq (h "drill_fields" (by decide)), h.get_eq (by decide)]

/-- Judging a name takes the type and the name. -/
theorem judgeName_eq (h : AgreeOn ["type", "name"] first second) (type : String)
    (judge : List Char → Bool) : judgeName type judge ⟨first⟩ = judgeName type judge ⟨second⟩ := by
  rw [judgeName, judgeName, h.get_eq (by decide), h.get_eq (by decide)]

theorem yesNoName_eq (h : AgreeOn (reads .yesNoName) first second) :
    yesNoName ⟨first⟩ = yesNoName ⟨second⟩ := by
  show (Field.isDimension ⟨first⟩ >>= fun yes =>
      if yes then judgeName "yesno" "is_".toList.isPrefixOf ⟨first⟩ else .ok .irrelevant) = _
  rw [(h.mono (by decide)).isDimension_eq, (h.mono (by decide)).judgeName_eq]
  rfl

theorem countName_eq (h : AgreeOn (reads .countName) first second) :
    countName ⟨first⟩ = countName ⟨second⟩ := by
  show (Field.isMeasure ⟨first⟩ >>= fun yes =>
      if yes then judgeName "count" "_count".toList.isSuffixOf ⟨first⟩ else .ok .irrelevant) = _
  rw [(h.mono (by decide)).isMeasure_eq, (h.mono (by decide)).judgeName_eq]
  rfl

theorem allCaps_eq (h : AgreeOn (reads .allCaps) first second) :
    allCaps ⟨first⟩ = allCaps ⟨second⟩ := by
  rw [allCaps, allCaps, (h.mono (by decide)).isAny_eq, h.get_eq (by decide)]

/-- Whether a phrase is found is told by the name and, where there is one, the description. -/
theorem mentions_eq (h : AgreeOn (presenceKeys ++ ["name", "description"]) first second)
    (phrase : String) : mentions ⟨first⟩ phrase = mentions ⟨second⟩ phrase := by
  rw [mentions, mentions, h.get_eq (show "name" ∈ _ by decide),
    (h.mono (by decide)).hasKey_eq (h "description" (by decide)),
    h.get_eq (show "description" ∈ _ by decide)]

theorem mentionsAny_eq (h : AgreeOn (presenceKeys ++ ["name", "description"]) first second)
    (phrases : List String) : mentionsAny ⟨first⟩ phrases = mentionsAny ⟨second⟩ phrases := by
  induction phrases with
  | nil => rfl
  | cons phrase rest ih => rw [mentionsAny, mentionsAny, h.mentions_eq, ih]

/-- The lexicon sees its keys only, whatever its phrases are. -/
theorem lexicon_eq (h : AgreeOn (reads .lexicon) first second) (rule : Rule) :
    lexicon rule ⟨first⟩ = lexicon rule ⟨second⟩ := by
  rw [lexicon, lexicon, (h.mono (by decide)).isAny_eq]
  simp only [(h.mono (by decide)).mentionsAny_eq]

end AgreeOn

/-- **FINITE SUPPORT**: a rule says the same of two fields that agree on the keys that it looks
at. -/
theorem onField_congr (rule : Rule) {first second : Fields}
    (h : AgreeOn (reads rule.kind) first second) :
    rule.onField ⟨first⟩ = rule.onField ⟨second⟩ := by
  rw [onField, onField]
  cases hkind : rule.kind with
  | description => exact AgreeOn.description_eq (hkind ▸ h)
  | drillDown => exact AgreeOn.drillDown_eq (hkind ▸ h)
  | yesNoName => exact AgreeOn.yesNoName_eq (hkind ▸ h)
  | countName => exact AgreeOn.countName_eq (hkind ▸ h)
  | allCaps => exact AgreeOn.allCaps_eq (hkind ▸ h)
  | lexicon => exact AgreeOn.lexicon_eq (hkind ▸ h) rule
  -- The rules about documents only ask the field for views.
  | oneViewPerFile | filenameViewnameMatch | dataSource =>
      rw [hkind] at h
      dsimp only
      rw [Fields.has, Fields.has, h "has_views" (by decide)]

/-! ## Every key counts -/

/-- The rules about fields. -/
def fieldRules : List RuleKind :=
  [.description, .drillDown, .yesNoName, .countName, .allCaps, .lexicon]

/-- A field at which a rule looks at all its keys: a count with everything, and for the rule about
names of yes-no dimensions such a dimension. -/
def sample (kind : RuleKind) : Fields :=
  let marks := if kind = .yesNoName then ("dimension", "yesno") else ("measure", "count")
  [("_type", .text marks.1), ("type", .text marks.2), ("name", .text "a"),
    ("description", .text "b"), ("drill_fields", .list [.text "c"])]

/-- A rule with the settings of a lexicon. -/
def sampleRule (kind : RuleKind) : Rule := ⟨kind, .record [("phrases", .list [.text "b"])]⟩

/-- The field without a parameter, or with a parameter of a name that the field uses for itself. -/
def alter (key : String) (parameters : Fields) : Fields :=
  if key ∈ reserved then Fields.set parameters key (.text "") else Keyed.erase parameters key

/-- An altered field is the same under all other keys. -/
theorem get?_alter {key other : String} (h : other ≠ key) (parameters : Fields) :
    Fields.get? (alter key parameters) other = Fields.get? parameters other := by
  rw [alter]
  split
  · rw [get?_set, if_neg h.symm]
  · exact get?_erase h parameters

/-- The verdicts differ, or there is a verdict in one case only. -/
theorem onField_alter_ne : ∀ kind ∈ fieldRules, ∀ key ∈ reads kind,
    ((sampleRule kind).onField ⟨sample kind⟩).toOption ≠
      ((sampleRule kind).onField ⟨alter key (sample kind)⟩).toOption := by
  decide

/-- No rule of the kind, whatever its settings, can tell two fields apart that differ under the key
at most. -/
def Unseen (kind : RuleKind) (key : String) : Prop :=
  ∀ rule : Rule, rule.kind = kind → ∀ first second : Fields,
    (∀ other ≠ key, Fields.get? first other = Fields.get? second other) →
      rule.onField ⟨first⟩ = rule.onField ⟨second⟩

/-- **THE LISTS ARE EXACT**: a rule about fields cannot see a key exactly if the key is not on its
list. -/
theorem unseen_iff {kind : RuleKind} (hkind : kind ∈ fieldRules) (key : String) :
    Unseen kind key ↔ key ∉ reads kind := by
  constructor
  · intro hunseen hkey
    -- The sample and the altered sample differ under the key only, and the rule tells them apart.
    refine onField_alter_ne kind hkind key hkey (congrArg Except.toOption ?_)
    exact hunseen (sampleRule kind) rfl _ _ fun other hother => (get?_alter hother _).symm
  · rintro hkey rule rfl first second hothers
    exact onField_congr rule fun other hother => hothers other fun heq => hkey (heq ▸ hother)

/-- The parameters of a field that some rule looks at. -/
def watched : List String := ["_type", "type", "name", "description", "drill_fields"]

/-- A rule looks at watched parameters and at names that a field uses for itself. -/
theorem reads_subset : ∀ kind ∈ fieldRules, reads kind ⊆ watched ++ reserved := by
  decide

/-- Each of these keys is looked at by some rule. -/
theorem exists_reads : ∀ key ∈ watched ++ reserved, ∃ kind ∈ fieldRules, key ∈ reads kind := by
  decide

/-- **OTHER PARAMETERS DO NOT COUNT**: a rule about fields says the same of two fields, or stops
with the same fault at both, if they agree on the five watched parameters and neither has a
parameter with a name that a field uses for itself; their other parameters may be any.  None of
these ten keys can be spared: they are exactly those that some rule can see. -/
theorem verdict_of_watched {rule : Rule} (hrule : rule.kind ∈ fieldRules) {first second : Fields}
    (hwatched : ∀ key ∈ watched, Fields.get? first key = Fields.get? second key)
    (hfirst : ∀ key ∈ reserved, Fields.get? first key = none)
    (hsecond : ∀ key ∈ reserved, Fields.get? second key = none) :
    rule.onField ⟨first⟩ = rule.onField ⟨second⟩ ∧
    ∀ key, (∃ kind ∈ fieldRules, ¬ Unseen kind key) ↔ key ∈ watched ++ reserved := by
  constructor
  · refine onField_congr rule fun key hkey => ?_
    rcases List.mem_append.mp (reads_subset _ hrule hkey) with hmem | hmem
    · exact hwatched key hmem
    · rw [hfirst key hmem, hsecond key hmem]
  · intro key
    constructor
    · rintro ⟨kind, hkind, hseen⟩
      rw [unseen_iff hkind, not_not] at hseen
      exact reads_subset kind hkind hseen
    · intro hmem
      obtain ⟨kind, hkind, hkey⟩ := exists_reads key hmem
      exact ⟨kind, hkind, fun hunseen => (unseen_iff hkind key).mp hunseen hkey⟩

/-- A lexicon of one phrase. -/
def spendLexicon : Rule := ⟨.lexicon, .record [("phrases", .list [.text "Spend"])]⟩

/-- A measure with a parameter that only documents are asked for. -/
def plainTotal : Fields :=
  [("_type", .text "measure"), ("name", .text "total"), ("has_views", .bool true),
    ("description", .text "all spend")]

/-- The same measure with its parameters in another order, and a record among them. -/
def labelledTotal : Fields :=
  [("label", .record [("name", .text "spend")]), ("description", .text "all spend"),
    ("name", .text "total"), ("_type", .text "measure")]

/-- The phrase is found in the description of both. -/
theorem totals_judged_alike :
    spendLexicon.onField ⟨plainTotal⟩ = spendLexicon.onField ⟨labelledTotal⟩ ∧
    spendLexicon.onField ⟨labelledTotal⟩ = .ok (.judged false) := by
  have hrule : spendLexicon.kind ∈ fieldRules := by decide
  have hwatched : ∀ key ∈ watched, Fields.get? plainTotal key = Fields.get? labelledTotal key := by
    simp [watched, plainTotal, labelledTotal, Fields.get?]
  exact ⟨(verdict_of_watched hrule hwatched (by decide) (by decide)).1, rfl⟩

end LookmlProject.Rule
