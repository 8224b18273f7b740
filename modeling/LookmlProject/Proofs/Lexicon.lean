import LookmlProject.Proofs.FieldVerdicts
import LookmlProject.Proofs.SmallLetters

/-! # What a lexicon catches

    A lexicon puts its phrases into small letters, but not the name and the description
    that it looks for them in.  So it catches a phrase where its small form stands
    (`Caught`), and not wherever the phrase stands in some letter case (`Banned`).

    * what is caught is banned (`Caught.banned`), for a small form is a form of the
      phrase in small letters;
    * a lexicon is right about a field, whatever its phrases, exactly if each part of
      name and description stands there in small letters too (`right_iff`);
    * that is so if both are in small letters (`SmallLetters.smallForms`), and for a
      field without a description it is so only then (`SmallForms.smallLetters`). -/

namespace LookmlProject.Rule

open Value

/-! ## Phrases that are caught, and phrases that are banned -/

/-- The rule is a lexicon of the phrases. -/
structure HasPhrases (rule : Rule) (phrases : List String) : Prop where
  kind : rule.kind = .lexicon
  phrases : rule.setting? "phrases" = some (.list (phrases.map .text))

/-- A lexicon with the phrases as its only setting. -/
def lexiconOf (phrases : List String) : Rule :=
  ⟨.lexicon, .record [("phrases", .list (phrases.map .text))]⟩

theorem hasPhrases_lexiconOf (phrases : List String) : HasPhrases (lexiconOf phrases) phrases :=
  ⟨rfl, rfl⟩

/-- The small form of a phrase stands in the name or the description. -/
def Caught (phrases : List String) (parameters : Fields) : Prop :=
  ∃ phrase ∈ phrases, ∃ s, Worded parameters s ∧ Text.lower phrase.toList <:+: s.toList

/-- A phrase stands, as it is or in another letter case, in the name or the description. -/
def Banned (phrases : List String) (parameters : Fields) : Prop :=
  ∃ phrase ∈ phrases, ∃ s, Worded parameters s ∧
    ∃ part, part <:+: s.toList ∧ Text.lower part = Text.lower phrase.toList

variable {rule : Rule} {phrases : List String} {kind : String} {parameters : Fields}

/-- A lexicon judges every field, by whether it catches a phrase. -/
theorem HasPhrases.exists_onField (hrule : HasPhrases rule phrases)
    (hfield : OfKind kind parameters) :
    ∃ passed, rule.onField ⟨parameters⟩ = .ok (.judged passed) ∧
      (passed = false ↔ Caught phrases parameters) := by
  obtain ⟨passed, hpassed, hiff⟩ := exists_lexicon hfield hrule.phrases
  refine ⟨passed, ?_, hiff.trans ?_⟩
  · rw [onField, hrule.kind]
    exact hpassed
  · simp [Caught, Mentioned, smallPhrase, Value.display, Text.occurs_iff]

theorem HasPhrases.onField_eq_iff (hrule : HasPhrases rule phrases)
    (hfield : OfKind kind parameters) :
    rule.onField ⟨parameters⟩ = .ok (.judged false) ↔ Caught phrases parameters := by
  obtain ⟨passed, hpassed, hiff⟩ := hrule.exists_onField hfield
  rw [hpassed, ← hiff, Except.ok.injEq, Verdict.judged.injEq]

theorem Caught.banned (h : Caught phrases parameters) : Banned phrases parameters := by
  obtain ⟨phrase, hphrase, s, hs, hinside⟩ := h
  exact ⟨phrase, hphrase, s, hs, _, hinside, Text.lower_lower _⟩

/-- Only the small forms of the phrases matter, in whatever order and how often they come. -/
theorem Caught.of_small {others : List String} (h : Caught phrases parameters)
    (hsmall : ∀ phrase ∈ phrases, ∃ other ∈ others,
      Text.lower other.toList = Text.lower phrase.toList) : Caught others parameters := by
  obtain ⟨phrase, hphrase, s, hs, hinside⟩ := h
  obtain ⟨other, hother, heq⟩ := hsmall phrase hphrase
  exact ⟨other, hother, s, hs, heq ▸ hinside⟩

/-! ## Fields about which a lexicon is right -/

/-- A lexicon of any phrases finds the field faulty exactly if a phrase is banned there. -/
def Right (parameters : Fields) : Prop :=
  ∀ rule phrases, HasPhrases rule phrases →
    (rule.onField ⟨parameters⟩ = .ok (.judged false) ↔ Banned phrases parameters)

/-- Each part of name and description stands in one of them in small letters. -/
def SmallForms (parameters : Fields) : Prop :=
  ∀ s, Worded parameters s → ∀ part, part <:+: s.toList →
    ∃ t, Worded parameters t ∧ Text.lower part <:+: t.toList

/-- Name and description are in small letters. -/
def SmallLetters (parameters : Fields) : Prop :=
  ∀ s, Worded parameters s → Text.lower s.toList = s.toList

/-- **WHERE A LEXICON IS RIGHT**: a part that does not stand anywhere in small letters is a phrase
that is banned and not caught. -/
theorem right_iff (hfield : OfKind kind parameters) : Right parameters ↔ SmallForms parameters := by
  constructor
  · intro hright s hs part hpart
    -- The part is itself a phrase that a lexicon may have.
    have hrule := hasPhrases_lexiconOf [String.ofList part]
    have hbanned : Banned [String.ofList part] parameters :=
      ⟨_, List.mem_singleton.mpr rfl, s, hs, part, hpart, by rw [String.toList_ofList]⟩
    obtain ⟨phrase, hphrase, t, ht, hinside⟩ :=
      (hrule.onField_eq_iff hfield).mp ((hright _ _ hrule).mpr hbanned)
    rw [List.mem_singleton.mp hphrase, String.toList_ofList] at hinside
    exact ⟨t, ht, hinside⟩
  · intro hsmall rule phrases hrule
    rw [hrule.onField_eq_iff hfield]
    refine ⟨Caught.banned, ?_⟩
    rintro ⟨phrase, hphrase, s, hs, part, hpart, heq⟩
    obtain ⟨t, ht, hinside⟩ := hsmall s hs part hpart
    exact ⟨phrase, hphrase, t, ht, heq ▸ hinside⟩

theorem SmallLetters.smallForms (h : SmallLetters parameters) : SmallForms parameters := by
  intro s hs part hpart
  have hsmall := Text.lower_eq_self_iff.mp (h s hs)
  have hself : Text.lower part = part :=
    Text.lower_eq_self_iff.mpr fun c hc => hsmall c (hpart.subset hc)
  exact ⟨s, hs, by rwa [hself]⟩

/-- The small form of a name is at least as long as the name, so it stands in the name only if it is
the name. -/
theorem SmallForms.smallLetters (h : SmallForms parameters)
    (hnone : Fields.get? parameters "description" = none) : SmallLetters parameters := by
  have hname : ∀ s, Worded parameters s → Fields.get? parameters "name" = some (.text s) := by
    rintro s (hname | hdescription)
    · exact hname
    · rw [hnone] at hdescription
      cases hdescription
  intro s hs
  -- Without a description the only text that the whole name can stand in is the name.
  obtain ⟨t, ht, hinside⟩ := h s hs s.toList (List.infix_refl _)
  obtain rfl : s = t := Value.text.inj (Option.some.inj ((hname s hs).symm.trans (hname t ht)))
  exact hinside.eq_of_length_le (Text.length_le_length_lowerAfter [] s.toList)

/-- **SMALL FORMS ARE CAUGHT**: a lexicon judges every field of the three kinds.  It finds the field
faulty exactly if the small form of one of its phrases stands in the name or the description; then
a phrase stands there in some letter case.  The order of the phrases, their repetitions and their
letter case do not matter.  The letter case of name and description does: a lexicon is right about a
field, whatever its phrases, exactly if each part of them stands there in small letters too; so it
is if both are in small letters, and only then if there is no description. -/
theorem lexicon_catches_small_forms (hrule : HasPhrases rule phrases)
    (hfield : OfKind kind parameters) :
    (∃ passed, rule.onField ⟨parameters⟩ = .ok (.judged passed) ∧
      (passed = false ↔ Caught phrases parameters)) ∧
    (Caught phrases parameters → Banned phrases parameters) ∧
    (∀ other others, HasPhrases other others →
      (∀ small, (∃ phrase ∈ phrases, Text.lower phrase.toList = small) ↔
        ∃ phrase ∈ others, Text.lower phrase.toList = small) →
      other.onField ⟨parameters⟩ = rule.onField ⟨parameters⟩) ∧
    (Right parameters ↔ SmallForms parameters) ∧
    (SmallLetters parameters → Right parameters) ∧
    (Fields.get? parameters "description" = none → Right parameters → SmallLetters parameters) := by
  refine ⟨hrule.exists_onField hfield, Caught.banned, ?_, right_iff hfield,
    fun hsmall => (right_iff hfield).mpr hsmall.smallForms,
    fun hnone hright => ((right_iff hfield).mp hright).smallLetters hnone⟩
  intro other others hother hsame
  obtain ⟨passed, hpassed, hiff⟩ := hrule.exists_onField hfield
  obtain ⟨passed', hpassed', hiff'⟩ := hother.exists_onField hfield
  have hcaught : Caught others parameters ↔ Caught phrases parameters :=
    ⟨fun h => h.of_small fun phrase hphrase => (hsame _).mpr ⟨phrase, hphrase, rfl⟩,
      fun h => h.of_small fun phrase hphrase => (hsame _).mp ⟨phrase, hphrase, rfl⟩⟩
  have heq : passed' = passed :=
    Bool.eq_iff_iff.mpr (by simpa using not_congr (hiff'.trans (hcaught.trans hiff.symm)))
  rw [hpassed, hpassed', heq]

/-- A measure with a description in small letters, under phrases that are not. -/
theorem spend_caught :
    Right [("_type", .text "measure"), ("name", .text "total"), ("description", .text "all spend")] ∧
    (lexiconOf ["Cost", "SPEND"]).onField
        ⟨[("_type", .text "measure"), ("name", .text "total"), ("description", .text "all spend")]⟩ =
      .ok (.judged false) := by
  have hfield : OfKind "measure"
      [("_type", .text "measure"), ("name", .text "total"), ("description", .text "all spend")] :=
    ⟨by decide, by decide, rfl⟩
  obtain ⟨⟨passed, hpassed, hiff⟩, -, -, -, hright, -⟩ :=
    lexicon_catches_small_forms (hasPhrases_lexiconOf ["Cost", "SPEND"]) hfield
  have hfaulty : passed = false :=
    hiff.mpr ⟨"SPEND", by decide, "all spend", .inr rfl, "all ".toList, [], by decide⟩
  refine ⟨hright ?_, hpassed.trans (by rw [hfaulty])⟩
  rintro s (h | h) <;> cases h <;> rfl

/-- A name that is the banned phrase itself passes, for it has a capital letter; in small letters it
does not. -/
theorem capital_not_caught :
    OfKind "dimension" [("_type", .text "dimension"), ("name", .text "Spend")] ∧
    Banned ["Spend"] [("_type", .text "dimension"), ("name", .text "Spend")] ∧
    (lexiconOf ["Spend"]).onField ⟨[("_type", .text "dimension"), ("name", .text "Spend")]⟩ =
      .ok (.judged true) ∧
    (lexiconOf ["Spend"]).onField ⟨[("_type", .text "dimension"), ("name", .text "spend")]⟩ =
      .ok (.judged false) := by
  refine ⟨⟨by decide, by decide, rfl⟩, ?_, rfl, rfl⟩
  exact ⟨"Spend", by decide, "Spend", .inl rfl, "Spend".toList, List.infix_refl _, rfl⟩

end LookmlProject.Rule
