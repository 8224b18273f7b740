import LookmlProject.Proofs.LintRows
import LookmlProject.Proofs.Members
import Mathlib.Data.List.Perm.Basic

/-! # Which fields have rows

    A site is a rule at a field: in a view of a document that a pattern has found,
    once for each time that it is found.  A lint covers some sites if its rows about
    fields are one for each of them that the rule is about, with the name and the
    kind of the field and what the rule makes of it.  The route:

    * an enumeration has a row for each site if each of its parts does
      (`forall₂_of_gather`), so the rows about one view cover the sites of that view
      (`judged_viewRows`), and those about a document the sites of its first view
      (`judged_fieldRows`);
    * the sites of all views are those of the first views and those of the later
      ones (`sites_perm`), and rows are counted.

    So a lint covers the sites of all views exactly if no rule is about a field of a
    later view (`field_rows_cover_first_views`). -/

namespace LookmlProject.Lint

open Lookml Value

/-! ## Sites -/

/-- A rule at a field of a document that a pattern has found. -/
structure Site where
  found : Found
  kind : String
  parameters : Fields
  rule : Rule

namespace Site

/-- What the rule makes of the field. -/
def verdict (site : Site) : Except Fault Verdict :=
  site.rule.onField ⟨Linter.mark (.text site.kind) site.parameters⟩

/-- Whether the rule is about the field. -/
def relevant (site : Site) : Bool :=
  match site.verdict with
  | .ok (.judged _) => true
  | _ => false

/-- A row says what the rule makes of the field: with the file, the rule, the kind and the name of
the field, and the pattern. -/
def Judged (site : Site) (row : FieldRow) : Prop :=
  site.verdict = .ok (.judged row.passed) ∧
    (Value.record site.parameters).lookup "name" = .ok row.field ∧
    row.kind = .text site.kind ∧ row.rule = site.rule.name ∧
    row.file = .text (Store.baseName site.found.path) ∧ row.glob = some site.found.glob

end Site

/-- The rows are one for each of the sites at which the rule is about the field. -/
def Covers (sites : List Site) (rows : List FieldRow) : Prop :=
  ∃ order, order.Perm (sites.filter Site.relevant) ∧ List.Forall₂ Site.Judged order rows

/-- The fields that stand under a key of a view, none if there is no such list. -/
def fieldsAt (view : Value) (key : String) : List Value :=
  match fieldsUnder view key with
  | .ok fields => fields
  | .error _ => []

/-- The sites at one field. -/
def fieldSites (linter : Linter) (found : Found) (kind : String) (field : Value) : List Site :=
  match field with
  | .record parameters => linter.fieldRules.map fun rule => ⟨found, kind, parameters, rule⟩
  | _ => []

/-- The sites in a view: every rule at every dimension, dimension group and measure. -/
def viewSites (linter : Linter) (found : Found) (view : Value) : List Site :=
  Linter.fieldKinds.flatMap fun kind =>
    (fieldsAt view kind.2).flatMap (fieldSites linter found kind.1)

/-- The sites in all views of a document. -/
def sitesOf (linter : Linter) (found : Found) : List Site :=
  (members found.doc.views).flatMap (viewSites linter found)

/-- The sites in the first view of a document. -/
def firstSites (linter : Linter) (found : Found) : List Site :=
  ((members found.doc.views).take 1).flatMap (viewSites linter found)

/-- The sites in the views of a document after its first. -/
def laterSites (linter : Linter) (found : Found) : List Site :=
  ((members found.doc.views).drop 1).flatMap (viewSites linter found)

/-! ## Rows for sites -/

/-- What is gathered corresponds to what is listed if each part does. -/
theorem forall₂_of_gather {α β γ : Type} {rel : γ → β → Prop} {f : α → Except Fault (List β)}
    {list : α → List γ} {items : List α} {rows : List β} (h : gather f items = .ok rows)
    (hpart : ∀ a ∈ items, ∀ part, f a = .ok part → List.Forall₂ rel (list a) part) :
    List.Forall₂ rel (items.flatMap list) rows := by
  induction items generalizing rows with
  | nil =>
      cases h
      exact .nil
  | cons a rest ih =>
      rw [gather_cons] at h
      obtain ⟨first, hfirst, h⟩ := bind_eq_ok.mp h
      obtain ⟨others, hothers, h⟩ := bind_eq_ok.mp h
      cases h
      rw [List.flatMap_cons]
      exact List.rel_append (hpart a List.mem_cons_self first hfirst)
        (ih hothers fun b hb => hpart b (List.mem_cons_of_mem _ hb))

variable (linter : Linter) (found : Found)

/-- **ONE RULE AT ONE FIELD**: a row if the rule is about the field, and none if it is not. -/
theorem judged_fieldRow (kind : String) (parameters : Fields) (rule : Rule) {rows : List FieldRow}
    (h : found.fieldRow kind parameters rule = .ok rows) :
    List.Forall₂ Site.Judged
      ([(⟨found, kind, parameters, rule⟩ : Site)].filter Site.relevant) rows := by
  obtain ⟨verdict, hverdict, h⟩ := bind_eq_ok.mp h
  cases verdict with
  | irrelevant =>
      cases h
      have hnot : Site.relevant ⟨found, kind, parameters, rule⟩ = false := by
        rw [Site.relevant, Site.verdict, hverdict]
      rw [List.filter_cons_of_neg (by rw [hnot]; decide)]
      exact .nil
  | judged passed =>
      obtain ⟨name, hname, h⟩ := bind_eq_ok.mp h
      cases h
      have hrelevant : Site.relevant ⟨found, kind, parameters, rule⟩ = true := by
        rw [Site.relevant, Site.verdict, hverdict]
      rw [List.filter_cons_of_pos hrelevant]
      exact .cons ⟨hverdict, hname, rfl, rfl, rfl, rfl⟩ .nil

theorem eq_record_of_parametersOf {field : Value} {parameters : Fields}
    (h : parametersOf field = .ok parameters) : field = .record parameters := by
  cases field with
  | record fields => cases h; rfl
  | _ => cases h

/-- The rows about one view. -/
theorem judged_viewRows (view : Value) {rows : List FieldRow}
    (h : gather (fun kind => do
      gather (fun field => do
        let parameters ← parametersOf field
        gather (found.fieldRow kind.1 parameters) linter.fieldRules)
        (← fieldsUnder view kind.2)) Linter.fieldKinds = .ok rows) :
    List.Forall₂ Site.Judged ((viewSites linter found view).filter Site.relevant) rows := by
  rw [viewSites, List.filter_flatMap]
  refine forall₂_of_gather h fun kind _ ofKind hkind => ?_
  obtain ⟨fields, hfields, hkind⟩ := bind_eq_ok.mp hkind
  rw [fieldsAt, hfields, List.filter_flatMap]
  refine forall₂_of_gather hkind fun field _ ofField hfield => ?_
  obtain ⟨parameters, hparameters, hfield⟩ := bind_eq_ok.mp hfield
  obtain rfl := eq_record_of_parametersOf hparameters
  rw [fieldSites, List.map_eq_flatMap, List.filter_flatMap]
  exact forall₂_of_gather hfield fun rule _ part hpart =>
    judged_fieldRow found kind.1 parameters rule hpart

/-- **ONE DOCUMENT**: its rows are those of the sites in its first view. -/
theorem judged_fieldRows {rows : List FieldRow} (h : found.fieldRows linter = .ok rows) :
    List.Forall₂ Site.Judged ((firstSites linter found).filter Site.relevant) rows := by
  rw [Found.fieldRows] at h
  by_cases hviews : found.doc.hasViews = true
  · rw [if_pos hviews] at h
    obtain ⟨view, hview, h⟩ := bind_eq_ok.mp h
    obtain ⟨rest, hmembers⟩ := members_of_nth_zero hview
    rw [firstSites, hmembers, List.take_succ_cons, List.take_zero, List.flatMap_singleton]
    exact judged_viewRows linter found view h
  · rw [if_neg hviews] at h
    cases h
    have hnone : members found.doc.views = [] :=
      members_of_not_present (Bool.eq_false_iff.mpr hviews)
    rw [firstSites, hnone]
    exact .nil

/-! ## First and later views -/

theorem sitesOf_eq : sitesOf linter found = firstSites linter found ++ laterSites linter found := by
  rw [sitesOf, firstSites, laterSites, ← List.flatMap_append, List.take_append_drop]

theorem sites_perm (documents : List Found) :
    ((documents.flatMap (sitesOf linter)).filter Site.relevant).Perm
      ((documents.flatMap (firstSites linter)).filter Site.relevant ++
        (documents.flatMap (laterSites linter)).filter Site.relevant) := by
  rw [← List.filter_append]
  refine List.Perm.filter _ ?_
  rw [funext (sitesOf_eq linter)]
  exact (List.flatMap_append_perm documents _ _).symm

/-- Rows for the sites in the first views are rows for those in all views if no rule is about a
field of a later view. -/
theorem covers_iff {documents : List Found} {rows : List FieldRow}
    (h : List.Forall₂ Site.Judged
      ((documents.flatMap (firstSites linter)).filter Site.relevant) rows) :
    Covers (documents.flatMap (sitesOf linter)) rows ↔
      ∀ site ∈ documents.flatMap (laterSites linter), site.relevant = false := by
  have hperm := sites_perm linter documents
  constructor
  · rintro ⟨order, horder, hjudged⟩
    -- One row for each site in a first view leaves none for the others.
    have hlength : order.length = rows.length := hjudged.length_eq
    have hlength' := h.length_eq
    have htotal := (horder.trans hperm).length_eq
    rw [List.length_append] at htotal
    have hempty : (documents.flatMap (laterSites linter)).filter Site.relevant = [] :=
      List.length_eq_zero_iff.mp (by omega)
    intro site hsite
    simpa using List.filter_eq_nil_iff.mp hempty site hsite
  · intro hlater
    have hempty : (documents.flatMap (laterSites linter)).filter Site.relevant = [] :=
      List.filter_eq_nil_iff.mpr fun site hsite => by simp [hlater site hsite]
    rw [hempty, List.append_nil] at hperm
    exact ⟨_, hperm.symm, h⟩

/-- **FIRST VIEWS**: the rows about fields of a lint that has no fault cover the fields in the first
views of the documents that its patterns find.  They cover the fields in all views of these
documents exactly if no rule is about a field in a later view. -/
theorem field_rows_cover_first_views {expand : Glob.Expansion} {time : String}
    {desk desk' : Desk} {rows : Rows}
    (h : (linter.runWith expand time).run desk = .ok rows desk') :
    ∃ (globs : List Value) (documents : List Found),
      (linter.settings.lookup "infile_globs" >>= elements) = .ok globs ∧
      gather (foundBy expand desk.store) globs = .ok documents ∧
      Covers (documents.flatMap (firstSites linter)) rows.fields ∧
      (Covers (documents.flatMap (sitesOf linter)) rows.fields ↔
        ∀ site ∈ documents.flatMap (laterSites linter), site.relevant = false) := by
  obtain ⟨globs, documents, hglobs, hfound, _, hfields⟩ :=
    Linter.rows_of_collect (Linter.collect_of_run h)
  have hjudged : List.Forall₂ Site.Judged
      ((documents.flatMap (firstSites linter)).filter Site.relevant) rows.fields := by
    rw [List.filter_flatMap]
    exact forall₂_of_gather hfields fun found _ part hpart => judged_fieldRows linter found hpart
  exact ⟨globs, documents, hglobs, hfound, ⟨_, List.Perm.refl _, hjudged⟩,
    covers_iff linter hjudged⟩

/-- Where every document has one view, all fields are covered. -/
theorem overlapping_covered :
    ∃ (rows : Rows) (desk' : Desk) (globs : List Value) (documents : List Found),
      (overlapping.run "now").run smallDesk = .ok rows desk' ∧ rows.fields.length = 6 ∧
      (overlapping.settings.lookup "infile_globs" >>= elements) = .ok globs ∧
      gather (foundBy Glob.expand smallDesk.store) globs = .ok documents ∧
      Covers (documents.flatMap (sitesOf overlapping)) rows.fields := by
  have hrows : (match (overlapping.run "now").run smallDesk with
      | .ok rows _ => some rows.fields.length
      | .error _ _ => none) = some 6 := by
    decide +kernel
  have hlater : ((overlapping.settings.lookup "infile_globs" >>= elements >>=
      gather (foundBy Glob.expand smallDesk.store)).toOption.map fun documents =>
        (documents.flatMap (laterSites overlapping)).length) = some 0 := by
    decide +kernel
  cases hrun : (overlapping.run "now").run smallDesk with
  | error fault desk => rw [hrun] at hrows; cases hrows
  | ok rows desk' =>
      rw [hrun] at hrows
      obtain ⟨globs, documents, hglobs, hfound, _, hcovers⟩ :=
        field_rows_cover_first_views overlapping hrun
      rw [hglobs] at hlater
      change (gather (foundBy Glob.expand smallDesk.store) globs).toOption.map _ = _ at hlater
      rw [hfound] at hlater
      have hnone := List.length_eq_zero_iff.mp (Option.some.inj hlater)
      refine ⟨rows, desk', globs, documents, rfl, Option.some.inj hrows, hglobs, hfound, ?_⟩
      refine hcovers.mpr fun site hsite => ?_
      rw [hnone] at hsite
      cases hsite

/-- A lint with one rule about fields. -/
def describing : Linter where
  settings := .record [("rules", .record []), ("output", .record []),
    ("infile_globs", .list [.text "*.lkml"]), ("git", .record [("url", .null)])]
  documentRules := []
  fieldRules := [⟨.description, .null⟩]

/-- A desk with a document of two views. -/
def twoViews : Desk :=
  ⟨⟨[(["v.view.lkml"], "view: v \x7b\n dimension: a \x7b\x7d\n\x7d\n" ++
    "view: w \x7b\n dimension: b \x7b\x7d\n\x7d\n")], []⟩, []⟩

/-- A document of two views with a dimension each: the rule is about both, and only the one of the
first view has a row. -/
theorem later_view_not_covered :
    ∃ (rows : Rows) (desk' : Desk) (documents : List Found),
      (describing.run "now").run twoViews = .ok rows desk' ∧
      gather (foundBy Glob.expand twoViews.store) [.text "*.lkml"] = .ok documents ∧
      (rows.fields.map fun row => row.field.asText.toOption) = [some "a"] ∧
      ¬ Covers (documents.flatMap (sitesOf describing)) rows.fields := by
  have hrows : (match (describing.run "now").run twoViews with
      | .ok rows _ => some (rows.fields.map fun row => row.field.asText.toOption)
      | .error _ _ => none) = some [some "a"] := by
    decide +kernel
  have hsites : ((gather (foundBy Glob.expand twoViews.store) [.text "*.lkml"]).toOption.map
      fun documents => ((documents.flatMap (sitesOf describing)).filter Site.relevant).length) =
        some 2 := by
    decide +kernel
  cases hrun : (describing.run "now").run twoViews with
  | error fault desk => rw [hrun] at hrows; cases hrows
  | ok rows desk' =>
      rw [hrun] at hrows
      have hfields := Option.some.inj hrows
      cases hfound : gather (foundBy Glob.expand twoViews.store) [.text "*.lkml"] with
      | error fault => rw [hfound] at hsites; cases hsites
      | ok documents =>
          rw [hfound] at hsites
          have htwo := Option.some.inj hsites
          refine ⟨rows, desk', documents, rfl, rfl, hfields, ?_⟩
          rintro ⟨order, horder, hjudged⟩
          have hone : rows.fields.length = 1 := by
            simpa using congrArg List.length hfields
          have hlength := horder.length_eq.trans htwo
          have hlength' := hjudged.length_eq
          omega

end LookmlProject.Lint
