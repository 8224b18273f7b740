import LookmlProject.Proofs.Stores
import LookmlProject.Rule.DocumentRules
import Mathlib.Data.List.Basic

/-! # What the name of a file tells

    The name of a file tells its kind by its ending, and its base name by taking off a
    last `.word.lkml`.  The two do not go together: a plain `.lkml` is an ending, but
    has no word in front of it, so it stays in the base name.

    * behind its folder, a path has the name of the file (`baseName_append`);
    * with a word between the dots the base name is what stands in front
      (`baseNameOf_word`), and without one it is the whole name (`baseNameOf_plain`);
    * so the rule that compares the base name with the first view compares with the
      name in front of the ending, but with the whole name if the ending is plain. -/

namespace LookmlProject.Lookml

open Value

/-! ## Names and paths -/

/-- A folder in front of a file name: nothing, or a path that ends with a slash. -/
def IsFolder (folder : String) : Prop := folder = "" ∨ ∃ front, folder = front ++ "/"

theorem baseName_append {folder name : String} (hfolder : IsFolder folder)
    (hname : '/' ∉ name.toList) : Store.baseName (folder ++ name) = name := by
  have hother : ∀ c ∈ name.toList.reverse, (c != '/') = true := by
    intro c hc
    rw [bne_iff_ne]
    rintro rfl
    exact hname (List.mem_reverse.mp hc)
  rw [Store.baseName, String.toList_append, List.reverse_append,
    List.takeWhile_append_of_pos hother]
  rcases hfolder with rfl | ⟨front, rfl⟩
  · simp
  · simp [String.toList_append]

/-- The stem of a file name in front of `.lkml`. -/
theorem take_stem (stem : List Char) :
    (stem ++ ".lkml".toList).take ((stem ++ ".lkml".toList).length - ".lkml".toList.length) =
      stem := by
  rw [List.length_append, Nat.add_sub_cancel, List.take_left]

theorem isSuffixOf_stem (stem : List Char) :
    (".lkml".toList).isSuffixOf (stem ++ ".lkml".toList) = true :=
  List.isSuffixOf_iff_suffix.mpr (List.suffix_append stem _)

/-- A word between the last dots is taken off. -/
theorem baseNameOf_word (front : List Char) {word : List Char} (hne : word ≠ [])
    (hword : ∀ c ∈ word, Text.isWord c = true) :
    baseNameOf (front ++ '.' :: word ++ ".lkml".toList) = front := by
  have hdot : Text.isWord '.' = false := by decide
  have hreverse : ∀ c ∈ word.reverse, Text.isWord c = true :=
    fun c hc => hword c (List.mem_reverse.mp hc)
  obtain ⟨last, rest, hlast⟩ := List.exists_cons_of_ne_nil (mt List.reverse_eq_nil_iff.mp hne)
  have hstem : (front ++ '.' :: word).reverse = word.reverse ++ '.' :: front.reverse := by simp
  rw [baseNameOf]
  simp only [isSuffixOf_stem, if_true, take_stem, hstem]
  rw [List.takeWhile_append_of_pos hreverse, List.dropWhile_append_of_pos hreverse,
    List.takeWhile_cons_of_neg (by simp [hdot]), List.dropWhile_cons_of_neg (by simp [hdot]), hlast]
  simp

/-- Without a dot in front of `.lkml` the name stays whole. -/
theorem baseNameOf_plain {stem : List Char} (hdot : '.' ∉ stem) :
    baseNameOf (stem ++ ".lkml".toList) = stem ++ ".lkml".toList := by
  have hrest : ∀ c ∈ stem.reverse.dropWhile Text.isWord, c ≠ '.' := by
    rintro c hc rfl
    exact hdot (List.mem_reverse.mp ((List.dropWhile_suffix _).subset hc))
  rw [baseNameOf]
  simp only [isSuffixOf_stem, if_true, take_stem]
  split
  · next h => exact absurd rfl (hrest '.' (h ▸ List.mem_cons_self))
  · rfl

/-- The endings that name the kind of a document. -/
def namedEndings : List String := [".model.lkml", ".explore.lkml", ".view.lkml"]

/-- Every ending of a LookML file: one that names a kind, or the plain one. -/
def endings : List String := namedEndings ++ [".lkml"]

/-- An ending that names a kind is taken off. -/
theorem baseNameOf_named {ending : String} (h : ending ∈ namedEndings) (name : List Char) :
    baseNameOf (name ++ ending.toList) = name := by
  obtain ⟨word, hne, hword, heq⟩ : ∃ word : List Char, word ≠ [] ∧
      word.all Text.isWord = true ∧ ending.toList = '.' :: word ++ ".lkml".toList := by
    simp only [namedEndings, List.mem_cons, List.not_mem_nil, or_false] at h
    rcases h with rfl | rfl | rfl
    · exact ⟨"model".toList, by decide, rfl, by decide⟩
    · exact ⟨"explore".toList, by decide, rfl, by decide⟩
    · exact ⟨"view".toList, by decide, rfl, by decide⟩
  rw [heq, ← List.append_assoc]
  exact baseNameOf_word name hne (List.all_eq_true.mp hword)

/-- The base name of a file name with one of the endings. -/
theorem baseNameOf_ending {name ending : String} (hdot : '.' ∉ name.toList)
    (h : ending ∈ endings) :
    baseNameOf (name ++ ending).toList =
      (if ending = ".lkml" then name ++ ".lkml" else name).toList := by
  rw [String.toList_append]
  split
  · next hplain =>
      rw [hplain, String.toList_append]
      exact baseNameOf_plain hdot
  · next hother =>
      rcases List.mem_append.mp h with hnamed | hplain
      · exact baseNameOf_named hnamed name.toList
      · exact absurd (List.mem_singleton.mp hplain) hother

/-! ## Documents -/

/-- The kind of a document is told by each name that ends in `.lkml`, and by no other. -/
theorem ofFileName?_isSome_iff (name : List Char) :
    (DocumentKind.ofFileName? name).isSome = true ↔ ".lkml".toList <:+ name := by
  have hends : ∀ front : List Char, front ++ ".lkml".toList <:+ name → ".lkml".toList <:+ name :=
    fun front h => (List.suffix_append front _).trans h
  rw [DocumentKind.ofFileName?]
  split
  · next hmodel =>
      exact iff_of_true rfl (hends ".model".toList (List.isSuffixOf_iff_suffix.mp hmodel))
  split
  · next hexplore =>
      exact iff_of_true rfl (hends ".explore".toList (List.isSuffixOf_iff_suffix.mp hexplore))
  split
  · next hends =>
      refine iff_of_true ?_ (List.isSuffixOf_iff_suffix.mp hends)
      split <;> rfl
  · next hends => exact iff_of_false Bool.false_ne_true (mt List.isSuffixOf_iff_suffix.mpr hends)

/-- A file with a name that tells a kind and a text that has entries is read as a document. -/
theorem load_eq {store : Store} {path text : String} (htext : store.read path = .ok text)
    {kind : DocumentKind}
    (hkind : DocumentKind.ofFileName? (Store.baseName path).toList = some kind) {body : Fields}
    (h : Lookml.load (Text.unifyNewlines text.toList) = .ok body) :
    Document.load store path = .ok ⟨path, Store.baseName path,
      String.ofList (baseNameOf (Store.baseName path).toList), kind, body⟩ := by
  rw [Document.load, if_pos (Store.contains_of_read htext)]
  dsimp only
  rw [hkind, htext]
  dsimp only
  rw [h]

/-- A document has views, and the first of them has a name. -/
def FirstView (doc : Document) (name : String) : Prop :=
  doc.hasViews = true ∧ (doc.views.nth 0 >>= fun view => view.lookup "name") = .ok (.text name)

instance (result : Except Fault Value) (s : String) : Decidable (result = .ok (.text s)) :=
  match result with
  | .ok (.text t) => decidable_of_iff (t = s) (by simp)
  | .ok .null | .ok (.bool _) | .ok (.int _) | .ok (.float _) | .ok (.list _) | .ok (.record _)
  | .error _ => .isFalse nofun

instance (doc : Document) (name : String) : Decidable (FirstView doc name) :=
  inferInstanceAs (Decidable (_ ∧ _))

/-- The rule about file names says whether the first view is named like the base name. -/
theorem filenameViewnameMatch_eq {doc : Document} {name : String} (h : FirstView doc name) :
    Rule.filenameViewnameMatch doc = .ok (.judged (name == doc.baseName)) := by
  obtain ⟨hviews, hname⟩ := h
  rw [Rule.filenameViewnameMatch, if_pos hviews]
  cases hview : doc.views.nth 0 with
  | error fault =>
      rw [hview] at hname
      cases hname
  | ok view =>
      rw [hview] at hname
      show (view.lookup "name" >>= _) = _
      rw [show view.lookup "name" = _ from hname]
      rfl

theorem endings_flat : ∀ ending ∈ endings,
    '/' ∉ ending.toList ∧ ".lkml".toList <:+ ending.toList := by
  decide

/-- A file whose name has one of the endings is read as a document of its base name. -/
theorem exists_load {store : Store} {folder name ending text : String} {body : Fields}
    (hfolder : IsFolder folder) (hdot : '.' ∉ name.toList) (hslash : '/' ∉ name.toList)
    (hending : ending ∈ endings) (htext : store.read (folder ++ (name ++ ending)) = .ok text)
    (hbody : Lookml.load (Text.unifyNewlines text.toList) = .ok body) :
    ∃ doc, Document.load store (folder ++ (name ++ ending)) = .ok doc ∧ doc.body = body ∧
      doc.baseName = if ending = ".lkml" then name ++ ".lkml" else name := by
  obtain ⟨hflat, hends⟩ := endings_flat ending hending
  have hfile : Store.baseName (folder ++ (name ++ ending)) = name ++ ending := by
    refine baseName_append hfolder ?_
    rw [String.toList_append, List.mem_append]
    exact not_or.mpr ⟨hslash, hflat⟩
  have hlkml : ".lkml".toList <:+ (name ++ ending).toList := by
    rw [String.toList_append]
    exact hends.trans (List.suffix_append _ _)
  obtain ⟨kind, hkind⟩ := Option.isSome_iff_exists.mp ((ofFileName?_isSome_iff _).mpr hlkml)
  refine ⟨_, load_eq htext (hfile ▸ hkind) hbody, rfl, ?_⟩
  dsimp only
  rw [hfile, baseNameOf_ending hdot hending, String.ofList_toList]

theorem append_ending_ne (name : String) : name ++ ".lkml" ≠ name := by
  intro heq
  simpa [String.toList_append] using congrArg (fun s : String => s.toList.length) heq

/-- **A PLAIN ENDING STAYS**: a file whose name is `name` without dots and slashes with one of the
four endings behind it, in any folder, is read as a document, if it can be read and its text has
entries.  The base name of the document is `name` exactly if the ending is not the plain one, with
which it is the whole file name.  So the rule about file names is met exactly by a first view of
that name; but with the plain ending it is met by a first view that has the ending in its own name,
and never by one that is named like the file. -/
theorem base_name_unless_plain {store : Store} {folder name ending text : String} {body : Fields}
    (hfolder : IsFolder folder) (hdot : '.' ∉ name.toList) (hslash : '/' ∉ name.toList)
    (hending : ending ∈ endings) (htext : store.read (folder ++ (name ++ ending)) = .ok text)
    (hbody : Lookml.load (Text.unifyNewlines text.toList) = .ok body) :
    ∃ doc, Document.load store (folder ++ (name ++ ending)) = .ok doc ∧ doc.body = body ∧
      (doc.baseName = name ↔ ending ≠ ".lkml") ∧
      (ending = ".lkml" → doc.baseName = name ++ ".lkml") ∧
      ∀ settings view, FirstView doc view →
        ∃ passed, Rule.onDocument ⟨.filenameViewnameMatch, settings⟩ doc = .ok (.judged passed) ∧
          (ending ≠ ".lkml" → (passed = true ↔ view = name)) ∧
          (ending = ".lkml" → (passed = true ↔ view = name ++ ".lkml")) := by
  obtain ⟨doc, hdoc, hsame, hbase⟩ := exists_load hfolder hdot hslash hending htext hbody
  refine ⟨doc, hdoc, hsame, ?_, fun hplain => by rw [hbase, if_pos hplain],
    fun settings view hview => ⟨_, filenameViewnameMatch_eq hview, fun hother => ?_, fun hplain => ?_⟩⟩
  · rw [hbase]
    split
    · next hplain => exact iff_of_false (append_ending_ne name) (not_not.mpr hplain)
    · next hother => exact iff_of_true rfl hother
  · rw [beq_iff_eq, hbase, if_neg hother]
  · rw [beq_iff_eq, hbase, if_pos hplain]

/-- A store with one view in a folder. -/
def orders : Store :=
  ⟨[(["shop", "orders.view.lkml"], "view: orders \x7b\n\x7d\n")], [["shop"]]⟩

/-- A view in a file that is named after it. -/
theorem orders_named :
    ∃ doc, Document.load orders "shop/orders.view.lkml" = .ok doc ∧ doc.baseName = "orders" ∧
      Rule.onDocument ⟨.filenameViewnameMatch, .null⟩ doc = .ok (.judged true) := by
  have hsummary : ((Lookml.load (Text.unifyNewlines
      "view: orders \x7b\n\x7d\n".toList)).toOption.map fun body =>
        decide (FirstView ⟨"", "", "", .view, body⟩ "orders")) = some true := by
    decide +kernel
  cases hbody : Lookml.load (Text.unifyNewlines "view: orders \x7b\n\x7d\n".toList) with
  | error fault => rw [hbody] at hsummary; cases hsummary
  | ok body =>
      rw [hbody] at hsummary
      have hfirst := of_decide_eq_true (Option.some.inj hsummary)
      obtain ⟨doc, hdoc, rfl, hbase, _, hrule⟩ :=
        @base_name_unless_plain orders "shop/" "orders" ".view.lkml" _ body
          (.inr ⟨"shop", rfl⟩) (by decide) (by decide) (by decide) rfl hbody
      obtain ⟨passed, hpassed, hnamed, _⟩ := hrule .null "orders" hfirst
      rw [(hnamed (by decide)).mpr rfl] at hpassed
      exact ⟨doc, hdoc, hbase.mpr (by decide), hpassed⟩

/-- A store with one view, of a given name, in a file with the plain ending. -/
def plainly (view : String) : Store :=
  ⟨[(["v.lkml"], "view: " ++ view ++ " \x7b\n\x7d\n")], []⟩

theorem exists_plainly {view : String}
    (h : ((Document.load (plainly view) "v.lkml").toOption.map fun doc =>
      decide (FirstView doc view ∧ doc.baseName = "v.lkml")) = some true) :
    ∃ doc, Document.load (plainly view) "v.lkml" = .ok doc ∧ FirstView doc view ∧
      doc.baseName = "v.lkml" ∧
      Rule.onDocument ⟨.filenameViewnameMatch, .null⟩ doc = .ok (.judged (view == "v.lkml")) := by
  cases hload : Document.load (plainly view) "v.lkml" with
  | error fault => rw [hload] at h; cases h
  | ok doc =>
      rw [hload] at h
      obtain ⟨hfirst, hbase⟩ := of_decide_eq_true (Option.some.inj h)
      exact ⟨doc, rfl, hfirst, hbase, hbase ▸ filenameViewnameMatch_eq hfirst⟩

/-- The view `v` in the file `v.lkml` breaks the rule, and a view that is named otherwise meets
it. -/
theorem plain_file_misjudged :
    (∃ doc, Document.load (plainly "v") "v.lkml" = .ok doc ∧ FirstView doc "v" ∧
      doc.baseName = "v.lkml" ∧
      Rule.onDocument ⟨.filenameViewnameMatch, .null⟩ doc = .ok (.judged false)) ∧
    ∃ doc, Document.load (plainly "v.lkml") "v.lkml" = .ok doc ∧ FirstView doc "v.lkml" ∧
      doc.baseName = "v.lkml" ∧
      Rule.onDocument ⟨.filenameViewnameMatch, .null⟩ doc = .ok (.judged true) :=
  ⟨exists_plainly (by decide +kernel), exists_plainly (by decide +kernel)⟩

end LookmlProject.Lookml
