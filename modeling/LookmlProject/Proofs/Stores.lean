import LookmlProject.Store.Basic

/-!
# Files that are written and read

What is written to a file is read from it: the way to the file goes through folders only, and those
do not change when a file is written (`walk_withFile`, `read_write`).  All other files stay as they
are (`textAt?_withFile_of_ne`, `exists_wrote`).
-/

namespace LookmlProject.Store

/-- The place of a file, whether it is there or not. -/
def Place.file? : Place → Option Route
  | .file route _ | .free route => some route
  | _ => none

/-- A store with a file. -/
def withFile (store : Store) (route : Route) (text : String) : Store :=
  { store with files := setText store.files route text }

theorem textAt?_withFile (store : Store) (route : Route) (text : String) :
    (store.withFile route text).textAt? route = some text := by
  rw [textAt?, withFile]
  induction store.files with
  | nil => simp [setText]
  | cons file files ih =>
      obtain ⟨r, t⟩ := file
      by_cases hr : r = route
      · simp [setText, hr]
      · simpa [setText, hr] using ih

/-- Another file stays as it is. -/
theorem textAt?_withFile_of_ne (store : Store) {route other : Route} (h : other ≠ route)
    (text : String) : (store.withFile route text).textAt? other = store.textAt? other := by
  rw [textAt?, textAt?, withFile]
  induction store.files with
  | nil => simp [setText, h.symm]
  | cons file files ih =>
      obtain ⟨r, t⟩ := file
      by_cases hr : r = route
      · simp [setText, hr, h.symm]
      · by_cases hother : r = other
        · simp [setText, hother, h]
        · simpa [setText, hr, hother] using ih

theorem file?_walkOutside (parts : List String) : (walkOutside parts).file? = none := by
  fun_induction walkOutside parts with
  | case2 part rest _ ih => exact ih
  | _ => rfl

/-- The way to a file does not change when it is written. -/
theorem walk_withFile {store : Store} {route here : Route} {parts : List String}
    (h : (store.walk here parts).file? = some route) (text : String) :
    (store.withFile route text).walk here parts = .file route text := by
  induction parts generalizing here with
  | nil => cases h
  | cons part rest ih =>
      unfold walk at h ⊢
      dsimp only at h ⊢
      split at h
      · next hstays => rw [if_pos hstays]; exact ih h
      next hstays =>
      rw [if_neg hstays]
      split at h
      · next hup =>
          rw [if_pos hup]
          cases here with
          | nil => rw [file?_walkOutside] at h; cases h
          | cons => exact ih h
      next hup =>
      rw [if_neg hup]
      split at h
      · cases h
      next hlong =>
      rw [if_neg hlong, show (store.withFile route text).isFolder (here ++ [part]) =
        store.isFolder (here ++ [part]) from rfl]
      split at h
      · next hfolder => rw [if_pos hfolder]; exact ih h
      next hfolder =>
      rw [if_neg hfolder]
      -- The last part of the path names the file.
      have hend : rest.isEmpty = true ∧ here ++ [part] = route := by
        split at h
        · split at h
          · next hrest => exact ⟨hrest, Option.some.inj h⟩
          · cases h
        · split at h
          · next hrest => exact ⟨hrest, Option.some.inj h⟩
          · cases h
      rw [hend.2, textAt?_withFile]
      exact if_pos hend.1

theorem find_withFile {store : Store} {path : String} {route : Route}
    (h : (store.find path).file? = some route) (text : String) :
    (store.withFile route text).find path = .file route text := by
  rw [find, follow] at h ⊢
  split at h
  · cases h
  next hzero =>
  rw [if_neg hzero]
  split at h
  · cases h
  next hlong =>
  rw [if_neg hlong]
  split at h
  · cases h
  · rw [file?_walkOutside] at h; cases h
  · exact walk_withFile h text

/-- The folder that a path is in is no file. -/
theorem file?_parent (store : Store) (path : String) : (store.parent path).file? = none := by
  rw [parent]
  cases store.follow path (trimmedParts path).dropLast <;> rfl

/-- The name of a file has no slash behind it. -/
theorem target_eq_find {store : Store} {path : String} {route : Route}
    (h : (store.target path).file? = some route) (other : Store) :
    other.target path = other.find path := by
  rw [target] at h ⊢
  split at h
  · have hparent := file?_parent store path
    split at h
    · cases h
    · rw [hparent] at h
      cases h
  · next hname => exact if_neg hname

/-- What is written to a file is read from it. -/
theorem read_write {store : Store} {path : String} {route : Route}
    (h : (store.target path).file? = some route) (text : String) :
    store.write path text = .ok (store.withFile route text) ∧
      (store.withFile route text).read path = .ok text := by
  have hfind := target_eq_find h store
  constructor
  · rw [write]
    cases hplace : store.target path with
    | file r t => rw [hplace] at h; cases h; rfl
    | free r => rw [hplace] at h; cases h; rfl
    | _ => rw [hplace] at h; cases h
  · rw [hfind] at h
    rw [read, find_withFile h]

/-- Whether a text can be written to a place: a file, a free place in a folder, or one outside the
store whose folder is known. -/
def Place.isWritable : Place → Bool
  | .file _ _ | .free _ | .unknown true => true
  | _ => false

/-- The store after a text was written to a path: the file there has the text, and all other files
and the folders are as before.  Outside the store nothing is seen of it. -/
structure Wrote (before : Store) (path text : String) (after : Store) : Prop where
  folders : after.folders = before.folders
  inside : ∀ route, (before.target path).file? = some route → after.read path = .ok text ∧
    ∀ other ≠ route, after.textAt? other = before.textAt? other
  outside : (before.target path).file? = none → after = before

theorem exists_wrote {store : Store} {path : String}
    (h : (store.target path).isWritable = true) (text : String) :
    ∃ after, store.write path text = .ok after ∧ Wrote store path text after := by
  cases hfile : (store.target path).file? with
  | some route =>
      obtain ⟨hwrite, hread⟩ := read_write hfile text
      refine ⟨_, hwrite, ⟨rfl, fun route' hroute' => ?_, fun hnone => ?_⟩⟩
      · obtain rfl := Option.some.inj (hfile.symm.trans hroute')
        exact ⟨hread, fun other hother => textAt?_withFile_of_ne store hother text⟩
      · exact nomatch hfile.symm.trans hnone
  | none =>
      have hwrite : store.write path text = .ok store := by
        rw [write]
        cases hplace : store.target path with
        | unknown direct =>
            rw [hplace] at h
            cases direct with
            | true => rfl
            | false => exact nomatch h
        | file route text => rw [hplace] at hfile; exact nomatch hfile
        | free route => rw [hplace] at hfile; exact nomatch hfile
        | _ => rw [hplace] at h; exact nomatch h
      refine ⟨store, hwrite, ⟨rfl, fun route hroute => ?_, fun _ => rfl⟩⟩
      exact nomatch hfile.symm.trans hroute

/-- Only what is writable is written. -/
theorem isWritable_of_write {store after : Store} {path text : String}
    (h : store.write path text = .ok after) : (store.target path).isWritable = true := by
  rw [write] at h
  split at h
  · next hplace => rw [hplace]; rfl
  · next hplace => rw [hplace]; rfl
  · next hplace => rw [hplace]; rfl
  · cases h

/-- A text that is written over another takes its place. -/
theorem wrote_over {store opened : Store} {path text : String}
    (h : store.write path text = .ok opened) (other : String) :
    ∃ after, opened.write path other = .ok after ∧ Wrote store path other after := by
  cases hfile : (store.target path).file? with
  | some route =>
      obtain ⟨hwrite, _⟩ := read_write hfile text
      cases hwrite.symm.trans h
      have hagain : ((store.withFile route text).target path).file? = some route := by
        rw [target_eq_find hfile, find_withFile (target_eq_find hfile store ▸ hfile)]
        rfl
      obtain ⟨hwrite', hread'⟩ := read_write hagain other
      refine ⟨_, hwrite', ⟨rfl, fun route' hroute' => ⟨hread', fun place hplace => ?_⟩,
        fun hnone => nomatch hfile.symm.trans hnone⟩⟩
      obtain rfl := Option.some.inj (hfile.symm.trans hroute')
      rw [textAt?_withFile_of_ne _ hplace, textAt?_withFile_of_ne _ hplace]
  | none =>
      -- Outside the store no trace is left, so it is the same store that is written to again.
      obtain ⟨same, hwrite, hwrote⟩ := exists_wrote (isWritable_of_write h) text
      cases hwrite.symm.trans h
      rw [hwrote.outside hfile]
      exact exists_wrote (isWritable_of_write h) other

/-- Where one text is written, any other is. -/
theorem write_of_write {store after : Store} {path text : String}
    (h : store.write path text = .ok after) (other : String) :
    ∃ after', store.write path other = .ok after' := by
  obtain ⟨after', hwrite, _⟩ := exists_wrote (isWritable_of_write h) other
  exact ⟨after', hwrite⟩

theorem contains_of_read {store : Store} {path text : String} (h : store.read path = .ok text) :
    store.contains path = true := by
  rw [read] at h
  rw [contains]
  split at h
  · next hfind => rw [hfind]
  · cases h

end LookmlProject.Store
