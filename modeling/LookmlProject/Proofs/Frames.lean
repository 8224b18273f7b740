import LookmlProject.Animation
import LookmlProject.Proofs.Entries
import LookmlProject.Proofs.Stores

/-! # The frames of an animation

    The file of a commit is noted before its picture is drawn, a drawing that fails
    goes no further than a notice, and in the end the files that are there become the
    frames.  So a file that was there before is a frame of a commit whose drawing
    failed.

    * `Developed`: what writing some files changes in a store;
    * `Filmed.shoot`: one commit adds its file, and its picture if it is drawn;
    * `filmed_filmWith`: so the whole history does;
    * the frames are then the pictures that were drawn or left over. -/

namespace LookmlProject

namespace Store

/-! ## Files that are written -/

/-- Whether there is something at a place. -/
def Place.isThere : Place → Bool
  | .folder _ | .file _ _ | .outside => true
  | _ => false

/-- A path is contained in a store exactly if there is something at its place. -/
theorem contains_eq_isThere (store : Store) (path : String) :
    store.contains path = (store.find path).isThere := by
  rw [contains]
  cases store.find path <;> rfl

/-- What a place becomes when a file is written: it stays where it is and can be written to as
before, and there is something new only at the place of the file. -/
structure Place.Grown (before after : Place) (route : Route) : Prop where
  file : after.file? = before.file?
  writable : after.isWritable = before.isWritable
  there : after.isThere = true ↔ before.isThere = true ∨ before.file? = some route

/-- A place that is no file's does not change. -/
theorem Place.Grown.of_none {place : Place} (h : place.file? = none) (route : Route) :
    place.Grown place route :=
  ⟨rfl, rfl, by simp [h]⟩

/-- A walk ends at the same place after a file was written, with something there if it is the
file's. -/
theorem grown_walk (store : Store) (route : Route) (text : String) (parts : List String) :
    ∀ here, (store.walk here parts).Grown ((store.withFile route text).walk here parts) route := by
  induction parts with
  | nil => exact fun here => .of_none rfl route
  | cons part rest ih =>
      intro here
      unfold walk
      dsimp only
      split
      · exact ih here
      split
      · cases here with
        | nil => exact .of_none (file?_walkOutside rest) route
        | cons first others => exact ih _
      split
      · exact .of_none rfl route
      rw [show (store.withFile route text).isFolder (here ++ [part]) =
        store.isFolder (here ++ [part]) from rfl]
      split
      · exact ih _
      -- The part names a file or nothing.
      by_cases hroute : here ++ [part] = route
      · rw [hroute, textAt?_withFile]
        cases store.textAt? route <;> cases rest.isEmpty <;>
          exact ⟨rfl, rfl, by simp [Place.isThere, Place.file?]⟩
      · rw [textAt?_withFile_of_ne store hroute]
        cases store.textAt? (here ++ [part]) <;> cases rest.isEmpty <;>
          exact ⟨rfl, rfl, by simp [Place.isThere, Place.file?, hroute]⟩

/-- The same for the place that a path leads to. -/
theorem grown_find (store : Store) (route : Route) (text path : String) :
    (store.find path).Grown ((store.withFile route text).find path) route := by
  rw [find, find, follow, follow]
  split
  · exact .of_none rfl route
  split
  · exact .of_none rfl route
  split
  · exact .of_none rfl route
  · exact .of_none (file?_walkOutside _) route
  · exact grown_walk store route text _ []

/-- A store in which files were written at some routes. -/
structure Developed (before after : Store) (routes : List Route) : Prop where
  file : ∀ path, (after.find path).file? = (before.find path).file?
  writable : ∀ path, (after.find path).isWritable = (before.find path).isWritable
  contains : ∀ path, after.contains path = true ↔
    before.contains path = true ∨ ∃ route ∈ routes, (before.find path).file? = some route

theorem Developed.refl (store : Store) : Developed store store [] :=
  ⟨fun _ => rfl, fun _ => rfl, by simp⟩

/-- One more file is written. -/
theorem Developed.withFile {before after : Store} {routes : List Route}
    (h : Developed before after routes) (route : Route) (text : String) :
    Developed before (after.withFile route text) (routes ++ [route]) := by
  refine ⟨fun path => ?_, fun path => ?_, fun path => ?_⟩
  · rw [(grown_find after route text path).file, h.file]
  · rw [(grown_find after route text path).writable, h.writable]
  · rw [contains_eq_isThere, (grown_find after route text path).there, ← contains_eq_isThere,
      h.contains, h.file, or_assoc]
    simp only [List.mem_append, List.mem_singleton, or_and_right, exists_or, exists_eq_left]

/-! ## Files in a folder -/

theorem splitChar_ne_nil (mark : Char) (cs : List Char) : Text.splitChar mark cs ≠ [] := by
  cases cs with
  | nil => exact List.cons_ne_nil _ _
  | cons c rest =>
      rw [Text.splitChar]
      split
      · exact List.cons_ne_nil _ _
      · split <;> exact List.cons_ne_nil _ _

/-- A text without the mark is one part. -/
theorem splitChar_of_notMem {mark : Char} {name : List Char} (h : mark ∉ name) :
    Text.splitChar mark name = [name] := by
  induction name with
  | nil => rfl
  | cons c rest ih =>
      rw [List.mem_cons, not_or] at h
      rw [Text.splitChar, if_neg (Ne.symm h.1), ih h.2]

/-- What stands behind the last mark is the last part. -/
theorem splitChar_append {mark : Char} {name : List Char} (h : mark ∉ name) (cs : List Char) :
    Text.splitChar mark (cs ++ mark :: name) = Text.splitChar mark cs ++ [name] := by
  induction cs with
  | nil =>
      show (if mark = mark then [] :: Text.splitChar mark name else _) = _
      rw [if_pos rfl, splitChar_of_notMem h]
      rfl
  | cons c rest ih =>
      rw [List.cons_append, Text.splitChar, Text.splitChar, ih]
      split
      · rfl
      · cases hrest : Text.splitChar mark rest with
        | nil => exact absurd hrest (splitChar_ne_nil mark rest)
        | cons part parts => rfl

/-- Outside the store there is no folder of it. -/
theorem walkOutside_ne_folder (route : Route) (parts : List String) :
    walkOutside parts ≠ .folder route := by
  fun_induction walkOutside parts with
  | case2 part rest _ ih => exact ih
  | _ =>
      intro h
      cases h

/-- The way to a folder can be gone on from. -/
theorem walk_append {store : Store} {route : Route} {parts : List String} (rest : List String) :
    ∀ {here : Route}, store.walk here parts = .folder route →
      store.walk here (parts ++ rest) = store.walk route rest := by
  -- By induction on the way to the folder.  Each test on the way has the outcome it had before, as
  -- what is added stands behind.
  induction parts with
  | nil =>
      intro here h
      cases h
      rfl
  | cons part parts ih =>
      intro here h
      unfold walk at h
      rw [List.cons_append]
      conv_lhs => unfold walk
      dsimp only at h ⊢
      split at h
      · next hstays => rw [if_pos hstays, ih h]
      next hstays =>
      rw [if_neg hstays]
      split at h
      · next hup =>
          rw [if_pos hup]
          cases here with
          | nil => exact absurd h (walkOutside_ne_folder route parts)
          | cons first others => exact ih h
      next hup =>
      rw [if_neg hup]
      split at h
      · cases h
      next hlong =>
      rw [if_neg hlong]
      split at h
      · next hfolder => rw [if_pos hfolder, ih h]
      · split at h <;> split at h <;> cases h

/-- The path of a file in a folder. -/
def inFolder (directory name : String) : String := directory ++ "/" ++ name

/-- A path that leads to a folder of the store. -/
theorem walk_of_find {store : Store} {directory : String} {route : Route}
    (h : store.find directory = .folder route) :
    directory.toList ≠ [] ∧ (∀ rest, directory.toList ≠ '/' :: rest) ∧
      store.walk [] (parts directory) = .folder route := by
  rw [find, follow] at h
  split at h
  · cases h
  split at h
  · cases h
  split at h
  · cases h
  · exact absurd h (walkOutside_ne_folder route _)
  · next hempty hslash => exact ⟨hempty, hslash, h⟩

/-- A text for the place is written to the file at a route, or it cannot be written. -/
def Place.OnlyAt (place : Place) (route : Route) : Prop :=
  place.file? = some route ∨ place.file? = none ∧ place.isWritable = false

/-- From a folder, a name leads to its file, or to something that cannot be written. -/
theorem walk_name (store : Store) (here : Route) {name : String} (hname : isName name = true) :
    (store.walk here [name]).OnlyAt (here ++ [name]) := by
  rw [isName, Bool.and_eq_true, Bool.not_eq_true', bne_iff_ne] at hname
  unfold walk
  dsimp only
  rw [if_neg (by simp [hname.1]), if_neg (by simpa using hname.2)]
  split
  · exact Or.inr ⟨rfl, rfl⟩
  split
  · exact Or.inr ⟨rfl, rfl⟩
  · cases store.textAt? (here ++ [name]) <;> exact Or.inl rfl

/-- What is written to a name in a folder of the store is written there. -/
theorem find_inFolder {store : Store} {directory name : String} {route : Route}
    (h : store.find directory = .folder route) (hname : isName name = true)
    (hslash : '/' ∉ name.toList) :
    (store.find (inFolder directory name)).OnlyAt (route ++ [name]) := by
  obtain ⟨hempty, habsolute, hwalk⟩ := walk_of_find h
  have hpath : (inFolder directory name).toList = directory.toList ++ '/' :: name.toList := by
    rw [inFolder, String.toList_append, String.toList_append, List.append_assoc]
    rfl
  have hparts : parts (inFolder directory name) = parts directory ++ [name] := by
    rw [parts, hpath, splitChar_append hslash, List.map_append, List.map_singleton,
      String.ofList_toList, parts]
  obtain ⟨c, rest, hdirectory⟩ := List.exists_cons_of_ne_nil hempty
  have hc : c ≠ '/' := fun hc => habsolute rest (hc ▸ hdirectory)
  rw [find, follow, hparts]
  split
  · exact Or.inr ⟨rfl, rfl⟩
  split
  · exact Or.inr ⟨rfl, rfl⟩
  rw [hpath, hdirectory, List.cons_append]
  split
  · next hnil => cases hnil
  · next hcons => exact absurd (List.cons.inj hcons).1 hc
  · rw [walk_append _ hwalk]
    exact walk_name store route hname

/-- A text is written to a file that can be there. -/
theorem write_eq {store : Store} {path : String} {route : Route}
    (hlast : path.toList.getLast? ≠ some '/') (h : (store.find path).OnlyAt route) (text : String) :
    (store.write path text).toOption =
      if (store.find path).file?.isSome then some (store.withFile route text) else none := by
  have htarget : store.target path = store.find path := by
    rw [target, if_neg]
    simp [hlast]
  rcases h with hfile | ⟨hfile, hwritable⟩
  · rw [(read_write (htarget ▸ hfile) text).1, hfile]
    rfl
  · rw [hfile, write, htarget]
    cases hplace : store.find path with
    | unknown direct =>
        rw [hplace] at hwritable
        cases direct with
        | true => cases hwritable
        | false => rfl
    | file r t => rw [hplace] at hfile; cases hfile
    | free r => rw [hplace] at hfile; cases hfile
    | _ => rfl

end Store

namespace Animation

open Store

/-! ## One commit -/

/-- The name of the picture at a position. -/
def pictureName (position : Nat) : String := "img" ++ toString position ++ ".png"

/-- The file for the picture at a position. -/
def picturePath (directory : String) (position : Nat) : String :=
  inFolder directory (pictureName position)

/-- The file of a commit is a picture in the folder. -/
theorem fileName_text (directory : String) (position : Nat) :
    fileName (.text directory) position = .ok (picturePath directory position) := by
  rw [picturePath, inFolder, pictureName]
  show Except.ok (directory ++ "/img" ++ toString position ++ ".png") = _
  rw [show "/img" = "/" ++ "img" from rfl]
  simp only [String.append_assoc]

theorem toList_pictureName (position : Nat) :
    (pictureName position).toList =
      'i' :: ("mg".toList ++ Nat.toDigits 10 position ++ ".png".toList) := by
  simp [pictureName]

/-- Positions have pictures of their own. -/
theorem pictureName_injective : Function.Injective pictureName := by
  intro i j h
  have hdigits : Nat.toDigits 10 i = Nat.toDigits 10 j := by
    have htext := congrArg String.toList h
    rw [toList_pictureName, toList_pictureName] at htext
    exact List.append_cancel_left (List.append_cancel_right (List.cons.inj htext).2)
  have hvalue := congrArg (Nat.ofDigitChars 10 · 0) hdigits
  simpa only [Nat.ofDigitChars_ten_toDigits] using hvalue

/-- A picture has a proper name: it starts with a letter. -/
theorem isName_pictureName (position : Nat) : isName (pictureName position) = true := by
  have hne : ∀ other : String, other.toList.head? ≠ some 'i' → pictureName position ≠ other := by
    rintro other h rfl
    rw [toList_pictureName] at h
    exact h rfl
  have hempty := hne "" (by decide)
  have hdot := hne "." (by decide)
  have hdots := hne ".." (by decide)
  simp [isName, staysHere, hempty, hdot, hdots]

/-- The name of a picture does not lead into another folder. -/
theorem slash_notMem_pictureName (position : Nat) : '/' ∉ (pictureName position).toList := by
  rw [toList_pictureName]
  have hdigits : '/' ∉ Nat.toDigits 10 position := fun h =>
    absurd (Nat.isDigit_of_mem_toDigits (by decide) (by decide) h) (by decide)
  simp [hdigits]

/-- The path of a picture is that of a file. -/
theorem getLast?_picturePath (directory : String) (position : Nat) :
    (picturePath directory position).toList.getLast? ≠ some '/' := by
  rw [picturePath, inFolder, pictureName, ← String.append_assoc, String.toList_append,
    List.getLast?_append]
  simp

/-- Settings that a drawing can be given a file and a title in. -/
def Posed (settings : Value) : Prop :=
  ∃ fields options, settings = .record fields ∧
    Value.Fields.get? fields "options" = some (.record options)

/-- A commit with a text as its id and a moment that can be shown. -/
def Commit.Told (commit : Commit) : Prop :=
  ∃ id title, commit.id = .text id ∧ (commit.date.toWhole >>= Calendar.write) = .ok title

/-- The picture at a position is drawn: there is one, and its file can be written. -/
def Draws (pictures : Nat → Option String) (store : Store) (directory : String)
    (position : Nat) : Bool :=
  (pictures position).isSome && (store.find (picturePath directory position)).file?.isSome

/-- The positions, from the first on, at which a picture is drawn. -/
def drawnAmong (pictures : Nat → Option String) (store : Store) (directory : String)
    (count : Nat) : List Nat :=
  (List.range count).filter (Draws pictures store directory)

/-- What has been done after some commits, from a store on. -/
structure Filmed (pictures : Nat → Option String) (store : Store) (directory : String)
    (route : Route) (past : List Commit) (footage : Footage) : Prop where
  fault : footage.fault = none
  posed : Posed footage.settings
  checkouts : footage.checkouts.map Value.text = past.map Commit.id
  files : footage.files = (List.range past.length).map (picturePath directory)
  drawn : footage.drawn =
    (drawnAmong pictures store directory past.length).map (picturePath directory)
  store : Developed store footage.store
    ((drawnAmong pictures store directory past.length).map fun position =>
      route ++ [pictureName position])

/-- The file of a commit is noted. -/
structure Noted (directory : String) (position : Nat) (commit : Commit) (before after : Footage) :
    Prop where
  fault : after.fault = before.fault
  posed : Posed after.settings
  checkouts : after.checkouts.map Value.text = before.checkouts.map Value.text ++ [commit.id]
  files : after.files = before.files ++ [picturePath directory position]
  drawn : after.drawn = before.drawn
  store : after.store = before.store

/-- The work on a commit that is told: its file is noted, then its picture is drawn. -/
theorem shoot_told {footage : Footage} {commit : Commit} (hposed : Posed footage.settings)
    (htold : commit.Told) (directory : String) (picture? : Option String) (position : Nat) :
    ∃ noted notice, Noted directory position commit footage noted ∧
      shoot (.text directory) picture? footage position commit =
        noted.draw (picturePath directory position) notice picture? := by
  obtain ⟨id, title, hid, hdate⟩ := htold
  obtain ⟨fields, options, hsettings, hoptions⟩ := hposed
  obtain ⟨seconds, hseconds, htitle⟩ := bind_eq_ok.mp hdate
  let withFile := Value.Fields.set fields "output" (.text (picturePath directory position))
  let titled := Value.Fields.set options "title" (.text title)
  have hout : Value.Fields.get? withFile "options" = some (.record options) := by
    rw [Lookml.get?_set, if_neg (by decide), hoptions]
  have hput : putTitle (.record withFile) title =
      .ok (.record (Value.Fields.set withFile "options" (.record titled))) := by
    rw [putTitle, Value.lookup, hout]
    rfl
  -- The options stay a record when the title is put in, so the settings can be used for the next
  -- commit.
  refine ⟨{ footage with
      settings := .record (Value.Fields.set withFile "options" (.record titled))
      checkouts := footage.checkouts ++ [id]
      files := footage.files ++ [picturePath directory position] },
    "issue with " ++ toString position ++ "," ++ id,
    ⟨rfl, ⟨_, titled, rfl, ?_⟩, ?_, rfl, rfl, rfl⟩, ?_⟩
  · rw [Lookml.get?_set, if_pos rfl]
  · rw [List.map_append, List.map_singleton, hid]
  · rw [shoot, hid, hseconds]
    dsimp only [bind, Except.bind, Value.asText]
    rw [htitle]
    simp only [pure, Except.pure, fileName_text, hsettings, putEntry, withFile, hput]

/-- A picture is drawn where there is one and its file can be written. -/
theorem draw_eq (footage : Footage) {file : String} {route : Route}
    (hlast : file.toList.getLast? ≠ some '/') (h : (footage.store.find file).OnlyAt route)
    (notice : String) (picture? : Option String) :
    footage.draw file notice picture? =
      if picture?.isSome && (footage.store.find file).file?.isSome then
        { footage with
          store := footage.store.withFile route (picture?.getD "")
          drawn := footage.drawn ++ [file] }
      else { footage with notices := footage.notices ++ [notice] } := by
  rw [Footage.draw]
  cases picture? with
  | none => rfl
  | some picture =>
      rw [Option.bind_some, write_eq hlast h]
      cases (footage.store.find file).file?.isSome <;> rfl

variable {pictures : Nat → Option String} {store : Store} {directory : String} {route : Route}

/-- One more position is drawn, or not. -/
theorem drawnAmong_succ (count : Nat) :
    drawnAmong pictures store directory (count + 1) = drawnAmong pictures store directory count ++
      if Draws pictures store directory count then [count] else [] := by
  rw [drawnAmong, List.range_succ, List.filter_append, List.filter_singleton, Bool.cond_eq_ite]
  rfl

/-- **One step.**  A commit that is told adds its file, and its picture if it is drawn. -/
theorem Filmed.shoot {past : List Commit} {footage : Footage} {commit : Commit}
    (h : Filmed pictures store directory route past footage)
    (hfolder : store.find directory = .folder route) (htold : commit.Told) :
    Filmed pictures store directory route (past ++ [commit])
      (shoot (.text directory) (pictures past.length) footage past.length commit) := by
  obtain ⟨noted, notice, hnoted, hshoot⟩ :=
    shoot_told h.posed htold directory (pictures past.length) past.length
  have hstore : Developed store noted.store _ := hnoted.store ▸ h.store
  have hfile := hstore.file (picturePath directory past.length)
  have honly : (noted.store.find (picturePath directory past.length)).OnlyAt
      (route ++ [pictureName past.length]) := by
    rw [Place.OnlyAt, hfile, hstore.writable]
    exact find_inFolder hfolder (isName_pictureName _) (slash_notMem_pictureName _)
  have hfault : noted.fault = none := hnoted.fault.trans h.fault
  have hcheckouts : noted.checkouts.map Value.text = (past ++ [commit]).map Commit.id := by
    rw [hnoted.checkouts, h.checkouts, List.map_append, List.map_singleton]
  have hlength : (past ++ [commit]).length = past.length + 1 := List.length_append
  have hfiles : noted.files =
      (List.range (past ++ [commit]).length).map (picturePath directory) := by
    rw [hnoted.files, h.files, hlength, List.range_succ, List.map_append, List.map_singleton]
  have hdrawn : noted.drawn = _ := hnoted.drawn.trans h.drawn
  have hdraws : ((pictures past.length).isSome &&
      (noted.store.find (picturePath directory past.length)).file?.isSome) =
        Draws pictures store directory past.length := by
    rw [hfile, Draws]
  -- Whether the picture is drawn is asked of the store as it is now, and the answer is that of the
  -- store at the start: only pictures of other positions were written.
  rw [hshoot, draw_eq noted (getLast?_picturePath directory past.length) honly, hdraws]
  have hsucc := @drawnAmong_succ pictures store directory past.length
  rw [← hlength] at hsucc
  split
  · next hpicture =>
      rw [if_pos hpicture] at hsucc
      refine ⟨hfault, hnoted.posed, hcheckouts, hfiles, ?_, ?_⟩
      · rw [hsucc, List.map_append, ← hdrawn, List.map_singleton]
      · rw [hsucc, List.map_append]
        exact hstore.withFile _ _
  · next hfailed =>
      rw [if_neg hfailed, List.append_nil] at hsucc
      exact ⟨hfault, hnoted.posed, hcheckouts, hfiles, hsucc ▸ hdrawn, hsucc ▸ hstore⟩

/-- **A run** of commits that are told adds the files of all, and the pictures that are drawn. -/
theorem Filmed.shootFrom (hfolder : store.find directory = .folder route) (rest : List Commit) :
    ∀ {past : List Commit} {footage : Footage},
      Filmed pictures store directory route past footage → (∀ commit ∈ rest, commit.Told) →
      Filmed pictures store directory route (past ++ rest)
        (shootFrom (.text directory) pictures footage past.length rest) := by
  induction rest with
  | nil =>
      intro past footage h _
      rw [List.append_nil]
      exact h
  | cons commit rest ih =>
      intro past footage h htold
      have hnext := h.shoot hfolder (htold commit List.mem_cons_self)
      have hrest := ih hnext fun other hother => htold other (List.mem_cons_of_mem _ hother)
      rw [List.append_assoc, List.length_append] at hrest
      rw [Animation.shootFrom, hnext.fault]
      exact hrest

/-- **THE WHOLE HISTORY** adds the files of all commits and the pictures that are drawn. -/
theorem filmed_filmWith {settings : Value} {history : List Commit}
    (hfolder : store.find directory = .folder route) (hsettings : Posed settings)
    (hhistory : ∀ commit ∈ history, commit.Told) :
    Filmed pictures store directory route history.reverse
      (filmWith pictures store settings (.text directory) history) := by
  have hstart : Filmed pictures store directory route [] (.start settings store) :=
    ⟨rfl, hsettings, rfl, rfl, rfl, .refl store⟩
  exact hstart.shootFrom hfolder history.reverse fun commit hcommit =>
    hhistory commit (List.mem_reverse.mp hcommit)

/-! ## The frames -/

/-- Positions have files of their own. -/
theorem picturePath_injective (directory : String) :
    Function.Injective (picturePath directory) := by
  intro i j h
  rw [picturePath, picturePath, inFolder, inFolder, String.append_right_inj] at h
  exact pictureName_injective h

/-- In the end a picture is there if it was drawn, or was there before. -/
theorem Filmed.contains_iff {past : List Commit} {footage : Footage}
    (h : Filmed pictures store directory route past footage)
    (hfolder : store.find directory = .folder route) {position : Nat}
    (hposition : position < past.length) :
    footage.store.contains (picturePath directory position) = true ↔
      Draws pictures store directory position = true ∨
        store.contains (picturePath directory position) = true := by
  have honly := find_inFolder hfolder (isName_pictureName position)
    (slash_notMem_pictureName position)
  change (store.find (picturePath directory position)).OnlyAt _ at honly
  rw [h.store.contains, or_comm]
  refine or_congr_left ?_
  constructor
  · rintro ⟨other, hother, hfile⟩
    obtain ⟨drawn, hdrawn, rfl⟩ := List.mem_map.mp hother
    rcases honly with hplace | ⟨hplace, _⟩
    · -- Two positions with the same file are one.
      have hname := List.append_cancel_left (Option.some.inj (hplace.symm.trans hfile))
      rw [pictureName_injective (List.singleton_inj.mp hname)]
      exact (List.mem_filter.mp hdrawn).2
    · cases hplace.symm.trans hfile
  · intro hdraws
    refine ⟨route ++ [pictureName position], List.mem_map.mpr ⟨position, ?_, rfl⟩, ?_⟩
    · exact List.mem_filter.mpr ⟨List.mem_range.mpr hposition, hdraws⟩
    · rw [Draws, Bool.and_eq_true] at hdraws
      rcases honly with hplace | ⟨hplace, _⟩
      · exact hplace
      · rw [hplace] at hdraws
        cases hdraws.2

/-- The frames are the pictures that were drawn or left over, in the order of the commits. -/
theorem Filmed.frames_eq {past : List Commit} {footage : Footage}
    (h : Filmed pictures store directory route past footage)
    (hfolder : store.find directory = .folder route) :
    frames footage.store footage.files =
      ((List.range past.length).filter fun position => Draws pictures store directory position ||
        store.contains (picturePath directory position)).map (picturePath directory) := by
  rw [frames, h.files, List.filter_map]
  congr 1
  refine List.filter_congr fun position hposition => ?_
  rw [Bool.eq_iff_iff, Bool.or_eq_true]
  exact h.contains_iff hfolder (List.mem_range.mp hposition)

/-- Nothing is added to a choice exactly if it has it. -/
theorem filter_or_eq_iff {α : Type} (items : List α) (first second : α → Bool) :
    (items.filter fun item => first item || second item) = items.filter first ↔
      ∀ item ∈ items, second item = true → first item = true := by
  constructor
  · intro h item hitem hsecond
    have hmem : item ∈ items.filter fun item => first item || second item :=
      List.mem_filter.mpr ⟨hitem, by rw [hsecond, Bool.or_true]⟩
    rw [h] at hmem
    exact (List.mem_filter.mp hmem).2
  · intro h
    refine List.filter_congr fun item hitem => ?_
    cases hsecond : second item with
    | true => rw [h item hitem hsecond, Bool.true_or]
    | false => exact Bool.or_false _

/-- Without a picture the store stays as it is, and makes no difference. -/
theorem shoot_none (directory : Value) (footage : Footage) (store : Store) (position : Nat)
    (commit : Commit) :
    shoot directory none { footage with store := store } position commit =
      { shoot directory none footage position commit with store := store } := by
  unfold shoot
  dsimp only
  -- The four places where the work on a commit can end; none of them reads the store.
  split
  · rfl
  split
  · rfl
  split
  · rfl
  split <;> rfl

/-- The same for a run of commits: without pictures no commit sees the store. -/
theorem shootFrom_none (directory : Value) (store : Store) (rest : List Commit) :
    ∀ (footage : Footage) (position : Nat),
      shootFrom directory (fun _ => none) { footage with store := store } position rest =
        { shootFrom directory (fun _ => none) footage position rest with store := store } := by
  induction rest with
  | nil => exact fun _ _ => rfl
  | cons commit rest ih =>
      intro footage position
      rw [shootFrom, shootFrom, shoot_none]
      dsimp only
      split
      · rfl
      · exact ih _ _

/-- So work without pictures can be done on any store, and leaves it as it is. -/
theorem filmWith_none (store : Store) (settings directory : Value) (history : List Commit) :
    filmWith (fun _ => none) store settings directory history =
      { film settings directory history with store := store } :=
  shootFrom_none directory store history.reverse (.start settings .empty) 0

/-- Without pictures nothing is drawn. -/
theorem drawnAmong_none (count : Nat) : drawnAmong (fun _ => none) store directory count = [] :=
  List.filter_eq_nil_iff.mpr fun _ _ => Bool.false_ne_true

/-- **DRAWN OR LEFT OVER.**  Pictures are drawn into a folder of the store, for a history of commits
that are told, with settings that can be given a file and a title.  Whichever drawings succeed, the
work ends without a fault, the commits are checked out from the oldest to the newest, and the
pictures that are drawn stand in that order.  The frames are the files of the commits whose picture
was drawn or whose file was there before; so they are the pictures that were drawn exactly if no
commit whose drawing failed has a file that was there before.  The drawing that there is never
succeeds: its frames are the files that were there before, and nothing else. -/
theorem frames_drawn_or_left_over (pictures : Nat → Option String) {store : Store}
    {settings : Value} {directory : String} {route : Route} {history : List Commit}
    (hfolder : store.find directory = .folder route) (hsettings : Posed settings)
    (hhistory : ∀ commit ∈ history, commit.Told) :
    let positions := List.range history.length
    let draws := Draws pictures store directory
    let leftOver := fun position => store.contains (picturePath directory position)
    let footage := filmWith pictures store settings (.text directory) history
    footage.fault = none ∧
    footage.checkouts.map Value.text = (history.map Commit.id).reverse ∧
    footage.drawn = (positions.filter draws).map (picturePath directory) ∧
    frames footage.store footage.files =
      (positions.filter fun position => draws position || leftOver position).map
        (picturePath directory) ∧
    (frames footage.store footage.files = footage.drawn ↔
      ∀ position < history.length, leftOver position = true → draws position = true) ∧
    (film settings (.text directory) history).fault = none ∧
    (film settings (.text directory) history).drawn = [] ∧
    frames store (film settings (.text directory) history).files =
      (positions.filter leftOver).map (picturePath directory) := by
  intro positions draws leftOver footage
  have hfilmed := @filmed_filmWith pictures _ _ _ _ _ hfolder hsettings hhistory
  have hframes := hfilmed.frames_eq hfolder
  rw [List.length_reverse] at hframes
  have hdrawn := hfilmed.drawn
  rw [List.length_reverse] at hdrawn
  refine ⟨hfilmed.fault, ?_, hdrawn, hframes, ?_, ?_⟩
  · rw [hfilmed.checkouts, List.map_reverse]
  · rw [hframes, hdrawn, (List.map_injective_iff.mpr (picturePath_injective directory)).eq_iff,
      drawnAmong, filter_or_eq_iff]
    simp only [List.mem_range, leftOver, draws]
  · -- The drawing that there is: the case of no pictures, moved to the store at hand.
    have hnone := @filmed_filmWith (fun _ => none) _ _ _ _ _ hfolder hsettings hhistory
    have hstill := hnone.frames_eq hfolder
    have hnever := hnone.drawn
    rw [drawnAmong_none] at hnever
    rw [List.length_reverse] at hstill
    rw [filmWith_none] at hnone hstill hnever
    exact ⟨hnone.fault, hnever, hstill⟩

/-- A picture of an earlier animation. -/
def leftOverStore : Store := ⟨[(["imgs", "img0.png"], "old")], [["imgs"]]⟩

/-- A picture that was there before becomes a frame, though none was drawn. -/
theorem left_over_picture_is_frame :
    let footage := film (.record [("options", .record [])]) (.text "imgs") [⟨.text "a", .int 0⟩]
    footage.fault = none ∧ footage.drawn = [] ∧
      frames leftOverStore footage.files = ["imgs/img0.png"] := by
  decide +kernel

/-- The drawing of the older of two commits fails, and that of the newer succeeds: the frames are
the picture that was there before and the one that was drawn. -/
theorem newer_commit_drawn :
    let pictures : Nat → Option String := fun position => if position = 1 then some "new" else none
    let history : List Commit := [⟨.text "b", .int 1⟩, ⟨.text "a", .int 0⟩]
    let settings : Value := .record [("options", .record [])]
    (leftOverStore.find "imgs" = .folder ["imgs"] ∧ Posed settings ∧
      ∀ commit ∈ history, commit.Told) ∧
    (filmWith pictures leftOverStore settings (.text "imgs") history).drawn = ["imgs/img1.png"] ∧
    frames (filmWith pictures leftOverStore settings (.text "imgs") history).store
      (filmWith pictures leftOverStore settings (.text "imgs") history).files =
        ["imgs/img0.png", "imgs/img1.png"] := by
  intro pictures history settings
  have hfolder : leftOverStore.find "imgs" = .folder ["imgs"] := by rfl
  have hsettings : Posed settings := ⟨_, [], rfl, rfl⟩
  have hhistory : ∀ commit ∈ history, commit.Told := by
    intro commit hcommit
    simp only [history, List.mem_cons, List.not_mem_nil, or_false] at hcommit
    rcases hcommit with rfl | rfl
    · exact ⟨"b", "1970-01-01 00:00:01", rfl, by decide +kernel⟩
    · exact ⟨"a", "1970-01-01 00:00:00", rfl, by decide +kernel⟩
  obtain ⟨_, _, hdrawn, hframes, _⟩ :=
    frames_drawn_or_left_over pictures hfolder hsettings hhistory
  refine ⟨⟨hfolder, hsettings, hhistory⟩, hdrawn.trans ?_, hframes.trans ?_⟩
  · decide +kernel
  · decide +kernel

end Animation

end LookmlProject
