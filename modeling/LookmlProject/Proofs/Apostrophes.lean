import LookmlProject.Proofs.JsonText
import LookmlProject.Proofs.PlainValues
import LookmlProject.Text.Search

/-! # Apostrophes in JSON texts

    A text is clean if it spells no apostrophe: it has none as a character and
    names its unit in no escape (`Clean`).

    • What is read from a clean text has no apostrophe in any string
      (`Clean.parse`).  The readers keep the rest of the text clean (`Tidy`): inside
      a string they take an escape whole, outside they take no backslash at all, so
      no escape is ever entered in its middle.
    • The text of a plain value is clean once every apostrophe in it is a double
      quote (`clean_swapped`), and has none if no string has one
      (`swapped_of_spotless`).  Both are shown part by part (`Piecewise`). -/

namespace LookmlProject.Text

/-- A character that a text does not have is exchanged nowhere. -/
theorem swapChar_of_not_mem {old new : Char} {cs : List Char} (h : old ∉ cs) :
    swapChar old new cs = cs := by
  refine (List.map_congr_left fun c hc => if_neg ?_).trans (List.map_id cs)
  rintro rfl
  exact h hc

end LookmlProject.Text

namespace LookmlProject.Json

open Value (PlainItems PlainFields)

/-- The unit of the apostrophe. -/
def apostrophe : UInt16 := 39

/-- A text that spells no apostrophe, neither as a character nor by the number of its unit.  A
backslash always starts an escape, which is taken whole. -/
inductive Clean : List Char → Prop where
  | nil : Clean []
  | plain {c : Char} {rest : List Char} :
      c ≠ '\\' → c ≠ '\'' → Clean rest → Clean (c :: rest)
  | escape {e : Char} {rest : List Char} : e ≠ 'u' → Clean rest → Clean ('\\' :: e :: rest)
  | unit {digits rest : List Char} {n : Nat} : readUnit? digits = some (n, rest) →
      n.toUInt16 ≠ apostrophe → Clean rest → Clean ('\\' :: 'u' :: digits)

/-- The four digits of a unit are read the same with more text behind them. -/
theorem readUnit?_append {digits rest : List Char} {n : Nat} (h : readUnit? digits = some (n, rest))
    (more : List Char) : readUnit? (digits ++ more) = some (n, rest ++ more) := by
  match digits, h with
  | a :: b :: c :: d :: rest', h =>
      simp only [readUnit?, List.cons_append] at h ⊢
      cases ha : hexValue? a <;> cases hb : hexValue? b <;> cases hc : hexValue? c <;>
        cases hd : hexValue? d <;> simp_all

namespace Clean

/-- Two clean texts make a clean one: the first ends outside any escape. -/
theorem append {cs more : List Char} (h : Clean cs) (hmore : Clean more) : Clean (cs ++ more) := by
  induction h with
  | nil => exact hmore
  | plain hescape hquote _ ih => exact .plain hescape hquote ih
  | escape he _ ih => exact .escape he ih
  | unit hn hne _ ih => exact .unit (readUnit?_append hn more) hne ih

/-- A character of a clean text that is no backslash is no apostrophe, and what follows is clean. -/
theorem tail {c : Char} {rest : List Char} (h : Clean (c :: rest)) (hc : c ≠ '\\') :
    c ≠ '\'' ∧ Clean rest := by
  cases h with
  | plain _ hquote hrest => exact ⟨hquote, hrest⟩
  | escape _ _ => exact absurd rfl hc
  | unit _ _ _ => exact absurd rfl hc

/-- A clean text stays clean when a part without backslashes is cut off. -/
theorem of_append {first rest : List Char} (h : Clean (first ++ rest)) (hfirst : '\\' ∉ first) :
    Clean rest := by
  induction first with
  | nil => exact h
  | cons c first ih =>
      obtain ⟨hc, hmore⟩ := not_or.mp (mt List.mem_cons.mpr hfirst)
      exact ih (h.tail (Ne.symm hc)).2 hmore

/-- Dropping characters leaves a clean text clean as long as no backslash is among them. -/
theorem dropWhile {cs : List Char} (h : Clean cs) {p : Char → Bool} (hp : p '\\' = false) :
    Clean (cs.dropWhile p) := by
  induction cs with
  | nil => exact h
  | cons c rest ih =>
      by_cases hc : p c = true
      · rw [List.dropWhile_cons_of_pos hc]
        refine ih (h.tail ?_).2
        rintro rfl
        exact Bool.false_ne_true (hp.symm.trans hc)
      · rw [List.dropWhile_cons_of_neg hc]
        exact h

theorem skipSpace {cs : List Char} (h : Clean cs) : Clean (skipSpace cs) := h.dropWhile rfl

theorem skipSpace_eq {cs rest : List Char} (h : Clean cs) (hskip : Json.skipSpace cs = rest) :
    Clean rest := hskip ▸ h.skipSpace

theorem dropDigits {cs : List Char} (h : Clean cs) : Clean (cs.dropWhile Char.isDigit) :=
  h.dropWhile rfl

end Clean

/-! ## Strings -/

/-- Only the apostrophe has its unit: the halves of pairs are much greater. -/
theorem apostrophe_mem_charUnits {c : Char} (h : apostrophe ∈ Text.charUnits c) : c = '\'' := by
  have hvalid : c.toNat < 0xD800 ∨ 0xDFFF < c.toNat ∧ c.toNat < 0x110000 := c.valid
  have htoNat : ∀ n, n < 0x10000 → apostrophe = n.toUInt16 → n = 39 := by
    intro n hn heq
    rw [← Text.toNat_toUInt16 hn, ← heq]
    rfl
  rw [Text.charUnits] at h
  split at h
  · next hc =>
      have hn := htoNat _ hc (List.mem_singleton.mp h)
      rw [← Char.ofNat_toNat c, hn]
  · simp only [List.mem_cons, List.not_mem_nil, or_false] at h
    rcases h with h | h
    · have := htoNat _ (by omega) h
      omega
    · have := htoNat _ (by omega) h
      omega

/-- A unit that stands for an apostrophe is its unit. -/
theorem apostrophe_of_unitChar {u : UInt16} (h : Text.unitChar u = '\'') : u = apostrophe := by
  have hhigh := Text.isHigh_iff u
  have hlow := Text.isLow_iff u
  rw [Text.unitChar] at h
  split at h
  · exact absurd h (by decide)
  · next hhalf =>
      rw [Bool.or_eq_true, hhigh, hlow] at hhalf
      have hlt := u.toNat_lt
      have hnat : (Char.ofNat u.toNat).toNat = u.toNat := toNat_ofNat (by
        rw [Nat.isValidChar]
        omega)
      rw [h] at hnat
      exact UInt16.toNat_inj.mp hnat.symm

/-- A pair of halves is never an apostrophe. -/
theorem pairChar_ne {high low : UInt16} (hhigh : Text.isHigh high = true)
    (hlow : Text.isLow low = true) : Text.pairChar high low ≠ '\'' := by
  rw [Text.isHigh_iff] at hhigh
  rw [Text.isLow_iff] at hlow
  intro h
  have hnat := congrArg Char.toNat h
  rw [Text.pairChar, toNat_ofNat (by rw [Nat.isValidChar]; omega)] at hnat
  have : '\''.toNat = 39 := rfl
  omega

/-- A text has an apostrophe only if its units have one. -/
theorem apostrophe_mem_of_ofUnits {units : List UInt16} (h : '\'' ∈ Text.ofUnits units) :
    apostrophe ∈ units := by
  fun_induction Text.ofUnits units with
  | case1 => cases h
  | case2 u =>
      rw [apostrophe_of_unitChar (List.mem_singleton.mp h).symm]
      exact List.mem_cons_self
  | case3 u v rest hpair ih =>
      obtain ⟨hhigh, hlow⟩ := Bool.and_eq_true_iff.mp hpair
      rcases List.mem_cons.mp h with h | h
      · exact absurd h.symm (pairChar_ne hhigh hlow)
      · exact List.mem_cons_of_mem _ (List.mem_cons_of_mem _ (ih h))
  | case4 u v rest _ ih =>
      rcases List.mem_cons.mp h with h | h
      · rw [apostrophe_of_unitChar h.symm]
        exact List.mem_cons_self
      · exact List.mem_cons_of_mem _ (ih h)

/-- No escape letter stands for an apostrophe. -/
theorem escape?_ne {e x : Char} (h : escape? e = some x) : x ≠ '\'' := by
  unfold escape? at h
  split at h <;> cases h <;> decide

/-- A string that is read from a clean text has no apostrophe, and the rest is clean. -/
theorem Clean.readString? {fuel : Nat} : ∀ {cs rest : List Char} {units : List UInt16},
    Clean cs → readString? fuel cs = some (units, rest) → apostrophe ∉ units ∧ Clean rest := by
  induction fuel with
  | zero => intro cs rest units _ h; cases h
  | succ fuel ih =>
      -- What every round has in common: some units without an apostrophe, and then the rest of the
      -- string.
      have hnext : ∀ {first : List UInt16} {more rest : List Char} {units : List UInt16},
          apostrophe ∉ first → Clean more →
            ((Json.readString? fuel more).map fun r => (first ++ r.1, r.2)) = some (units, rest) →
              apostrophe ∉ units ∧ Clean rest := by
        intro first more rest units hfirst hmore h
        obtain ⟨⟨units', rest'⟩, hread, heq⟩ := Option.map_eq_some_iff.mp h
        obtain ⟨hunits, hrest⟩ := ih hmore hread
        cases heq
        exact ⟨fun hmem => (List.mem_append.mp hmem).elim hfirst hunits, hrest⟩
      intro cs rest units hclean h
      -- One way for a clean text to go on is one round of the reader.
      cases hclean with
      | nil => cases h
      | @plain c more hescape hquote hmore =>
          have hfirst : apostrophe ∉ Text.charUnits c := fun hmem =>
            hquote (apostrophe_mem_charUnits hmem)
          rw [readString?.eq_def] at h
          simp only [if_neg hescape] at h
          split at h
          · cases h
            exact ⟨List.not_mem_nil, hmore⟩
          · split at h
            · cases h
            · exact hnext hfirst hmore h
      | @escape e more he hmore =>
          cases hx : escape? e with
          | none =>
              rw [readString?.eq_def] at h
              simp only [hx] at h
              cases h
          | some x =>
              have hfirst : apostrophe ∉ Text.charUnits x := fun hmem =>
                escape?_ne hx (apostrophe_mem_charUnits hmem)
              rw [readString?_escape hx] at h
              exact hnext hfirst hmore h
      | @unit digits more n hn hne hmore =>
          have hfirst : apostrophe ∉ [n.toUInt16] := fun hmem =>
            hne (List.mem_singleton.mp hmem).symm
          rw [readString?_number hn] at h
          exact hnext hfirst hmore h

/-- The same for the reader that takes its fuel from the text. -/
theorem Clean.readString {cs rest : List Char} {units : List UInt16} (hcs : Clean cs)
    (h : Json.readString cs = .ok (units, rest)) : apostrophe ∉ units ∧ Clean rest := by
  rw [Json.readString] at h
  split at h
  · next hread =>
      cases h
      exact hcs.readString? hread
  · cases h

/-! ## Numbers and words -/

/-- The whole part of a number leaves a clean rest. -/
theorem Clean.readWholePart? {cs digits rest : List Char} (hcs : Clean cs)
    (h : Json.readWholePart? cs = some (digits, rest)) : Clean rest := by
  unfold Json.readWholePart? at h
  split at h
  · cases h
    exact (hcs.tail (by decide)).2
  · split at h
    · cases h
    · cases h
      exact hcs.dropDigits

/-- The fraction of a number leaves a clean rest. -/
theorem Clean.readFraction {cs : List Char} (hcs : Clean cs) : Clean (Json.readFraction cs).2 := by
  unfold Json.readFraction
  split
  · next rest =>
      split
      · exact hcs
      · exact (hcs.tail (by decide)).2.dropDigits
  · exact hcs

/-- The exponent of a number leaves a clean rest. -/
theorem Clean.readExponent {cs : List Char} (hcs : Clean cs) : Clean (Json.readExponent cs).2 := by
  cases cs with
  | nil => exact hcs
  | cons e rest =>
      simp only [Json.readExponent]
      split
      · next he =>
          have hrest : Clean rest := by
            refine (hcs.tail ?_).2
            rintro rfl
            exact absurd he (by decide)
          -- With a plus, with a dash, and without a sign; without digits the text stays as it is.
          split
          · split
            · exact hcs
            · exact (hrest.tail (by decide)).2.dropDigits
          · split
            · exact hcs
            · exact (hrest.tail (by decide)).2.dropDigits
          · split
            · exact hcs
            · exact hrest.dropDigits
      · exact hcs

/-- A number has no strings, and leaves a clean rest. -/
theorem Clean.readNumber {negative : Bool} {cs rest : List Char} {v : Json} (hcs : Clean cs)
    (h : Json.readNumber negative cs = .ok (v, rest)) : v.strings = [] ∧ Clean rest := by
  unfold Json.readNumber at h
  split at h
  · cases h
  · next whole more hwhole =>
      have hmore := hcs.readWholePart? hwhole
      simp only at h
      split at h
      · split at h
        · cases h
        · cases h
          exact ⟨rfl, hmore⟩
      · cases h
        exact ⟨rfl, hmore.readFraction.readExponent⟩

/-- The words have no backslash and stand for values without strings. -/
theorem words_spec : ∀ w ∈ words, '\\' ∉ w.1 ∧ w.2.strings = [] := by
  simp [words, strings]

/-- A word or a number has no strings, and leaves a clean rest. -/
theorem Clean.readScalar {cs rest : List Char} {v : Json} (hcs : Clean cs)
    (h : Json.readScalar cs = .ok (v, rest)) : v.strings = [] ∧ Clean rest := by
  unfold Json.readScalar at h
  split at h
  · next w v hword =>
      obtain ⟨hw, hv⟩ := words_spec _ (List.mem_of_find?_eq_some hword)
      have hstart := List.find?_some hword
      -- The word is cut off where it ends, and there is no backslash in it.
      obtain ⟨more, rfl⟩ := List.isPrefixOf_iff_prefix.mp hstart
      rw [List.drop_left] at h
      cases h
      exact ⟨hv, hcs.of_append hw⟩
  · split at h
    · exact (hcs.tail (by decide)).2.readNumber h
    · exact hcs.readNumber h

/-! ## Values -/

/-- Strings without an apostrophe. -/
def Spotless (strings : List (List UInt16)) : Prop := ∀ units ∈ strings, apostrophe ∉ units

theorem Spotless.append {first second : List (List UInt16)} (hfirst : Spotless first)
    (hsecond : Spotless second) : Spotless (first ++ second) := by
  intro units hunits
  exact (List.mem_append.mp hunits).elim (hfirst units) (hsecond units)

theorem Spotless.cons {units : List UInt16} {rest : List (List UInt16)} (h : apostrophe ∉ units)
    (hrest : Spotless rest) : Spotless (units :: rest) := by
  intro other hother
  rcases List.mem_cons.mp hother with rfl | hother
  · exact h
  · exact hrest other hother

theorem spotless_nil : Spotless [] := by
  intro units hunits
  cases hunits

/-- Entries are spotless exactly if the key, the value and the other entries are. -/
theorem spotless_cons_field {key : List UInt16} {v : Json} {rest : List (List UInt16 × Json)} :
    Spotless (fieldStrings ((key, v) :: rest)) ↔
      apostrophe ∉ key ∧ Spotless v.strings ∧ Spotless (fieldStrings rest) := by
  rw [fieldStrings]
  constructor
  · intro h
    exact ⟨h key List.mem_cons_self,
      fun units hunits => h units (List.mem_cons_of_mem _ (List.mem_append_left _ hunits)),
      fun units hunits => h units (List.mem_cons_of_mem _ (List.mem_append_right _ hunits))⟩
  · rintro ⟨hkey, hv, hrest⟩
    exact .cons hkey (hv.append hrest)

/-- Setting a spotless entry in spotless entries keeps them so. -/
theorem Spotless.set {fields : Fields} (h : Spotless (fieldStrings fields)) {key : List UInt16}
    {v : Json} (hkey : apostrophe ∉ key) (hv : Spotless v.strings) :
    Spotless (fieldStrings (Keyed.set fields key v)) := by
  induction fields with
  | nil => exact spotless_cons_field.mpr ⟨hkey, hv, spotless_nil⟩
  | cons e rest ih =>
      obtain ⟨hold, hvalue, hrest⟩ := spotless_cons_field.mp h
      rw [Keyed.set]
      split
      · exact spotless_cons_field.mpr ⟨hold, hv, hrest⟩
      · exact spotless_cons_field.mpr ⟨hold, hvalue, ih hrest⟩

/-- A record made from spotless entries is spotless. -/
theorem Spotless.ofEntries {entries : List (List UInt16 × Json)}
    (h : Spotless (fieldStrings entries)) : Spotless (fieldStrings (Fields.ofEntries entries)) := by
  have hfold : ∀ fields : Fields, Spotless (fieldStrings fields) → Spotless (fieldStrings
      (entries.foldl (fun fields e => Keyed.set fields e.1 e.2) fields)) := by
    induction entries with
    | nil => exact fun _ hfields => hfields
    | cons e rest ih =>
        intro fields hfields
        obtain ⟨hkey, hv, hrest⟩ := spotless_cons_field.mp h
        exact ih hrest _ (hfields.set hkey hv)
  exact hfold [] spotless_nil

/-- Readers with this much fuel keep a clean text clean, and what they read is spotless. -/
structure Tidy (fuel : Nat) : Prop where
  value {cs rest : List Char} {v : Json} : Clean cs → readValue fuel cs = .ok (v, rest) →
    Spotless v.strings ∧ Clean rest
  items {cs rest : List Char} {items : List Json} : Clean cs →
    readItems fuel cs = .ok (items, rest) → Spotless (itemStrings items) ∧ Clean rest
  fields {cs rest : List Char} {entries : List (List UInt16 × Json)} : Clean cs →
    readFields fuel cs = .ok (entries, rest) → Spotless (fieldStrings entries) ∧ Clean rest

/-- One round more for the reader of values. -/
theorem Tidy.readValue {fuel : Nat} (h : Tidy fuel) {cs rest : List Char} {v : Json}
    (hcs : Clean cs) (hv : readValue (fuel + 1) cs = .ok (v, rest)) :
    Spotless v.strings ∧ Clean rest := by
  cases valueRound hv with
  | text hread =>
      obtain ⟨hunits, hrest⟩ := (hcs.tail (by decide)).2.readString hread
      exact ⟨.cons hunits spotless_nil, hrest⟩
  | emptyList hend =>
      exact ⟨spotless_nil, (((hcs.tail (by decide)).2.skipSpace_eq hend).tail (by decide)).2⟩
  | list hread => exact h.items (hcs.tail (by decide)).2.skipSpace hread
  | emptyRecord hend =>
      exact ⟨spotless_nil, (((hcs.tail (by decide)).2.skipSpace_eq hend).tail (by decide)).2⟩
  | record hread =>
      obtain ⟨hentries, hrest⟩ := h.fields (hcs.tail (by decide)).2.skipSpace hread
      exact ⟨hentries.ofEntries, hrest⟩
  | scalar hread =>
      obtain ⟨hstrings, hrest⟩ := hcs.readScalar hread
      rw [hstrings]
      exact ⟨spotless_nil, hrest⟩

/-- One round more for the reader of elements. -/
theorem Tidy.readItems {fuel : Nat} (h : Tidy fuel) {cs rest : List Char} {items : List Json}
    (hcs : Clean cs) (hitems : readItems (fuel + 1) cs = .ok (items, rest)) :
    Spotless (itemStrings items) ∧ Clean rest := by
  cases itemsRound hitems with
  | last hv hmark =>
      obtain ⟨hstrings, htext⟩ := h.value hcs hv
      exact ⟨hstrings.append spotless_nil, ((htext.skipSpace_eq hmark).tail (by decide)).2⟩
  | next hv hmark hothers =>
      obtain ⟨hstrings, htext⟩ := h.value hcs hv
      have hmore := ((htext.skipSpace_eq hmark).tail (by decide)).2
      obtain ⟨hspotless, hrest⟩ := h.items hmore.skipSpace hothers
      exact ⟨hstrings.append hspotless, hrest⟩

/-- One round more for the reader of entries. -/
theorem Tidy.readFields {fuel : Nat} (h : Tidy fuel) {cs rest : List Char}
    {entries : List (List UInt16 × Json)} (hcs : Clean cs)
    (hentries : readFields (fuel + 1) cs = .ok (entries, rest)) :
    Spotless (fieldStrings entries) ∧ Clean rest := by
  cases fieldsRound hentries with
  | last hkey hcolon hv hmark =>
      obtain ⟨hunits, htext⟩ := (hcs.tail (by decide)).2.readString hkey
      have hvalue := ((htext.skipSpace_eq hcolon).tail (by decide)).2
      obtain ⟨hstrings, htext'⟩ := h.value hvalue.skipSpace hv
      exact ⟨spotless_cons_field.mpr ⟨hunits, hstrings, spotless_nil⟩,
        ((htext'.skipSpace_eq hmark).tail (by decide)).2⟩
  | next hkey hcolon hv hmark hothers =>
      obtain ⟨hunits, htext⟩ := (hcs.tail (by decide)).2.readString hkey
      have hvalue := ((htext.skipSpace_eq hcolon).tail (by decide)).2
      obtain ⟨hstrings, htext'⟩ := h.value hvalue.skipSpace hv
      have hmore := ((htext'.skipSpace_eq hmark).tail (by decide)).2
      obtain ⟨hspotless, hrest⟩ := h.fields hmore.skipSpace hothers
      exact ⟨spotless_cons_field.mpr ⟨hunits, hstrings, hspotless⟩, hrest⟩

/-- **EVERY READER IS TIDY**, whatever its fuel. -/
theorem tidy (fuel : Nat) : Tidy fuel := by
  induction fuel with
  | zero =>
      constructor
      · intro cs rest v _ h
        cases h
      · intro cs rest items _ h
        cases h
      · intro cs rest entries _ h
        cases h
  | succ fuel ih => exact ⟨ih.readValue, ih.readItems, ih.readFields⟩

/-- What is read from a clean text has no apostrophe in it. -/
theorem Clean.parse {cs : List Char} {v : Json} (hcs : Clean cs) (h : Json.parse cs = .ok v) :
    Spotless v.strings := by
  obtain ⟨⟨v', rest⟩, hread, hend⟩ := bind_eq_ok.mp h
  obtain ⟨hstrings, _⟩ := (tidy _).value hcs.skipSpace hread
  simp only at hend
  split at hend
  · cases hend
    exact hstrings
  · cases hend

/-! ## The text of a value -/

/-- A property of texts that goes from parts to the whole, and that texts without backslashes and
apostrophes have. -/
structure Piecewise (P : List Char → Prop) : Prop where
  plain {cs : List Char} : '\\' ∉ cs → '\'' ∉ cs → P cs
  append {cs more : List Char} : P cs → P more → P (cs ++ more)

namespace Piecewise

variable {P : List Char → Prop} (hP : Piecewise P)

include hP

theorem cons {c : Char} {cs : List Char} (hescape : c ≠ '\\') (hquote : c ≠ '\'') (h : P cs) :
    P (c :: cs) := by
  have hc : P [c] := hP.plain (fun hmem => hescape (List.mem_singleton.mp hmem).symm)
    (fun hmem => hquote (List.mem_singleton.mp hmem).symm)
  exact hP.append hc h

theorem nil : P [] := hP.plain List.not_mem_nil List.not_mem_nil

/-- A string has the property if the text of each of its units has it. -/
theorem stringText {units : List UInt16} (h : ∀ u ∈ units, P (unitText u)) :
    P (stringText units) := by
  have hunits : P (units.flatMap unitText) := by
    induction units with
    | nil => exact hP.nil
    | cons u rest ih =>
        rw [List.flatMap_cons]
        exact hP.append (h u List.mem_cons_self) (ih fun u hu => h u (List.mem_cons_of_mem _ hu))
  have hend : P ['"'] := hP.cons (by decide) (by decide) hP.nil
  exact hP.append (hP.cons (by decide) (by decide) hunits) hend

/-- A whole number has the property, as digits and a dash are plain. -/
theorem int (n : Int) : P (chars (.int n)) := by
  have hdigits : ∀ c, c.isDigit = false → c ∉ Nat.toDigits 10 n.natAbs := by
    intro c hc hmem
    have hdigit := Nat.isDigit_of_mem_toDigits (by decide) (by decide) hmem
    exact Bool.false_ne_true (hc.symm.trans hdigit)
  rw [chars_int]
  refine hP.append ?_ (hP.plain (hdigits _ rfl) (hdigits _ rfl))
  split
  · exact hP.nil
  · exact hP.cons (by decide) (by decide) hP.nil

/-- One entry of a record. -/
theorem field {k : String} {text : List Char}
    (hk : ∀ u ∈ Text.units k.toList, P (unitText u)) (htext : P text) :
    P (Json.stringText (Text.units k.toList) ++ ": ".toList ++ text) := by
  have hcolon : P ": ".toList := hP.plain (by decide) (by decide)
  exact hP.append (hP.append (hP.stringText hk) hcolon) htext

mutual

/-- The text of a value is made of units and of characters that are neither backslashes nor
apostrophes. -/
theorem chars : ∀ v : Value, v.Plain →
    (∀ s ∈ v.strings, ∀ u ∈ Text.units s.toList, P (unitText u)) → P (chars (ofValue v))
  | .null, _, _ => hP.plain (by decide) (by decide)
  | .bool true, _, _ => hP.plain (by decide) (by decide)
  | .bool false, _, _ => hP.plain (by decide) (by decide)
  | .int n, _, _ => hP.int n
  | .float _, h, _ => absurd h id
  | .text s, _, hunits => hP.stringText (hunits s List.mem_cons_self)
  | .list items, h, hunits => by
      have hend : P [']'] := hP.cons (by decide) (by decide) hP.nil
      exact hP.append (hP.cons (by decide) (by decide) (itemsText items h hunits)) hend
  | .record fields, h, hunits => by
      have hend : P ['\x7d'] := hP.cons (by decide) (by decide) hP.nil
      exact hP.append (hP.cons (by decide) (by decide) (fieldsText fields h.2 hunits)) hend

/-- The text between the brackets of a list. -/
theorem itemsText : ∀ items : List Value, PlainItems items →
    (∀ s ∈ Value.itemStrings items, ∀ u ∈ Text.units s.toList, P (unitText u)) →
      P (itemsText (ofItems items))
  | [], _, _ => hP.nil
  | [v], h, hunits => chars v h.1 fun s hs => hunits s (List.mem_append_left _ hs)
  | v :: w :: more, h, hunits => by
      have hv := chars v h.1 fun s hs => hunits s (List.mem_append_left _ hs)
      have hmore := itemsText (w :: more) h.2 fun s hs => hunits s (List.mem_append_right _ hs)
      rw [ofItems, ofItems, itemsText_cons]
      exact hP.append hv (hP.cons (by decide) (by decide) (hP.cons (by decide) (by decide) hmore))

/-- The text between the braces of a record. -/
theorem fieldsText : ∀ fields : List (String × Value), PlainFields fields →
    (∀ s ∈ Value.fieldStrings fields, ∀ u ∈ Text.units s.toList, P (unitText u)) →
      P (fieldsText (ofFields fields))
  | [], _, _ => hP.nil
  | [(k, v)], h, hunits => by
      have hv := chars v h.1 fun s hs => hunits s
        (List.mem_cons_of_mem _ (List.mem_append_left _ hs))
      exact hP.field (hunits k List.mem_cons_self) hv
  | (k, v) :: e :: more, h, hunits => by
      have hv := chars v h.1 fun s hs => hunits s
        (List.mem_cons_of_mem _ (List.mem_append_left _ hs))
      have hmore := fieldsText (e :: more) h.2 fun s hs => hunits s
        (List.mem_cons_of_mem _ (List.mem_append_right _ hs))
      rw [ofFields, ofFields, fieldsText_cons]
      exact hP.field (hunits k List.mem_cons_self) (hP.append hv
        (hP.cons (by decide) (by decide) (hP.cons (by decide) (by decide) hmore)))

end

end Piecewise

/-- The apostrophe is written for its own unit only. -/
theorem Spells.not_mem {u : UInt16} {text : List Char} (h : Spells u text) (hu : u ≠ apostrophe) :
    '\'' ∉ text := by
  intro hmem
  cases h with
  | @plain c hunits _ _ _ =>
      obtain rfl : '\'' = c := List.mem_singleton.mp hmem
      exact hu (List.cons.inj hunits).1.symm
  | @escape e x hx _ =>
      simp only [List.mem_cons, List.not_mem_nil, or_false] at hmem
      rcases hmem with hmem | rfl
      · exact absurd hmem (by decide)
      · cases hx
  | number =>
      -- A backslash, a `u` and four digits in base sixteen.
      have hdigit : ∀ d < 16, '\'' ≠ d.digitChar := by decide
      have hlt := u.toNat_lt
      rw [unitEscape, padZeros_hex hlt] at hmem
      simp only [List.mem_cons, List.not_mem_nil, or_false] at hmem
      rcases hmem with hmem | hmem | hmem | hmem | hmem | hmem
      · exact absurd hmem (by decide)
      · exact absurd hmem (by decide)
      · exact hdigit _ (by omega) hmem
      · exact hdigit _ (by omega) hmem
      · exact hdigit _ (by omega) hmem
      · exact hdigit _ (by omega) hmem

/-- The spelling of any unit but the apostrophe's is clean. -/
theorem Spells.clean {u : UInt16} {text : List Char} (h : Spells u text) (hu : u ≠ apostrophe) :
    Clean text := by
  have hnone := h.not_mem hu
  cases h with
  | plain _ _ hescape _ =>
      exact .plain hescape (fun hc => hnone (hc ▸ List.mem_cons_self)) .nil
  | @escape e x hx _ =>
      refine .escape ?_ .nil
      rintro rfl
      cases hx
  | number =>
      have hread := readUnit?_hex u.toNat_lt []
      rw [List.append_nil] at hread
      refine .unit hread ?_ .nil
      rw [show u.toNat.toUInt16 = u from UInt16.ofNat_toNat]
      exact hu

/-- A text without backslashes and apostrophes is clean. -/
theorem clean_of_not_mem {cs : List Char} (hescape : '\\' ∉ cs) (hquote : '\'' ∉ cs) :
    Clean cs := by
  induction cs with
  | nil => exact .nil
  | cons c rest ih =>
      obtain ⟨hc, hrest⟩ := not_or.mp (mt List.mem_cons.mpr hescape)
      obtain ⟨hc', hrest'⟩ := not_or.mp (mt List.mem_cons.mpr hquote)
      exact .plain (Ne.symm hc) (Ne.symm hc') (ih hrest hrest')

/-- Having no apostrophe goes from parts to the whole. -/
theorem piecewise_not_mem : Piecewise ('\'' ∉ ·) := by
  constructor
  · intro cs _ hquote
    exact hquote
  · intro cs more hcs hmore hmem
    exact (List.mem_append.mp hmem).elim hcs hmore

/-- Being clean after the exchange goes from parts to the whole. -/
theorem piecewise_swapped : Piecewise fun cs => Clean (Text.swapChar '\'' '"' cs) := by
  constructor
  · intro cs hescape hquote
    rw [Text.swapChar_of_not_mem hquote]
    exact clean_of_not_mem hescape hquote
  · intro cs more hcs hmore
    rw [Text.swapChar, List.map_append]
    exact hcs.append hmore

/-- With double quotes for apostrophes, the text of a plain value is clean. -/
theorem clean_swapped {v : Value} (hv : v.Plain) :
    Clean (Text.swapChar '\'' '"' (chars (ofValue v))) := by
  refine piecewise_swapped.chars v hv fun s _ u _ => ?_
  -- Only the unit of the apostrophe is changed, to a quote; all others are clean as they are.
  by_cases hu : u = apostrophe
  · subst hu
    exact .plain (by decide) (by decide) .nil
  · rw [Text.swapChar_of_not_mem ((unitText_spells u).not_mem hu)]
    exact (unitText_spells u).clean hu

/-- The text of a plain value without apostrophes has none either. -/
theorem swapped_of_spotless {v : Value} (hv : v.Plain) (h : ∀ s ∈ v.strings, '\'' ∉ s.toList) :
    Text.swapChar '\'' '"' (chars (ofValue v)) = chars (ofValue v) := by
  refine Text.swapChar_of_not_mem (piecewise_not_mem.chars v hv fun s hs u hunit => ?_)
  refine (unitText_spells u).not_mem ?_
  rintro rfl
  obtain ⟨c, hc, hmem⟩ := List.mem_flatMap.mp hunit
  exact h s hs (apostrophe_mem_charUnits hmem ▸ hc)

end LookmlProject.Json
