import LookmlProject.Proofs.FloatText
import LookmlProject.Proofs.PlainValues

/-! # JSON texts are read back

    A JSON value is regular if its whole numbers are short enough to be read and
    its records have distinct keys (`Regular`); its texts, its floating-point
    numbers and its depth are free.  **A value is read back from its text exactly if
    it is regular** (`parse_chars_iff`).

    • That a regular value is read back is an induction over the value,
      `readValue_chars`, which asks for as much fuel as the text is long.
    • Whatever is read is regular (`regular_of_parse`): too many digits are refused,
      and of a key that comes twice one entry is left.  This is an induction over
      the rounds of the readers.
    • The plain values are regular (`regular_ofValue`). -/

namespace LookmlProject.Json

open Value (PlainItems PlainFields)

mutual

/-- Whole numbers that are not too long, and records with distinct keys. -/
def Regular : Json → Prop
  | .int n => (Nat.toDigits 10 n.natAbs).length ≤ Decimal.maxDigits
  | .list items => RegularItems items
  | .record fields => Keyed.Distinct fields ∧ RegularFields fields
  | _ => True

/-- Elements that are regular. -/
def RegularItems : List Json → Prop
  | [] => True
  | v :: rest => v.Regular ∧ RegularItems rest

/-- Entries that are regular. -/
def RegularFields : List (List UInt16 × Json) → Prop
  | [] => True
  | (_, v) :: rest => v.Regular ∧ RegularFields rest

end

/-! ## Regular values are read back -/

/-- The text of a value starts like a value, never with white space or a closing mark. -/
theorem chars_starts (v : Json) : Starts (chars v) := by
  cases v with
  | bool b => cases b <;> exact ⟨_, _, rfl, by decide⟩
  | int n => exact chars_int_starts n
  | float x => exact chars_float_starts x
  | _ => exact ⟨_, _, rfl, by decide⟩

theorem itemsText_starts (v : Json) (more : List Json) : Starts (itemsText (v :: more)) := by
  cases more with
  | nil => exact chars_starts v
  | cons w more =>
      rw [itemsText_cons]
      exact (chars_starts v).append _

/-- Entries with distinct keys are a record as they stand. -/
theorem ofEntries_of_distinct {fields : Fields} (h : Keyed.Distinct fields) :
    Fields.ofEntries fields = fields := Keyed.foldl_set fields [] h

mutual

/-- A regular value is read from its text, whatever ends it. -/
theorem readValue_chars : ∀ v : Json, v.Regular → ∀ fuel rest, Ends rest →
    (chars v).length ≤ fuel → readValue fuel (chars v ++ rest) = .ok (v, rest)
  | .null, _, fuel + 1, rest, _, _ => rfl
  | .bool true, _, fuel + 1, rest, _, _ => rfl
  | .bool false, _, fuel + 1, rest, _, _ => rfl
  | .int n, h, fuel + 1, rest, hrest, _ => by
      rw [readValue_int n fuel hrest, if_neg (Nat.not_lt.mpr h)]
  | .float x, _, fuel + 1, rest, hrest, _ => readValue_float x fuel hrest
  | .text units, _, fuel + 1, rest, _, _ => by
      rw [chars, stringText, List.append_assoc, List.cons_append, readValue,
        List.singleton_append, readString_units]
      rfl
  | .list [], _, fuel + 1, rest, _, _ => rfl
  | .list (v :: more), h, fuel + 1, rest, _, hfuel => by
      -- One round of fuel is gone, but two brackets are too.
      have hitems : (itemsText (v :: more)).length < fuel := by
        rw [chars, List.length_append, List.length_cons] at hfuel
        exact Nat.le_of_succ_le_succ hfuel
      have hread := readItems_itemsText (v :: more) (List.cons_ne_nil _ _) h fuel rest hitems
      rw [chars, List.append_assoc, List.cons_append, List.singleton_append]
      exact readValue_list ((itemsText_starts v more).append _) hread
  | .record [], _, fuel + 1, rest, _, _ => rfl
  | .record (e :: more), h, fuel + 1, rest, _, hfuel => by
      have hfields : (fieldsText (e :: more)).length < fuel := by
        rw [chars, List.length_append, List.length_cons] at hfuel
        exact Nat.le_of_succ_le_succ hfuel
      have hread := readFields_fieldsText (e :: more) (List.cons_ne_nil _ _) h.2 fuel rest hfields
      have hrecord := readValue_record ((fieldsText_starts e more).append _) hread
      rw [ofEntries_of_distinct h.1] at hrecord
      rw [chars, List.append_assoc, List.cons_append, List.singleton_append]
      exact hrecord
  | v, _, 0, _, _, hfuel => by
      -- Without fuel the text would be empty, and the text of a value never is.
      obtain ⟨c, cs, hcs, _⟩ := chars_starts v
      rw [hcs] at hfuel
      exact absurd hfuel (Nat.not_succ_le_zero _)

/-- Regular elements are read from their text. -/
theorem readItems_itemsText : ∀ items : List Json, items ≠ [] → RegularItems items →
    ∀ fuel rest, (itemsText items).length < fuel →
      readItems fuel (itemsText items ++ ']' :: rest) = .ok (items, rest)
  | [], h, _, _, _, _ => absurd rfl h
  | _, _, _, 0, _, hfuel => absurd hfuel (Nat.not_lt_zero _)
  | [v], _, h, fuel + 1, rest, hfuel =>
      readItems_last (readValue_chars v h.1 fuel _ (ends_mark rest).2.1
        (Nat.le_of_lt_succ hfuel))
  | v :: w :: more, _, h, fuel + 1, rest, hfuel => by
      rw [itemsText_cons] at hfuel ⊢
      simp only [List.length_append, List.length_cons] at hfuel
      have hv := readValue_chars v h.1 fuel (',' :: ' ' :: (itemsText (w :: more) ++ ']' :: rest))
        (ends_mark _).1 (by omega)
      have hmore := readItems_itemsText (w :: more) (List.cons_ne_nil _ _) h.2 fuel rest (by omega)
      rw [List.append_assoc]
      exact readItems_next hv ((itemsText_starts w more).append _) hmore

/-- Regular entries are read from their text. -/
theorem readFields_fieldsText : ∀ fields : List (List UInt16 × Json), fields ≠ [] →
    RegularFields fields → ∀ fuel rest, (fieldsText fields).length < fuel →
      readFields fuel (fieldsText fields ++ '\x7d' :: rest) = .ok (fields, rest)
  | [], h, _, _, _, _ => absurd rfl h
  | _, _, _, 0, _, hfuel => absurd hfuel (Nat.not_lt_zero _)
  | [(k, v)], _, h, fuel + 1, rest, hfuel => by
      rw [fieldsText_singleton] at hfuel ⊢
      simp only [List.length_append] at hfuel
      have hv := readValue_chars v h.1 fuel ('\x7d' :: rest) (ends_mark rest).2.2 (by omega)
      rw [List.append_assoc (stringText _ ++ _)]
      exact readFields_last ((chars_starts v).append _) hv
  | (k, v) :: e :: more, _, h, fuel + 1, rest, hfuel => by
      rw [fieldsText_cons] at hfuel ⊢
      simp only [List.length_append, List.length_cons] at hfuel
      have hv := readValue_chars v h.1 fuel
        (',' :: ' ' :: (fieldsText (e :: more) ++ '\x7d' :: rest)) (ends_mark _).1 (by omega)
      have hmore := readFields_fieldsText (e :: more) (List.cons_ne_nil _ _) h.2 fuel rest
        (by omega)
      rw [List.append_assoc (stringText _ ++ _), List.append_assoc (chars _)]
      exact readFields_next ((chars_starts v).append _) hv ((fieldsText_starts e more).append _)
        hmore

end

/-- Regular values are read back from their texts. -/
theorem parse_chars {v : Json} (hv : v.Regular) : parse (chars v) = .ok v := by
  -- The fuel of a parse is more than the text is long.
  have hread := readValue_chars v hv ((chars v).length + 1) [] ends_nil (Nat.le_succ _)
  rw [List.append_nil] at hread
  rw [parse, (chars_starts v).skipSpace_eq, hread]
  rfl

/-! ## What is read is regular -/

/-- Entries are regular if each of their values is. -/
theorem regularFields_iff {fields : List (List UInt16 × Json)} :
    RegularFields fields ↔ ∀ e ∈ fields, e.2.Regular := by
  induction fields with
  | nil => exact ⟨fun _ e he => absurd he List.not_mem_nil, fun _ => trivial⟩
  | cons e rest ih => rw [RegularFields, ih, List.forall_mem_cons]

/-- Of a key that comes twice one entry is left, with a value that was there. -/
theorem RegularFields.ofEntries {entries : List (List UInt16 × Json)} (h : RegularFields entries) :
    (Json.record (Fields.ofEntries entries)).Regular := by
  refine ⟨Keyed.Distinct.foldl_set entries .nil, regularFields_iff.mpr fun e he => ?_⟩
  rcases Keyed.snd_of_mem_foldl_set entries [] e he with hnil | ⟨entry, hentry, hvalue⟩
  · exact absurd hnil List.not_mem_nil
  · rw [hvalue]
    exact regularFields_iff.mp h entry hentry

/-- So many digits stand for a number below that power of ten. -/
theorem digitsValue_lt {ds : List Char} (hds : ∀ c ∈ ds, c.isDigit) :
    digitsValue ds < 10 ^ ds.length := by
  induction ds using List.reverseRecOn with
  | nil => exact Nat.one_pos
  | append_singleton ds d ih =>
      obtain ⟨hinit, hd⟩ := List.forall_mem_append.mp hds
      have hlast : digitsValue [d] < 10 := by
        obtain ⟨_, hnine⟩ : 48 ≤ d.toNat ∧ d.toNat ≤ 57 :=
          Char.isDigit_iff_toNat.mp (hd d List.mem_cons_self)
        show 0 * 10 + (d.toNat - 48) < 10
        omega
      have hmore := ih hinit
      rw [Decimal.digitsValue_append, List.length_append, List.length_singleton, Nat.pow_one,
        Nat.pow_succ]
      omega

/-- A whole part consists of digits. -/
theorem isDigit_of_readWholePart? {cs ds rest : List Char}
    (h : readWholePart? cs = some (ds, rest)) : ∀ c ∈ ds, c.isDigit := by
  unfold readWholePart? at h
  split at h
  · cases h
    exact List.forall_mem_singleton.mpr rfl
  · split at h
    · cases h
    · cases h
      exact fun c hc => List.all_eq_true.mp List.all_takeWhile c hc

/-- A number that is read is not too long. -/
theorem regular_of_readNumber {negative : Bool} {cs rest : List Char} {v : Json}
    (h : readNumber negative cs = .ok (v, rest)) : v.Regular := by
  unfold readNumber at h
  split at h
  · cases h
  · next whole more hwhole =>
      have hlt := digitsValue_lt (isDigit_of_readWholePart? hwhole)
      simp only at h
      split at h
      · split at h
        · cases h
        · next hlength =>
            cases h
            show (Nat.toDigits 10 (Int.natAbs _)).length ≤ Decimal.maxDigits
            rw [Nat.length_toDigits_le_iff (by decide) (by decide)]
            -- The sign does not count as a digit.
            have habs : (if negative then -(digitsValue whole : Int)
                else digitsValue whole).natAbs = digitsValue whole := by
              split
              · rw [Int.natAbs_neg, Int.natAbs_natCast]
              · rw [Int.natAbs_natCast]
            rw [habs]
            exact Nat.lt_of_lt_of_le hlt
              (Nat.pow_le_pow_right (by decide) (Nat.not_lt.mp hlength))
      · cases h
        exact trivial

/-- Words and numbers are regular. -/
theorem regular_of_readScalar {cs rest : List Char} {v : Json}
    (h : readScalar cs = .ok (v, rest)) : v.Regular := by
  have hwords : ∀ w ∈ words, w.2.Regular := by simp [words, Regular]
  unfold readScalar at h
  split at h
  · next hword =>
      cases h
      exact hwords _ (List.mem_of_find?_eq_some hword)
  · split at h
    · exact regular_of_readNumber h
    · exact regular_of_readNumber h

/-- What readers with this much fuel give is regular. -/
structure Yields (fuel : Nat) : Prop where
  value {cs rest : List Char} {v : Json} : readValue fuel cs = .ok (v, rest) → v.Regular
  items {cs rest : List Char} {items : List Json} : readItems fuel cs = .ok (items, rest) →
    RegularItems items
  fields {cs rest : List Char} {entries : List (List UInt16 × Json)} :
    readFields fuel cs = .ok (entries, rest) → RegularFields entries

/-- The readers give regular values, by induction over the fuel: each round has less of it. -/
theorem yields (fuel : Nat) : Yields fuel := by
  induction fuel with
  | zero =>
      constructor
      · intro cs rest v h
        cases h
      · intro cs rest items h
        cases h
      · intro cs rest entries h
        cases h
  | succ fuel ih =>
      constructor
      · intro cs rest v h
        cases valueRound h with
        | list hread => exact ih.items hread
        | record hread => exact (ih.fields hread).ofEntries
        | scalar hread => exact regular_of_readScalar hread
        | emptyRecord _ => exact ⟨.nil, trivial⟩
        | _ => exact trivial
      · intro cs rest items h
        cases itemsRound h with
        | last hv _ => exact ⟨ih.value hv, trivial⟩
        | next hv _ hothers => exact ⟨ih.value hv, ih.items hothers⟩
      · intro cs rest entries h
        cases fieldsRound h with
        | last _ _ hv _ => exact ⟨ih.value hv, trivial⟩
        | next _ _ hv _ hothers => exact ⟨ih.value hv, ih.fields hothers⟩

/-- Whatever is read is regular. -/
theorem regular_of_parse {cs : List Char} {v : Json} (h : parse cs = .ok v) : v.Regular := by
  obtain ⟨⟨v', rest⟩, hread, hend⟩ := bind_eq_ok.mp h
  simp only at hend
  split at hend
  · cases hend
    exact (yields _).value hread
  · cases hend

/-- **A VALUE IS READ BACK FROM ITS TEXT EXACTLY IF IT IS REGULAR.** -/
theorem parse_chars_iff {v : Json} : parse (chars v) = .ok v ↔ v.Regular :=
  ⟨regular_of_parse, parse_chars⟩

/-! ## Regular values can be written -/

mutual

/-- A regular value has no number that is too long to be written. -/
theorem isWritable_of_regular : ∀ v : Json, v.Regular → v.isWritable = true
  | .null, _ | .bool _, _ | .float _, _ | .text _, _ => rfl
  | .int _, h => decide_eq_true h
  | .list items, h => itemsWritable_of_regular items h
  | .record fields, h => fieldsWritable_of_regular fields h.2

/-- Regular elements can be written. -/
theorem itemsWritable_of_regular : ∀ items : List Json, RegularItems items →
    itemsWritable items = true
  | [], _ => rfl
  | v :: rest, h =>
    Bool.and_eq_true_iff.mpr ⟨isWritable_of_regular v h.1, itemsWritable_of_regular rest h.2⟩

/-- Regular entries can be written. -/
theorem fieldsWritable_of_regular : ∀ fields : List (List UInt16 × Json), RegularFields fields →
    fieldsWritable fields = true
  | [], _ => rfl
  | (_, v) :: rest, h =>
    Bool.and_eq_true_iff.mpr ⟨isWritable_of_regular v h.1, fieldsWritable_of_regular rest h.2⟩

end

/-- A regular value is written as its text. -/
theorem write_of_regular {v : Json} (hv : v.Regular) : v.write = .ok v.render :=
  if_pos (isWritable_of_regular v hv)

/-! ## Plain values are regular -/

/-- The keys of a record, as they are written. -/
theorem keys_ofFields (fields : List (String × Value)) :
    (ofFields fields).map Prod.fst = (fields.map Prod.fst).map fun k => Text.units k.toList := by
  induction fields with
  | nil => rfl
  | cons e rest ih =>
      show Text.units e.1.toList :: (ofFields rest).map Prod.fst = _
      rw [ih]
      rfl

/-- Different keys are different as they are written. -/
theorem distinct_ofFields {fields : List (String × Value)} (h : (fields.map Prod.fst).Nodup) :
    Keyed.Distinct (ofFields fields) := by
  have hkeys : ((ofFields fields).map Prod.fst).Nodup := by
    rw [keys_ofFields]
    refine List.Pairwise.map _ ?_ h
    intro first second hne heq
    exact hne (String.toList_inj.mp (Text.units_injective heq))
  -- Texts are written in units, and no two texts in the same ones.
  exact (List.pairwise_map.mp hkeys).imp beq_false_of_ne

mutual

/-- A plain value is regular as it is written. -/
theorem regular_ofValue : ∀ v : Value, v.Plain → (ofValue v).Regular
  | .null, _ => trivial
  | .bool _, _ => trivial
  | .int _, h => h
  | .float _, _ => trivial
  | .text _, _ => trivial
  | .list items, h => regularItems_ofItems items h
  | .record fields, h => ⟨distinct_ofFields h.1, regularFields_ofFields fields h.2⟩

theorem regularItems_ofItems : ∀ items : List Value, PlainItems items →
    RegularItems (ofItems items)
  | [], _ => trivial
  | v :: rest, h => ⟨regular_ofValue v h.1, regularItems_ofItems rest h.2⟩

theorem regularFields_ofFields : ∀ fields : List (String × Value), PlainFields fields →
    RegularFields (ofFields fields)
  | [], _ => trivial
  | (_, v) :: rest, h => ⟨regular_ofValue v h.1, regularFields_ofFields rest h.2⟩

end

end LookmlProject.Json
