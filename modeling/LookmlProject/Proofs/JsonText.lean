import LookmlProject.Json.Reader
import LookmlProject.Json.Writer
import LookmlProject.Proofs.Bytes

/-! # The parts of JSON texts

    What the reader does with each part of a JSON text.

    • Strings: a unit is spelled in one of three ways (`Spells`), each of which is
      read as that unit whatever stands behind it; the induction over the units is
      `readString_units`.
    • Numbers: the digits end where a value may end (`Ends`), so neither a
      fraction nor an exponent is seen behind them (`readNumber_toDigits`).  A whole
      number of too many digits is refused (`parse_int_of_long`).
    • Lists and records: the text of a value starts with a character that the
      reader does not take for the end of a list or a record (`Starts`), so that a
      list is read element by element and a record entry by entry.
    • The other way round, what a reader gives tells what it took: one round of each
      of the three readers (`valueRound`, `itemsRound`, `fieldsRound`). -/

namespace LookmlProject.Json

/-! ## Strings -/

/-- A number that is a character's is that of the character made from it. -/
theorem toNat_ofNat {n : Nat} (h : n.isValidChar) : (Char.ofNat n).toNat = n := by
  rw [Char.ofNat, dif_pos h]
  rfl

theorem hexValue?_digitChar : ∀ d < 16, hexValue? d.digitChar = some d := by
  decide

/-- Four digits in base sixteen, with zeros in front. -/
theorem padZeros_hex {n : Nat} (h : n < 0x10000) :
    Decimal.padZeros 4 (Nat.toDigits 16 n) =
      [(n / 4096).digitChar, (n / 256 % 16).digitChar, (n / 16 % 16).digitChar,
        (n % 16).digitChar] := by
  -- One digit, two, three or four: each round takes the last one off.
  by_cases h1 : n < 16
  · rw [Nat.toDigits_of_lt_base h1, show n / 4096 = 0 by omega, show n / 256 = 0 by omega,
      show n / 16 = 0 by omega, Nat.mod_eq_of_lt h1]
    rfl
  rw [Nat.toDigits_of_base_le (by decide) (Nat.not_lt.mp h1)]
  by_cases h2 : n / 16 < 16
  · rw [Nat.toDigits_of_lt_base h2, show n / 4096 = 0 by omega, show n / 256 = 0 by omega,
      Nat.mod_eq_of_lt h2]
    rfl
  rw [Nat.toDigits_of_base_le (by decide) (Nat.not_lt.mp h2), Nat.div_div_eq_div_mul]
  by_cases h3 : n / 256 < 16
  · rw [Nat.toDigits_of_lt_base h3, show n / 4096 = 0 by omega, Nat.mod_eq_of_lt h3]
    rfl
  rw [Nat.toDigits_of_base_le (by decide) (Nat.not_lt.mp h3), Nat.div_div_eq_div_mul,
    Nat.toDigits_of_lt_base (by omega)]
  rfl

/-- Four digits in base sixteen are read back as their number. -/
theorem readUnit?_hex {n : Nat} (h : n < 0x10000) (rest : List Char) :
    readUnit? (Decimal.padZeros 4 (Nat.toDigits 16 n) ++ rest) = some (n, rest) := by
  have hsum : ((n / 4096 * 16 + n / 256 % 16) * 16 + n / 16 % 16) * 16 + n % 16 = n := by omega
  rw [padZeros_hex h]
  simp only [List.cons_append, List.nil_append, readUnit?,
    hexValue?_digitChar _ (show n / 4096 < 16 by omega),
    hexValue?_digitChar _ (show n / 256 % 16 < 16 by omega),
    hexValue?_digitChar _ (show n / 16 % 16 < 16 by omega),
    hexValue?_digitChar _ (show n % 16 < 16 by omega)]
  exact congrArg (fun m => some (m, rest)) hsum

/-- A character that is neither a quote, a backslash nor a control character stands for itself. -/
theorem readString?_plain {c : Char} (hquote : c ≠ '"') (hescape : c ≠ '\\') (hc : 32 ≤ c.toNat)
    (fuel : Nat) (rest : List Char) :
    readString? (fuel + 1) (c :: rest) =
      (readString? fuel rest).map fun r => (Text.charUnits c ++ r.1, r.2) := by
  rw [readString?.eq_def]
  simp only [if_neg hquote, if_neg hescape, if_neg (Nat.not_lt.mpr hc)]

/-- A backslash with a letter stands for the character of the escape. -/
theorem readString?_escape {e x : Char} (hx : escape? e = some x) (fuel : Nat)
    (rest : List Char) :
    readString? (fuel + 1) ('\\' :: e :: rest) =
      (readString? fuel rest).map fun r => (Text.charUnits x ++ r.1, r.2) := by
  have hunit : e ≠ 'u' := by
    rintro rfl
    exact nomatch hx
  rw [readString?.eq_def]
  simp only [hx]
  rfl

/-- A backslash with a `u` and four digits stands for the unit of that number. -/
theorem readString?_number {digits rest : List Char} {n : Nat}
    (h : readUnit? digits = some (n, rest)) (fuel : Nat) :
    readString? (fuel + 1) ('\\' :: 'u' :: digits) =
      (readString? fuel rest).map fun r => (n.toUInt16 :: r.1, r.2) := by
  rw [readString?.eq_def]
  simp only [h]
  rfl

/-- A unit below the halves of pairs is the one unit of its character. -/
theorem charUnits_ofNat {u : UInt16} (h : u.toNat < 0xD800) :
    Text.charUnits (Char.ofNat u.toNat) = [u] := by
  have hnat : (Char.ofNat u.toNat).toNat = u.toNat := toNat_ofNat (Or.inl h)
  rw [Text.charUnits, hnat, if_pos (Nat.lt_trans h (by decide))]
  exact congrArg (fun w => [w]) UInt16.ofNat_toNat

/-- The three ways to spell a unit: the character itself, an escape letter, or its number. -/
inductive Spells (u : UInt16) : List Char → Prop where
  | plain {c : Char} : Text.charUnits c = [u] → c ≠ '"' → c ≠ '\\' → 32 ≤ c.toNat → Spells u [c]
  | escape {e x : Char} : escape? e = some x → Text.charUnits x = [u] → Spells u ['\\', e]
  | number : Spells u (unitEscape u)

/-- What is written for a unit is one of its spellings. -/
theorem unitText_spells (u : UInt16) : Spells u (unitText u) := by
  simp only [unitText]
  split
  · next hvisible =>
      simp only [Bool.and_eq_true, decide_eq_true_eq, UInt16.le_iff_toNat_le,
        UInt16.lt_iff_toNat_lt] at hvisible
      obtain ⟨hlow, hhigh⟩ : 32 ≤ u.toNat ∧ u.toNat < 127 := hvisible
      have hvalid : u.toNat < 0xD800 := Nat.lt_trans hhigh (by decide)
      have hnat : (Char.ofNat u.toNat).toNat = u.toNat := toNat_ofNat (Or.inl hvalid)
      split
      · next hspecial =>
          have hescape : escape? (Char.ofNat u.toNat) = some (Char.ofNat u.toNat) := by
            rcases Bool.or_eq_true _ _ ▸ hspecial with h | h <;>
              rw [of_decide_eq_true h] <;> rfl
          exact .escape hescape (charUnits_ofNat hvalid)
      · next hspecial =>
          simp only [Bool.or_eq_true, decide_eq_true_eq, not_or] at hspecial
          exact .plain (charUnits_ofNat hvalid) hspecial.1 hspecial.2 (by omega)
  · -- The five control characters with an escape letter, and then all that is left.
    split
    · next hu => exact hu ▸ .escape rfl rfl
    split
    · next hu => exact hu ▸ .escape rfl rfl
    split
    · next hu => exact hu ▸ .escape rfl rfl
    split
    · next hu => exact hu ▸ .escape rfl rfl
    split
    · next hu => exact hu ▸ .escape rfl rfl
    · exact .number

/-- One unit is read back, whatever stands behind it. -/
theorem Spells.readString? {u : UInt16} {text : List Char} (h : Spells u text) (fuel : Nat)
    (rest : List Char) : readString? (fuel + 1) (text ++ rest) =
      (readString? fuel rest).map fun r => (u :: r.1, r.2) := by
  cases h with
  | plain hunits hquote hescape hc =>
      rw [List.singleton_append, readString?_plain hquote hescape hc, hunits]
      rfl
  | escape hx hunits =>
      rw [List.cons_append, List.singleton_append, readString?_escape hx, hunits]
      rfl
  | number =>
      rw [unitEscape, List.cons_append, List.cons_append,
        readString?_number (readUnit?_hex u.toNat_lt rest),
        show u.toNat.toUInt16 = u from UInt16.ofNat_toNat]

theorem Spells.ne_nil {u : UInt16} {text : List Char} (h : Spells u text) : text ≠ [] := by
  cases h <;> exact List.cons_ne_nil _ _

/-- The units of a string are read back up to its closing quote. -/
theorem readString_units (units : List UInt16) (rest : List Char) :
    readString (units.flatMap unitText ++ '"' :: rest) = .ok (units, rest) := by
  have hread : ∀ fuel, units.length < fuel →
      readString? fuel (units.flatMap unitText ++ '"' :: rest) = some (units, rest) := by
    induction units with
    | nil =>
        intro fuel hfuel
        obtain ⟨fuel, rfl⟩ := Nat.exists_eq_succ_of_ne_zero (Nat.ne_of_gt hfuel)
        rfl
    | cons u more ih =>
        intro fuel hfuel
        obtain ⟨fuel, rfl⟩ := Nat.exists_eq_succ_of_ne_zero (Nat.ne_zero_of_lt hfuel)
        rw [List.flatMap_cons, List.append_assoc, (unitText_spells u).readString?,
          ih fuel (Nat.lt_of_succ_lt_succ hfuel)]
        rfl
  -- The reader takes its fuel from the text, in which each unit has a character at least.
  have hlength := length_le_flatMap (fun u => (unitText_spells u).ne_nil) units
  rw [readString, hread _ (by rw [List.length_append]; omega)]

/-! ## Whole numbers -/

/-- What may stand behind a value: nothing, a comma or a closing bracket. -/
def Ends (rest : List Char) : Prop := ∀ c ∈ rest.head?, c = ',' ∨ c = ']' ∨ c = '\x7d'

/-- A text goes on with something other than a digit, if it goes on. -/
def Stops (rest : List Char) : Prop := ∀ c ∈ rest.head?, c.isDigit = false

/-- Digits stop where a value ends. -/
theorem Ends.stops {rest : List Char} (hrest : Ends rest) : Stops rest := by
  intro c hc
  rcases hrest c hc with rfl | rfl | rfl <;> rfl

/-- Digits in front of something else are cut off exactly. -/
theorem takeWhile_digits {ds rest : List Char} (hds : ∀ c ∈ ds, c.isDigit) (hrest : Stops rest) :
    (ds ++ rest).takeWhile Char.isDigit = ds ∧ (ds ++ rest).dropWhile Char.isDigit = rest := by
  have hstop : rest.takeWhile Char.isDigit = [] ∧ rest.dropWhile Char.isDigit = rest := by
    cases rest with
    | nil => exact ⟨rfl, rfl⟩
    | cons c more =>
        have hc := hrest c rfl
        rw [List.takeWhile_cons_of_neg (by simp [hc]), List.dropWhile_cons_of_neg (by simp [hc])]
        exact ⟨rfl, rfl⟩
  rw [List.takeWhile_append_of_pos hds, List.dropWhile_append_of_pos hds, hstop.1, hstop.2]
  exact ⟨List.append_nil ds, rfl⟩

theorem digitsValue_toDigits (n : Nat) : digitsValue (Nat.toDigits 10 n) = n := by
  rw [digitsValue]
  simp only [Nat.mul_comm _ 10]
  exact Nat.ofDigitChars_ten_toDigits

/-- A number is written with a first digit, which is a zero for zero alone. -/
theorem toDigits_head (n : Nat) :
    ∃ d ds, Nat.toDigits 10 n = d :: ds ∧ d.isDigit ∧ (0 < n → d ≠ '0') := by
  induction n using Nat.strongRecOn with
  | _ n ih =>
      by_cases hn : n < 10
      · have hdigit : ∀ d < 10, d.digitChar.isDigit ∧ (0 < d → d.digitChar ≠ '0') := by decide
        exact ⟨n.digitChar, [], Nat.toDigits_of_lt_base hn, hdigit n hn⟩
      · obtain ⟨d, ds, hds, hd, hzero⟩ := ih (n / 10) (by omega)
        rw [Nat.toDigits_of_base_le (by decide) (Nat.not_lt.mp hn), hds]
        exact ⟨d, _, rfl, hd, fun _ => hzero (by omega)⟩

/-- Digits that do not start with a zero are a whole part. -/
theorem readWholePart?_digits {d : Char} {ds rest : List Char} (hzero : d ≠ '0')
    (hds : ∀ c ∈ d :: ds, c.isDigit) (hrest : Stops rest) :
    readWholePart? (d :: ds ++ rest) = some (d :: ds, rest) := by
  obtain ⟨htake, hdrop⟩ := takeWhile_digits hds hrest
  rw [List.cons_append] at htake hdrop ⊢
  rw [readWholePart?]
  · rw [htake, hdrop]
  · rintro more h
    exact hzero (List.cons.inj h).1

/-- The digits of a number are a whole part, zero included. -/
theorem readWholePart?_toDigits (n : Nat) {rest : List Char} (hrest : Ends rest) :
    readWholePart? (Nat.toDigits 10 n ++ rest) = some (Nat.toDigits 10 n, rest) := by
  rcases Nat.eq_zero_or_pos n with rfl | hn
  · rfl
  · obtain ⟨d, ds, hds, _, hzero⟩ := toDigits_head n
    have hdigits : ∀ c ∈ Nat.toDigits 10 n, c.isDigit := by
      intro c hc
      exact Nat.isDigit_of_mem_toDigits (by decide) (by decide) hc
    rw [hds] at hdigits ⊢
    exact readWholePart?_digits (hzero hn) hdigits hrest.stops

/-- No fraction stands where a value ends. -/
theorem readFraction_of_ends {rest : List Char} (hrest : Ends rest) :
    readFraction rest = (none, rest) := by
  rw [readFraction]
  rintro more rfl
  rcases hrest '.' rfl with h | h | h <;> exact absurd h (by decide)

/-- No exponent stands where a value ends. -/
theorem readExponent_of_ends {rest : List Char} (hrest : Ends rest) :
    readExponent rest = (none, rest) := by
  cases rest with
  | nil => rfl
  | cons c more =>
      have hc : (c = 'e' || c = 'E') = false := by
        rcases hrest c rfl with rfl | rfl | rfl <;> rfl
      simp only [readExponent, hc, Bool.false_eq_true, if_false]

/-- The digits of a number are read back, or refused if they are too many. -/
theorem readNumber_toDigits (negative : Bool) (n : Nat) {rest : List Char} (hrest : Ends rest) :
    readNumber negative (Nat.toDigits 10 n ++ rest) =
      if Decimal.maxDigits < (Nat.toDigits 10 n).length then .error .badValue
      else .ok (.int (if negative then -(n : Int) else n), rest) := by
  simp only [readNumber, readWholePart?_toDigits n hrest, readFraction_of_ends hrest,
    readExponent_of_ends hrest, digitsValue_toDigits]

/-- A whole number is written as its digits, behind a dash if it is negative. -/
theorem chars_int (n : Int) : chars (.int n) =
    (if 0 ≤ n then [] else ['-']) ++ Nat.toDigits 10 n.natAbs := by
  rw [chars, Int.toString_eq_repr, Int.repr_eq_if]
  split
  · next h => rw [Nat.toList_repr, show n.toNat = n.natAbs by omega]; rfl
  · next h => rw [String.toList_append, Nat.toList_repr, show (-n).toNat = n.natAbs by omega]; rfl

/-- What starts neither a string, a list nor a record is read as a word or a number. -/
theorem readValue_scalar {c : Char} (hquote : c ≠ '"') (hlist : c ≠ '[') (hrecord : c ≠ '\x7b')
    (fuel : Nat) (cs : List Char) : readValue (fuel + 1) (c :: cs) = readScalar (c :: cs) := by
  -- The equation for scalars is the last of four, and holds where the other three do not apply.
  rw [readValue]
  · rintro rest h
    exact hquote (List.cons.inj h).1
  · rintro rest h
    exact hlist (List.cons.inj h).1
  · rintro rest h
    exact hrecord (List.cons.inj h).1

/-- What starts a number is none of the marks. -/
theorem ne_of_numeric {c x : Char} (hc : c = '-' ∨ c.isDigit) (hdash : x ≠ '-')
    (hdigit : x.isDigit = false) : c ≠ x := by
  rintro rfl
  rcases hc with hc | hc
  · exact hdash hc
  · exact Bool.false_ne_true (hdigit.symm.trans hc)

theorem chars_int_head (n : Int) : ∃ c cs, chars (.int n) = c :: cs ∧ (c = '-' ∨ c.isDigit) := by
  obtain ⟨d, ds, hds, hd, _⟩ := toDigits_head n.natAbs
  rw [chars_int, hds]
  split
  · exact ⟨d, ds, rfl, .inr hd⟩
  · exact ⟨'-', d :: ds, rfl, .inl rfl⟩

/-- No word starts like a number. -/
theorem words_digit {d : Char} (hd : d.isDigit) (ds : List Char) :
    (words.find? fun w => w.1.isPrefixOf (d :: ds)) = none ∧
      (words.find? fun w => w.1.isPrefixOf ('-' :: d :: ds)) = none := by
  have hne : ∀ c : Char, c.isDigit = false → (c == d) = false := by
    intro c hc
    rw [beq_eq_false_iff_ne]
    rintro rfl
    exact Bool.false_ne_true (hc.symm.trans hd)
  have hn := hne 'n' rfl
  have ht := hne 't' rfl
  have hf := hne 'f' rfl
  have hN := hne 'N' rfl
  have hI := hne 'I' rfl
  have hm := hne '-' rfl
  constructor <;> simp [words, List.isPrefixOf, hn, ht, hf, hN, hI, hm]

/-- A number behind its sign is no word. -/
theorem readScalar_number (negative : Bool) {c : Char} (hc : c.isDigit) (cs : List Char) :
    readScalar ((if negative then ['-'] else []) ++ c :: cs) = readNumber negative (c :: cs) := by
  obtain ⟨hplus, hminus⟩ := words_digit hc cs
  cases negative with
  | true =>
      show readScalar ('-' :: c :: cs) = _
      rw [readScalar, hminus]
  | false =>
      show readScalar (c :: cs) = _
      rw [readScalar, hplus]
      rintro more h
      rw [(List.cons.inj h).1] at hc
      cases hc

/-- A whole number is read back from its text, or refused if it is too long. -/
theorem readScalar_int (n : Int) {rest : List Char} (hrest : Ends rest) :
    readScalar (chars (.int n) ++ rest) =
      if Decimal.maxDigits < (Nat.toDigits 10 n.natAbs).length then .error .badValue
      else .ok (.int n, rest) := by
  obtain ⟨d, ds, hds, hd, _⟩ := toDigits_head n.natAbs
  rw [chars_int]
  -- The sign is read apart from the digits, so the two cases differ by the sign given to
  -- `readNumber`.
  split
  · next hn =>
      have hread := readNumber_toDigits false n.natAbs hrest
      rw [if_neg Bool.false_ne_true, Int.natAbs_of_nonneg hn, hds] at hread
      rw [hds]
      exact (readScalar_number false hd (ds ++ rest)).trans hread
  · next hn =>
      have hread := readNumber_toDigits true n.natAbs hrest
      rw [if_pos rfl, show -(n.natAbs : Int) = n by omega, hds] at hread
      rw [hds]
      exact (readScalar_number true hd (ds ++ rest)).trans hread

/-- A whole number is read back, or refused if it has too many digits. -/
theorem readValue_int (n : Int) (fuel : Nat) {rest : List Char} (hrest : Ends rest) :
    readValue (fuel + 1) (chars (.int n) ++ rest) =
      if Decimal.maxDigits < (Nat.toDigits 10 n.natAbs).length then .error .badValue
      else .ok (.int n, rest) := by
  rw [← readScalar_int n hrest]
  obtain ⟨c, cs, hcs, hc⟩ := chars_int_head n
  rw [hcs, List.cons_append, readValue_scalar (ne_of_numeric hc (by decide) rfl)
    (ne_of_numeric hc (by decide) rfl) (ne_of_numeric hc (by decide) rfl)]

/-! ## Lists and records -/

/-- A text starts with a character that is neither white space nor a closing bracket. -/
def Starts (cs : List Char) : Prop :=
  ∃ c rest, cs = c :: rest ∧ isSpace c = false ∧ c ≠ ']' ∧ c ≠ '\x7d'

theorem Starts.append {cs : List Char} (h : Starts cs) (rest : List Char) :
    Starts (cs ++ rest) := by
  obtain ⟨c, more, rfl, hc⟩ := h
  exact ⟨c, more ++ rest, rfl, hc⟩

/-- There is no white space to skip where a value starts. -/
theorem Starts.skipSpace_eq {cs : List Char} (h : Starts cs) : skipSpace cs = cs := by
  obtain ⟨c, more, rfl, hc, _⟩ := h
  rw [skipSpace, List.dropWhile_cons_of_neg (by simp [hc])]

/-- A list with elements is read behind its bracket. -/
theorem readValue_list {fuel : Nat} {cs rest : List Char} {items : List Json} (hstart : Starts cs)
    (h : readItems fuel cs = .ok (items, rest)) :
    readValue (fuel + 1) ('[' :: cs) = .ok (.list items, rest) := by
  have hskip := hstart.skipSpace_eq
  obtain ⟨c, more, rfl, _, hc, _⟩ := hstart
  rw [readValue, hskip]
  split
  · next heq => exact absurd (List.cons.inj heq).1 hc
  · rw [h]
    rfl

/-- A record with entries is read behind its brace. -/
theorem readValue_record {fuel : Nat} {cs rest : List Char} {entries : List (List UInt16 × Json)}
    (hstart : Starts cs) (h : readFields fuel cs = .ok (entries, rest)) :
    readValue (fuel + 1) ('\x7b' :: cs) = .ok (.record (Fields.ofEntries entries), rest) := by
  have hskip := hstart.skipSpace_eq
  obtain ⟨c, more, rfl, _, _, hc⟩ := hstart
  rw [readValue, hskip]
  split
  · next heq => exact absurd (List.cons.inj heq).1 hc
  · rw [h]
    rfl

/-- A value in front of a bracket is the last element. -/
theorem readItems_last {fuel : Nat} {cs rest : List Char} {v : Json}
    (h : readValue fuel cs = .ok (v, ']' :: rest)) :
    readItems (fuel + 1) cs = .ok ([v], rest) := by
  rw [readItems, h]
  rfl

/-- A value in front of a comma is followed by the other elements. -/
theorem readItems_next {fuel : Nat} {cs more rest : List Char} {v : Json} {items : List Json}
    (hv : readValue fuel cs = .ok (v, ',' :: ' ' :: more)) (hmore : Starts more)
    (hitems : readItems fuel more = .ok (items, rest)) :
    readItems (fuel + 1) cs = .ok (v :: items, rest) := by
  rw [readItems, hv]
  show (readItems fuel (skipSpace more) >>= fun r => pure (v :: r.1, r.2)) = _
  rw [hmore.skipSpace_eq, hitems]
  rfl

theorem stringText_append (key : List UInt16) (cs : List Char) :
    stringText key ++ ": ".toList ++ cs =
      '"' :: (key.flatMap unitText ++ '"' :: ':' :: ' ' :: cs) := by
  simp [stringText]

/-- A key with a value in front of a brace is the last entry. -/
theorem readFields_last {fuel : Nat} {cs rest : List Char} {key : List UInt16} {v : Json}
    (hstart : Starts cs) (h : readValue fuel cs = .ok (v, '\x7d' :: rest)) :
    readFields (fuel + 1) (stringText key ++ ": ".toList ++ cs) = .ok ([(key, v)], rest) := by
  rw [stringText_append, readFields, readString_units]
  show (readValue fuel (skipSpace cs) >>= _) = _
  rw [hstart.skipSpace_eq, h]
  rfl

/-- A key with a value in front of a comma is followed by the other entries. -/
theorem readFields_next {fuel : Nat} {cs more rest : List Char} {key : List UInt16} {v : Json}
    {entries : List (List UInt16 × Json)} (hstart : Starts cs)
    (hv : readValue fuel cs = .ok (v, ',' :: ' ' :: more)) (hmore : Starts more)
    (hentries : readFields fuel more = .ok (entries, rest)) :
    readFields (fuel + 1) (stringText key ++ ": ".toList ++ cs) =
      .ok ((key, v) :: entries, rest) := by
  rw [stringText_append, readFields, readString_units]
  show (readValue fuel (skipSpace cs) >>= _) = _
  rw [hstart.skipSpace_eq, hv]
  show (readFields fuel (skipSpace more) >>= fun r => pure ((key, v) :: r.1, r.2)) = _
  rw [hmore.skipSpace_eq, hentries]
  rfl

/-- What starts a number is neither white space nor a closing bracket. -/
theorem starts_of_numeric {c : Char} (hc : c = '-' ∨ c.isDigit) :
    isSpace c = false ∧ c ≠ ']' ∧ c ≠ '\x7d' := by
  have hne : ∀ x : Char, x ≠ '-' → x.isDigit = false → c ≠ x := fun x => ne_of_numeric hc
  refine ⟨?_, hne _ (by decide) rfl, hne _ (by decide) rfl⟩
  simp only [isSpace, Bool.or_eq_false_iff, beq_eq_false_iff_ne]
  exact ⟨⟨⟨hne _ (by decide) rfl, hne _ (by decide) rfl⟩, hne _ (by decide) rfl⟩,
    hne _ (by decide) rfl⟩

theorem chars_int_starts (n : Int) : Starts (chars (.int n)) := by
  obtain ⟨c, cs, hcs, hc⟩ := chars_int_head n
  exact ⟨c, cs, hcs, starts_of_numeric hc⟩

/-- The text between the brackets of a list. -/
def itemsText (items : List Json) : List Char := Text.joinWith ", ".toList (itemTexts items)

/-- The text between the braces of a record. -/
def fieldsText (fields : List (List UInt16 × Json)) : List Char :=
  Text.joinWith ", ".toList (fieldTexts fields)

theorem itemsText_cons (v w : Json) (more : List Json) :
    itemsText (v :: w :: more) = chars v ++ ',' :: ' ' :: itemsText (w :: more) := by
  simp [itemsText, itemTexts, Text.joinWith]

theorem fieldsText_singleton (k : List UInt16) (v : Json) :
    fieldsText [(k, v)] = stringText k ++ ": ".toList ++ chars v := rfl

theorem fieldsText_cons (k : List UInt16) (v : Json) (e : List UInt16 × Json)
    (more : List (List UInt16 × Json)) :
    fieldsText ((k, v) :: e :: more) =
      stringText k ++ ": ".toList ++ (chars v ++ ',' :: ' ' :: fieldsText (e :: more)) := by
  simp [fieldsText, fieldTexts, Text.joinWith]

/-- The text of entries starts with a quote. -/
theorem fieldsText_starts (e : List UInt16 × Json) (more : List (List UInt16 × Json)) :
    Starts (fieldsText (e :: more)) := by
  cases more with
  | nil => exact ⟨_, _, rfl, by decide⟩
  | cons e' more => exact ⟨_, _, rfl, by decide⟩

theorem ends_nil : Ends [] := by
  rintro c ⟨⟩

/-- A value may end in front of each of the three marks. -/
theorem ends_mark (rest : List Char) :
    Ends (',' :: rest) ∧ Ends (']' :: rest) ∧ Ends ('\x7d' :: rest) := by
  refine ⟨?_, ?_, ?_⟩ <;> rintro c ⟨⟩ <;> simp

/-- The text of a whole number of too many digits is refused. -/
theorem parse_int_of_long {n : Int} (h : Decimal.maxDigits < (Nat.toDigits 10 n.natAbs).length) :
    parse (chars (.int n)) = .error .badValue := by
  have hread := readValue_int n (chars (.int n)).length ends_nil
  rw [List.append_nil, if_pos h] at hread
  rw [parse, (chars_int_starts n).skipSpace_eq, hread]
  rfl

/-! ## One round of the readers -/

/-- What the reader of values takes in one round. -/
inductive ValueRound (fuel : Nat) : List Char → Json → List Char → Prop where
  | text {cs rest : List Char} {units : List UInt16} : readString cs = .ok (units, rest) →
      ValueRound fuel ('"' :: cs) (.text units) rest
  | emptyList {cs rest : List Char} : skipSpace cs = ']' :: rest →
      ValueRound fuel ('[' :: cs) (.list []) rest
  | list {cs rest : List Char} {items : List Json} :
      readItems fuel (skipSpace cs) = .ok (items, rest) →
      ValueRound fuel ('[' :: cs) (.list items) rest
  | emptyRecord {cs rest : List Char} : skipSpace cs = '\x7d' :: rest →
      ValueRound fuel ('\x7b' :: cs) (.record []) rest
  | record {cs rest : List Char} {entries : List (List UInt16 × Json)} :
      readFields fuel (skipSpace cs) = .ok (entries, rest) →
      ValueRound fuel ('\x7b' :: cs) (.record (Fields.ofEntries entries)) rest
  | scalar {cs rest : List Char} {v : Json} : readScalar cs = .ok (v, rest) →
      ValueRound fuel cs v rest

/-- Whatever a value is read from, one of the six rounds has read it. -/
theorem valueRound {fuel : Nat} {cs rest : List Char} {v : Json}
    (h : readValue (fuel + 1) cs = .ok (v, rest)) : ValueRound fuel cs v rest := by
  unfold readValue at h
  split at h
  · obtain ⟨⟨units, more⟩, hread, heq⟩ := bind_eq_ok.mp h
    cases heq
    exact .text hread
  · split at h
    · next hend =>
        cases h
        exact .emptyList hend
    · obtain ⟨⟨items, more⟩, hread, heq⟩ := bind_eq_ok.mp h
      cases heq
      exact .list hread
  · split at h
    · next hend =>
        cases h
        exact .emptyRecord hend
    · obtain ⟨⟨entries, more⟩, hread, heq⟩ := bind_eq_ok.mp h
      cases heq
      exact .record hread
  · exact .scalar h

/-- What the reader of elements takes in one round. -/
inductive ItemsRound (fuel : Nat) : List Char → List Json → List Char → Prop where
  | last {cs text rest : List Char} {v : Json} : readValue fuel cs = .ok (v, text) →
      skipSpace text = ']' :: rest → ItemsRound fuel cs [v] rest
  | next {cs text more rest : List Char} {v : Json} {items : List Json} :
      readValue fuel cs = .ok (v, text) → skipSpace text = ',' :: more →
      readItems fuel (skipSpace more) = .ok (items, rest) → ItemsRound fuel cs (v :: items) rest

/-- Elements are read one round at a time. -/
theorem itemsRound {fuel : Nat} {cs rest : List Char} {items : List Json}
    (h : readItems (fuel + 1) cs = .ok (items, rest)) : ItemsRound fuel cs items rest := by
  rw [readItems] at h
  obtain ⟨⟨v, text⟩, hv, hnext⟩ := bind_eq_ok.mp h
  simp only at hnext
  split at hnext
  · next hmark =>
      cases hnext
      exact .last hv hmark
  · next hmark =>
      obtain ⟨⟨others, text'⟩, hothers, heq⟩ := bind_eq_ok.mp hnext
      cases heq
      exact .next hv hmark hothers
  · cases hnext

/-- What the reader of entries takes in one round. -/
inductive FieldsRound (fuel : Nat) :
    List Char → List (List UInt16 × Json) → List Char → Prop where
  | last {cs text value text' rest : List Char} {key : List UInt16} {v : Json} :
      readString cs = .ok (key, text) → skipSpace text = ':' :: value →
      readValue fuel (skipSpace value) = .ok (v, text') → skipSpace text' = '\x7d' :: rest →
      FieldsRound fuel ('"' :: cs) [(key, v)] rest
  | next {cs text value text' more rest : List Char} {key : List UInt16} {v : Json}
      {entries : List (List UInt16 × Json)} :
      readString cs = .ok (key, text) → skipSpace text = ':' :: value →
      readValue fuel (skipSpace value) = .ok (v, text') → skipSpace text' = ',' :: more →
      readFields fuel (skipSpace more) = .ok (entries, rest) →
      FieldsRound fuel ('"' :: cs) ((key, v) :: entries) rest

/-- Entries are read one round at a time. -/
theorem fieldsRound {fuel : Nat} {cs rest : List Char} {entries : List (List UInt16 × Json)}
    (h : readFields (fuel + 1) cs = .ok (entries, rest)) : FieldsRound fuel cs entries rest := by
  unfold readFields at h
  split at h
  · obtain ⟨⟨key, text⟩, hkey, hnext⟩ := bind_eq_ok.mp h
    simp only at hnext
    split at hnext
    · next hcolon =>
        obtain ⟨⟨v, text'⟩, hv, hlast⟩ := bind_eq_ok.mp hnext
        simp only at hlast
        split at hlast
        · next hmark =>
            cases hlast
            exact .last hkey hcolon hv hmark
        · next hmark =>
            obtain ⟨⟨others, text''⟩, hothers, heq⟩ := bind_eq_ok.mp hlast
            cases heq
            exact .next hkey hcolon hv hmark hothers
        · cases hlast
    · cases hnext
  · cases h

end LookmlProject.Json
