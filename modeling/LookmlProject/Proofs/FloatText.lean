import LookmlProject.Proofs.ShortestDecimals

/-! # Floating-point numbers are read back

    Every floating-point number is read back from its text (`readValue_float`),
    bit by bit.

    • The parts of a number are read one after the other: whole part, fraction and
      exponent (`readNumber_parts`).
    • A decimal is written in one of five shapes, and each of them is read as
      digits and an exponent that stand for the same decimal
      (`readAs_positional`, `readAs_scientific`).
    • The shortest decimal of a number is rounded to the number, so that it is read
      as the number.  What is no number, the infinite ones and the two zeros have
      texts of their own. -/

namespace LookmlProject.Json

open Decimal (Digits Layout digitsValue_append digitsValue_zeros)

/-! ## The parts of a number -/

/-- A number with a fraction or an exponent is a decimal. -/
theorem readNumber_parts (negative : Bool) {cs whole tail after rest : List Char}
    {places : Option (List Char)} {exponent : Option Int}
    (hwhole : readWholePart? cs = some (whole, tail))
    (hplaces : readFraction tail = (places, after))
    (hexponent : readExponent after = (exponent, rest))
    (hparts : places.isSome ∨ exponent.isSome) :
    readNumber negative cs = .ok (.float (scaled negative (digitsValue (whole ++ places.getD []))
      (exponent.getD 0 - (places.getD []).length)), rest) := by
  simp only [readNumber, hwhole, hplaces, hexponent]
  split
  · rcases hparts with h | h <;> cases h
  · rfl

/-- Digits behind a point are a fraction. -/
theorem readFraction_point {ds rest : List Char} (hne : ds ≠ []) (hds : ∀ c ∈ ds, c.isDigit)
    (hrest : Stops rest) : readFraction ('.' :: (ds ++ rest)) = (some ds, rest) := by
  obtain ⟨htake, hdrop⟩ := takeWhile_digits hds hrest
  obtain ⟨d, ds, rfl⟩ := List.exists_cons_of_ne_nil hne
  rw [readFraction, htake, hdrop]

/-- An exponent as it is written: its sign and at least two digits. -/
def exponentText (e : Int) : List Char :=
  (if e < 0 then '-' else '+') :: Decimal.padZeros 2 (Nat.toDigits 10 e.natAbs)

/-- An exponent is read back from its text. -/
theorem readExponent_text (e : Int) {rest : List Char} (hrest : Stops rest) :
    readExponent ('e' :: (exponentText e ++ rest)) = (some e, rest) := by
  -- The zeros that pad an exponent do not change its value.
  have hvalue : digitsValue (Decimal.padZeros 2 (Nat.toDigits 10 e.natAbs)) = e.natAbs := by
    rw [Decimal.padZeros, digitsValue_append, digitsValue_zeros, digitsValue_toDigits, Nat.zero_mul,
      Nat.zero_add]
  have hdigits : ∀ c ∈ Decimal.padZeros 2 (Nat.toDigits 10 e.natAbs), c.isDigit := by
    intro c hc
    rcases List.mem_append.mp hc with hc | hc
    · rw [List.eq_of_mem_replicate hc]
      rfl
    · exact Nat.isDigit_of_mem_toDigits (by decide) (by decide) hc
  have hne : Decimal.padZeros 2 (Nat.toDigits 10 e.natAbs) ≠ [] := by
    obtain ⟨d, ds, hds, _⟩ := toDigits_head e.natAbs
    rw [Decimal.padZeros, hds]
    exact List.append_ne_nil_of_right_ne_nil _ (List.cons_ne_nil _ _)
  obtain ⟨htake, hdrop⟩ := takeWhile_digits hdigits hrest
  obtain ⟨d, ds, hds⟩ := List.exists_cons_of_ne_nil hne
  rw [exponentText, List.cons_append]
  rw [hds] at hvalue htake hdrop ⊢
  split
  · next he =>
      simp only [readExponent, htake, hdrop, hvalue]
      show (some (-1 * (e.natAbs : Int)), rest) = _
      rw [show -1 * (e.natAbs : Int) = e by omega]
  · next he =>
      simp only [readExponent, htake, hdrop, hvalue]
      show (some (1 * (e.natAbs : Int)), rest) = _
      rw [show 1 * (e.natAbs : Int) = e by omega]

/-! ## The shapes of decimals -/

/-- A text is read as a decimal, with either sign and whatever ends it. -/
def ReadAs (text : List Char) (value : ℚ) : Prop :=
  ∃ (n : Nat) (e : Int), (n : ℚ) * 10 ^ e = value ∧ ∀ negative rest, Ends rest →
    readNumber negative (text ++ rest) = .ok (.float (scaled negative n e), rest)

/-- Digits are read as a whole part. -/
def IsWholePart (whole : List Char) : Prop :=
  ∀ tail, Stops tail → readWholePart? (whole ++ tail) = some (whole, tail)

/-- A character that is no digit ends digits. -/
theorem stops_cons {c : Char} (hc : c.isDigit = false) (rest : List Char) : Stops (c :: rest) := by
  rintro d ⟨⟩
  exact hc

/-- A whole part and a fraction. -/
theorem readAs_fraction {whole places : List Char} (hwhole : IsWholePart whole)
    (hne : places ≠ []) (hplaces : ∀ c ∈ places, c.isDigit) :
    ReadAs (whole ++ '.' :: places)
      (digitsValue (whole ++ places) * 10 ^ (-places.length : Int)) := by
  refine ⟨_, _, rfl, fun negative rest hrest => ?_⟩
  rw [List.append_assoc, List.cons_append, readNumber_parts negative
    (hwhole _ (stops_cons (c := '.') rfl _)) (readFraction_point hne hplaces hrest.stops)
    (readExponent_of_ends hrest) (.inl rfl), ← Int.zero_sub]
  rfl

/-- A whole part and an exponent. -/
theorem readAs_exponent {whole : List Char} (hwhole : IsWholePart whole) (e : Int) :
    ReadAs (whole ++ 'e' :: exponentText e) (digitsValue whole * 10 ^ e) := by
  refine ⟨_, _, rfl, fun negative rest hrest => ?_⟩
  have hnone : readFraction ('e' :: (exponentText e ++ rest)) =
      (none, 'e' :: (exponentText e ++ rest)) := rfl
  rw [List.append_assoc, List.cons_append, readNumber_parts negative
    (hwhole _ (stops_cons (c := 'e') rfl _)) hnone (readExponent_text e hrest.stops) (.inr rfl)]
  show Except.ok (Json.float (scaled _ (digitsValue (whole ++ [])) (e - 0)), rest) = _
  rw [List.append_nil, Int.sub_zero]

/-- A whole part, a fraction and an exponent. -/
theorem readAs_fraction_exponent {whole places : List Char} (hwhole : IsWholePart whole)
    (hne : places ≠ []) (hplaces : ∀ c ∈ places, c.isDigit) (e : Int) :
    ReadAs (whole ++ '.' :: (places ++ 'e' :: exponentText e))
      (digitsValue (whole ++ places) * 10 ^ (e - places.length : Int)) := by
  refine ⟨_, _, rfl, fun negative rest hrest => ?_⟩
  rw [List.append_assoc, List.cons_append, List.append_assoc, List.cons_append,
    readNumber_parts negative (hwhole _ (stops_cons (c := '.') rfl _))
      (readFraction_point hne hplaces (stops_cons (c := 'e') rfl _))
      (readExponent_text e hrest.stops) (.inl rfl)]
  rfl

theorem isWholePart_zero : IsWholePart ['0'] := fun _ _ => rfl

/-- Digits that do not start with a zero are a whole part. -/
theorem isWholePart_digits {d : Char} {ds : List Char} (hzero : d ≠ '0')
    (hds : ∀ c ∈ d :: ds, c.isDigit) : IsWholePart (d :: ds) :=
  fun _ htail => readWholePart?_digits hzero hds htail

theorem zeros_isDigit (k : Nat) : ∀ c ∈ List.replicate k '0', c.isDigit := by
  intro c hc
  rw [List.eq_of_mem_replicate hc]
  rfl

/-- All digits behind the point, and zeros between them and it. -/
theorem readAs_point_first {ds : List Char} (hne : ds ≠ []) (hds : ∀ c ∈ ds, c.isDigit) (k : Nat) :
    ReadAs (['0'] ++ '.' :: (List.replicate k '0' ++ ds))
      (digitsValue ds * 10 ^ (-k - ds.length : Int)) := by
  have hread := readAs_fraction isWholePart_zero
    (List.append_ne_nil_of_right_ne_nil (List.replicate k '0') hne)
    (List.forall_mem_append.mpr ⟨zeros_isDigit k, hds⟩)
  have hvalue : digitsValue (['0'] ++ (List.replicate k '0' ++ ds)) = digitsValue ds := by
    rw [← List.append_assoc, List.singleton_append, ← List.replicate_succ, digitsValue_append,
      digitsValue_zeros, Nat.zero_mul, Nat.zero_add]
  rw [hvalue, List.length_append, List.length_replicate,
    show (-((k + ds.length : Nat) : Int)) = -k - ds.length by omega] at hread
  exact hread

/-- All digits in front of the point, and zeros between them and it. -/
theorem readAs_point_last {c : Char} {more : List Char} (hzero : c ≠ '0')
    (hds : ∀ x ∈ c :: more, x.isDigit) (k : Nat) :
    ReadAs ((c :: more ++ List.replicate k '0') ++ '.' :: ['0'])
      (digitsValue (c :: more) * 10 ^ (k : Int)) := by
  have hwhole : IsWholePart (c :: (more ++ List.replicate k '0')) :=
    isWholePart_digits hzero (List.forall_mem_append.mpr ⟨hds, zeros_isDigit k⟩)
  have hread := readAs_fraction hwhole (List.cons_ne_nil '0' []) (zeros_isDigit 1)
  have hvalue : (digitsValue (c :: more ++ List.replicate k '0' ++ ['0']) : ℚ) * 10 ^ (-1 : Int) =
      digitsValue (c :: more) * 10 ^ (k : Int) := by
    rw [List.append_assoc, ← List.replicate_succ', digitsValue_append, digitsValue_zeros,
      List.length_replicate, Nat.add_zero, Nat.cast_mul, Nat.cast_pow, Nat.cast_ofNat, pow_succ,
      zpow_neg_one, zpow_natCast, mul_assoc, mul_assoc, mul_inv_cancel₀ (by norm_num), mul_one]
  exact hvalue ▸ hread

/-- The point between two digits. -/
theorem readAs_point_inside {c : Char} {more : List Char} (hzero : c ≠ '0')
    (hds : ∀ x ∈ c :: more, x.isDigit) {k : Nat} (hk : k < more.length) :
    ReadAs (c :: more.take k ++ '.' :: more.drop k)
      (digitsValue (c :: more) * 10 ^ ((k + 1 : Nat) - (more.length + 1 : Nat) : Int)) := by
  have hread := readAs_fraction
    (isWholePart_digits hzero fun x hx => hds x (List.take_subset (k + 1) (c :: more) hx))
    (show more.drop k ≠ [] by
      rw [Ne, List.drop_eq_nil_iff]
      omega)
    fun x hx => hds x (List.mem_cons_of_mem _ (List.drop_subset _ _ hx))
  have hall : c :: more.take k ++ more.drop k = c :: more := by
    rw [List.cons_append, List.take_append_drop]
  rw [hall, List.length_drop,
    show -((more.length - k : Nat) : Int) = (k + 1 : Nat) - (more.length + 1 : Nat) by omega]
    at hread
  exact hread

/-- Digits around a point are read as the decimal. -/
theorem readAs_positional {d : Digits} (hd : d.Proper) : ReadAs (Decimal.positional d) d.value := by
  -- The point stands in front of all digits, behind all of them, or between two.
  obtain ⟨c, more, hdigits, hzero⟩ := hd.head
  have hall := hd.isDigit
  rw [hdigits] at hall
  rw [Decimal.positional, Digits.value, hdigits]
  dsimp only
  split
  · next hpoint =>
      have hread := readAs_point_first (List.cons_ne_nil c more) hall (-d.point).toNat
      rw [show -((-d.point).toNat : Int) = d.point by omega] at hread
      exact hread
  split
  · next hpoint hplace =>
      have hread := readAs_point_last hzero hall (d.point.toNat - (c :: more).length)
      rw [show ((d.point.toNat - (c :: more).length : Nat) : Int) =
        d.point - (c :: more).length by omega] at hread
      exact hread
  · next hpoint hplace =>
      obtain ⟨k, hk⟩ : ∃ k : Nat, d.point = (k + 1 : Nat) := ⟨(d.point - 1).toNat, by omega⟩
      rw [hk, Int.toNat_natCast, List.length_cons] at hplace ⊢
      rw [List.append_assoc]
      exact readAs_point_inside hzero hall (show k < more.length by omega)

/-- Digits with an exponent are read as the decimal. -/
theorem readAs_scientific {d : Digits} (hd : d.Proper) :
    ReadAs (Decimal.scientific Decimal.standard d) d.value := by
  obtain ⟨c, more, hdigits, hzero⟩ := hd.head
  have hall := hd.isDigit
  rw [hdigits] at hall
  rw [Decimal.scientific, Digits.value, hdigits, List.append_assoc]
  cases more with
  | nil => exact readAs_exponent (isWholePart_digits hzero hall) (d.point - 1)
  | cons x more =>
      have hread := readAs_fraction_exponent
        (isWholePart_digits hzero (List.forall_mem_singleton.mpr (hall c List.mem_cons_self)))
        (List.cons_ne_nil x more) (fun y hy => hall y (List.mem_cons_of_mem _ hy)) (d.point - 1)
      rw [show d.point - 1 - (x :: more).length = d.point - (c :: x :: more).length by
        simp only [List.length_cons]
        omega] at hread
      exact hread

/-- The digits of a number start with a digit. -/
theorem write_head {d : Digits} (hd : d.Proper) :
    ∃ c rest, Decimal.standard.write d = c :: rest ∧ c.isDigit := by
  obtain ⟨c, more, hdigits, _⟩ := hd.head
  have hc : c.isDigit := hd.isDigit c (hdigits ▸ List.mem_cons_self)
  rw [Layout.write]
  split
  · rw [Decimal.positional, hdigits]
    dsimp only
    split
    · exact ⟨'0', _, rfl, rfl⟩
    split
    · exact ⟨c, _, rfl, hc⟩
    · next hpoint _ =>
        obtain ⟨k, hk⟩ : ∃ k : Nat, d.point.toNat = k + 1 := ⟨d.point.toNat - 1, by omega⟩
        rw [hk]
        exact ⟨c, _, rfl, hc⟩
  · rw [Decimal.scientific, hdigits]
    cases more <;> exact ⟨c, _, rfl, hc⟩

/-- **EVERY SHAPE** of a decimal is read as the decimal. -/
theorem readAs_write {d : Digits} (hd : d.Proper) : ReadAs (Decimal.standard.write d) d.value := by
  rw [Layout.write]
  split
  · exact readAs_positional hd
  · exact readAs_scientific hd

/-! ## Floating-point numbers -/

/-- The sign in front of a floating-point number. -/
def signText (x : Float) : List Char := if decide (2 ^ 63 ≤ x.toBits.toNat) then ['-'] else []

/-- The four kinds of floating-point numbers and their texts. -/
inductive Kind (x : Float) (text : List Char) : Prop where
  | notNumber : 2047 * 2 ^ 52 < x.toBits.toNat % 2 ^ 63 → text = "NaN".toList → Kind x text
  | infinite : x.toBits.toNat % 2 ^ 63 = 2047 * 2 ^ 52 →
      text = signText x ++ "Infinity".toList → Kind x text
  | zero : x.toBits.toNat % 2 ^ 63 = 0 → text = signText x ++ "0.0".toList → Kind x text
  | finite : 0 < x.toBits.toNat % 2 ^ 63 → x.toBits.toNat % 2 ^ 63 < 2047 * 2 ^ 52 →
      text = signText x ++
        Decimal.standard.write (Decimal.Binary.ofBits (x.toBits.toNat % 2 ^ 63)).shortest →
      Kind x text

/-- Every floating-point number is of one of the four kinds, and its text is the one of its kind. -/
theorem kind_write (x : Float) : Kind x (Decimal.write beyondNumbers x).toList := by
  have hsign : ∀ body : String, (if decide (2 ^ 63 ≤ x.toBits.toNat) then "-" ++ body
      else body).toList = signText x ++ body.toList := by
    intro body
    rw [signText]
    split
    · exact String.toList_append
    · rfl
  rw [Decimal.write]
  simp only [show Nat.pow 2 63 = 2 ^ 63 from rfl, show Nat.pow 2 52 = 2 ^ 52 from rfl]
  split
  · next hnan => exact .notNumber hnan rfl
  rw [hsign]
  split
  · next hinfinite => exact .infinite hinfinite rfl
  split
  · next hzero => exact .zero hzero rfl
  · exact .finite (by omega) (by omega) (by rw [String.toList_ofList])

/-- A floating-point number with a magnitude is one of two. -/
theorem eq_of_magnitude {x y z : Float} {magnitude : Nat}
    (hx : x.toBits.toNat % 2 ^ 63 = magnitude) (hy : y.toBits.toNat = magnitude)
    (hz : z.toBits.toNat = 2 ^ 63 + magnitude) :
    x = if decide (2 ^ 63 ≤ x.toBits.toNat) then z else y := by
  -- The bits are the magnitude, with or without the sign bit.
  have hlt := x.toBits.toNat_lt
  split
  · next hnegative =>
      have := of_decide_eq_true hnegative
      exact Decimal.float_eq_of_toBits (by omega)
  · next hpositive =>
      have := of_decide_eq_false (Bool.not_eq_true _ ▸ hpositive)
      exact Decimal.float_eq_of_toBits (by omega)

/-- The infinite numbers are read back. -/
theorem readScalar_infinite {x : Float} (hx : x.toBits.toNat % 2 ^ 63 = 2047 * 2 ^ 52)
    (rest : List Char) :
    readScalar (signText x ++ "Infinity".toList ++ rest) = .ok (.float x, rest) := by
  have hvalue := eq_of_magnitude (y := 1.0 / 0.0) (z := -1.0 / 0.0) hx (by decide +kernel)
    (by decide +kernel)
  rw [signText]
  -- Both signs are evaluated, so the test on the bits is taken out of the goal.
  generalize decide (2 ^ 63 ≤ x.toBits.toNat) = negative at hvalue ⊢
  rw [hvalue]
  cases negative <;> rfl

/-- The two zeros are read back, each with its sign. -/
theorem readScalar_zero {x : Float} (hx : x.toBits.toNat % 2 ^ 63 = 0) {rest : List Char}
    (hrest : Ends rest) :
    readScalar (signText x ++ "0.0".toList ++ rest) = .ok (.float x, rest) := by
  have hvalue := eq_of_magnitude (y := scaled false 0 (-1)) (z := scaled true 0 (-1)) hx
    (by decide +kernel) (by decide +kernel)
  have hread := readNumber_parts (decide (2 ^ 63 ≤ x.toBits.toNat))
    (isWholePart_zero _ (stops_cons (c := '.') rfl _))
    (readFraction_point (List.cons_ne_nil '0' []) (zeros_isDigit 1) hrest.stops)
    (readExponent_of_ends hrest) (.inl rfl)
  rw [List.append_assoc]
  refine (readScalar_number _ (show '0'.isDigit from rfl) ('.' :: '0' :: rest)).trans ?_
  refine hread.trans ?_
  show Except.ok (Json.float (scaled _ 0 (-1)), rest) = _
  generalize decide (2 ^ 63 ≤ x.toBits.toNat) = negative at hvalue ⊢
  rw [hvalue]
  cases negative <;> rfl

/-- Any other number is read back: its shortest decimal is rounded to it. -/
theorem readScalar_finite {x : Float} (hpos : 0 < x.toBits.toNat % 2 ^ 63)
    (hfinite : x.toBits.toNat % 2 ^ 63 < 2047 * 2 ^ 52) {rest : List Char} (hrest : Ends rest) :
    readScalar (signText x ++
      Decimal.standard.write (Decimal.Binary.ofBits (x.toBits.toNat % 2 ^ 63)).shortest ++ rest) =
        .ok (.float x, rest) := by
  obtain ⟨hproper, hcovers⟩ :=
    Decimal.shortest_covers (Decimal.Binary.ofBits_canonical hpos hfinite)
  obtain ⟨n, e, hvalue, hread⟩ := readAs_write hproper
  obtain ⟨c, more, htext, hc⟩ := write_head hproper
  have hnumber := hread (decide (2 ^ 63 ≤ x.toBits.toNat)) rest hrest
  -- The digits and the exponent that were read round to the number, since their decimal does.
  rw [Decimal.scaled_eq hpos hfinite (hvalue ▸ hcovers)] at hnumber
  rw [htext, List.cons_append] at hnumber
  rw [htext, List.append_assoc, List.cons_append]
  exact (readScalar_number _ hc _).trans hnumber

/-- **EVERY FLOATING-POINT NUMBER IS READ BACK.**  Its text gives the number itself, bit by bit,
whatever ends it. -/
theorem readScalar_float (x : Float) {rest : List Char} (hrest : Ends rest) :
    readScalar (chars (.float x) ++ rest) = .ok (.float x, rest) := by
  rw [chars]
  cases kind_write x with
  | notNumber hx htext =>
      rw [htext, Decimal.eq_nan hx]
      rfl
  | infinite hx htext =>
      rw [htext]
      exact readScalar_infinite hx rest
  | zero hx htext =>
      rw [htext]
      exact readScalar_zero hx hrest
  | finite hpos hfinite htext =>
      rw [htext]
      exact readScalar_finite hpos hfinite hrest

/-- The text of a floating-point number starts like a number or with one of two capital letters. -/
theorem chars_float_head (x : Float) :
    ∃ c cs, chars (.float x) = c :: cs ∧ (c = 'N' ∨ c = 'I' ∨ c = '-' ∨ c.isDigit) := by
  have hsigned : ∀ {c : Char} {cs : List Char}, c = 'I' ∨ c.isDigit →
      ∃ c' cs', signText x ++ c :: cs = c' :: cs' ∧
        (c' = 'N' ∨ c' = 'I' ∨ c' = '-' ∨ c'.isDigit) := by
    intro c cs hc
    rw [signText]
    split
    · exact ⟨'-', c :: cs, rfl, .inr (.inr (.inl rfl))⟩
    · exact ⟨c, cs, rfl, .inr (hc.imp id .inr)⟩
  rw [chars]
  cases kind_write x with
  | notNumber _ htext => exact ⟨'N', _, htext, .inl rfl⟩
  | infinite _ htext => exact htext ▸ hsigned (.inl rfl)
  | zero _ htext => exact htext ▸ hsigned (.inr rfl)
  | finite hpos hfinite htext =>
      obtain ⟨hproper, _⟩ :=
        Decimal.shortest_covers (Decimal.Binary.ofBits_canonical hpos hfinite)
      obtain ⟨c, more, hwrite, hc⟩ := write_head hproper
      rw [htext, hwrite]
      exact hsigned (.inr hc)

/-- The text of a floating-point number starts a value. -/
theorem chars_float_starts (x : Float) : Starts (chars (.float x)) := by
  obtain ⟨c, cs, hcs, rfl | rfl | hc⟩ := chars_float_head x
  · exact ⟨_, _, hcs, by decide⟩
  · exact ⟨_, _, hcs, by decide⟩
  · exact ⟨c, cs, hcs, starts_of_numeric hc⟩

/-- A floating-point number is read back as a value. -/
theorem readValue_float (x : Float) (fuel : Nat) {rest : List Char} (hrest : Ends rest) :
    readValue (fuel + 1) (chars (.float x) ++ rest) = .ok (.float x, rest) := by
  rw [← readScalar_float x hrest]
  obtain ⟨c, cs, hcs, rfl | rfl | hc⟩ := chars_float_head x
  · rw [hcs, List.cons_append, readValue_scalar (by decide) (by decide) (by decide)]
  · rw [hcs, List.cons_append, readValue_scalar (by decide) (by decide) (by decide)]
  · rw [hcs, List.cons_append, readValue_scalar (ne_of_numeric hc (by decide) rfl)
      (ne_of_numeric hc (by decide) rfl) (ne_of_numeric hc (by decide) rfl)]

end LookmlProject.Json
