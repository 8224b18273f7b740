import LookmlProject.Proofs.FloatBits
import LookmlProject.Proofs.JsonText

/-! # Shortest decimals lie in the interval

    The search for the shortest decimal of a number compares fractions of natural
    numbers.  Read as comparisons of rational numbers (`Fraction.value`), they ask
    whether a decimal lies in the interval of the number (`takes_iff`), and:

    * the neighbours of the number on a grid enclose it (`onGrid_bounds`);
    * on a grid of seventeen digits one of them lies in the interval
      (`onGrid?_isSome`), so that the search ends with a hit (`takes_search`);
    * the digits that are written are those of the hit, less the zeros at its end
      (`shortest_covers`). -/

namespace LookmlProject.Decimal

/-! ## Fractions -/

/-- What a fraction stands for. -/
def Fraction.value (f : Fraction) : ℚ := f.top / f.bottom

theorem ten_zpow_pos (e : Int) : (0 : ℚ) < 10 ^ e := zpow_pos (by norm_num) e

theorem value_scale {base : Nat} (hbase : 0 < base) (n : Nat) (e : Int) {f : Fraction}
    (hf : f = if e < 0 then ⟨n, base ^ (-e).toNat⟩ else ⟨n * base ^ e.toNat, 1⟩) :
    f.value = n * (base : ℚ) ^ e ∧ 0 < f.bottom := by
  rw [hf]
  split
  · next he =>
      refine ⟨?_, Nat.pow_pos hbase⟩
      rw [Fraction.value, zpow_of_neg _ he, div_eq_mul_inv, Nat.cast_pow]
  · next he =>
      refine ⟨?_, Nat.one_pos⟩
      rw [Fraction.value, zpow_of_nonneg _ (Int.not_lt.mp he), Nat.cast_one, div_one, Nat.cast_mul,
        Nat.cast_pow]

theorem value_scale2 (n : Nat) (e : Int) :
    (Fraction.scale2 n e).value = n * 2 ^ e ∧ 0 < (Fraction.scale2 n e).bottom := by
  exact_mod_cast value_scale (show 0 < 2 by decide) n e rfl

theorem value_scale10 (n : Nat) (e : Int) :
    (Fraction.scale10 n e).value = n * 10 ^ e ∧ 0 < (Fraction.scale10 n e).bottom := by
  exact_mod_cast value_scale (show 0 < 10 by decide) n e rfl

theorem lt_iff {f g : Fraction} (hf : 0 < f.bottom) (hg : 0 < g.bottom) :
    f.lt g = true ↔ f.value < g.value := by
  have hf' : (0 : ℚ) < f.bottom := by exact_mod_cast hf
  have hg' : (0 : ℚ) < g.bottom := by exact_mod_cast hg
  rw [Fraction.lt, decide_eq_true_iff, Fraction.value, Fraction.value, div_lt_div_iff₀ hf' hg']
  exact_mod_cast Iff.rfl

/-! ## The interval -/

variable {b : Binary}

/-- The test of the search asks for the interval. -/
theorem takes_iff (hpos : 0 < b.mantissa) {f : Fraction} (hf : 0 < f.bottom) :
    b.takes f = true ↔ b.Covers f.value := by
  have hquarter : (2 : ℚ) ^ (b.exponent - 2) = 2 ^ b.exponent / 4 := by
    rw [zpow_sub₀ (by norm_num)]
    norm_num
  have hlow : (Fraction.scale2 (4 * b.mantissa - (if b.boundary then 1 else 2))
      (b.exponent - 2)).value = (b.mantissa - b.reach) * 2 ^ b.exponent := by
    rw [(value_scale2 _ _).1, hquarter, Binary.reach]
    split
    · rw [Nat.cast_sub (by omega)]
      push_cast
      ring
    · rw [Nat.cast_sub (by omega)]
      push_cast
      ring
  have hhigh : (Fraction.scale2 (4 * b.mantissa + 2) (b.exponent - 2)).value =
      (b.mantissa + 1 / 2) * 2 ^ b.exponent := by
    rw [(value_scale2 _ _).1, hquarter]
    push_cast
    ring
  have hbelow := lt_iff hf (value_scale2 (4 * b.mantissa - (if b.boundary then 1 else 2))
    (b.exponent - 2)).2
  have habove := lt_iff (value_scale2 (4 * b.mantissa + 2) (b.exponent - 2)).2 hf
  have hinside := lt_iff (value_scale2 (4 * b.mantissa - (if b.boundary then 1 else 2))
    (b.exponent - 2)).2 hf
  have hinside' := lt_iff hf (value_scale2 (4 * b.mantissa + 2) (b.exponent - 2)).2
  rw [hlow] at hbelow hinside
  rw [hhigh] at habove hinside'
  rw [Binary.takes]
  rcases Nat.mod_two_eq_zero_or_one b.mantissa with heven | hodd
  · simp only [if_pos heven, Bool.and_eq_true, Bool.not_eq_true', ← Bool.not_eq_true, hbelow,
      habove, not_lt]
    exact ⟨fun h => ⟨h.1, h.2, fun hodd => by omega⟩, fun h => ⟨h.low, h.high⟩⟩
  · simp only [if_neg (show ¬ b.mantissa % 2 = 0 by omega), Bool.and_eq_true, hinside, hinside']
    exact ⟨fun h => ⟨h.1.le, h.2.le, fun _ => h⟩, fun h => h.odd hodd⟩

/-! ## Grids -/

/-- The multiple of a power of ten below a number, as a count. -/
def below (b : Binary) (unit : Int) : Nat :=
  let value := Fraction.scale2 b.mantissa b.exponent
  if unit < 0 then value.top * Nat.pow 10 (-unit).toNat / value.bottom
  else value.top / (value.bottom * Nat.pow 10 unit.toNat)

/-- The number lies between its neighbours on a grid. -/
theorem onGrid_bounds (b : Binary) (unit : Int) :
    (below b unit : ℚ) * 10 ^ unit ≤ b.mantissa * 2 ^ b.exponent ∧
      b.mantissa * 2 ^ b.exponent < (below b unit + 1 : ℚ) * 10 ^ unit := by
  obtain ⟨hvalue, hbottom⟩ := value_scale2 b.mantissa b.exponent
  have hpow := ten_zpow_pos unit
  rw [← le_div_iff₀ hpow, ← div_lt_iff₀ hpow, ← hvalue, Fraction.value, below]
  -- In units of the grid the count is what a division of natural numbers leaves whole.
  split
  · next hunit =>
      have hbounds := (located_div ((Fraction.scale2 b.mantissa b.exponent).top *
        10 ^ (-unit).toNat) hbottom).bounds
      rw [Nat.cast_mul, Nat.cast_pow, Nat.cast_ofNat, ← div_mul_eq_mul_div] at hbounds
      rw [zpow_of_neg _ hunit, div_inv_eq_mul]
      exact hbounds
  · next hunit =>
      have hbounds := (located_div (Fraction.scale2 b.mantissa b.exponent).top
        (Nat.mul_pos hbottom (show 0 < 10 ^ unit.toNat from Nat.pow_pos (by decide)))).bounds
      rw [Nat.cast_mul, Nat.cast_pow, Nat.cast_ofNat, ← div_div] at hbounds
      rw [zpow_of_nonneg _ (Int.not_lt.mp hunit)]
      exact hbounds

/-- A hit is one of the two neighbours and lies in the interval; without a hit neither does. -/
theorem onGrid?_cases (b : Binary) (unit : Int) :
    (b.onGrid? unit = none ∧ b.takes (Fraction.scale10 (below b unit) unit) = false ∧
      b.takes (Fraction.scale10 (below b unit + 1) unit) = false) ∨
    ∃ n, b.onGrid? unit = some n ∧ b.takes (Fraction.scale10 n unit) = true := by
  rw [Binary.onGrid?, below]
  dsimp only
  generalize (if unit < 0 then _ else _ : Nat) = count
  split
  · next hlower hupper => exact .inl ⟨rfl, hlower, hupper⟩
  · next hlower _ => exact .inr ⟨_, rfl, hlower⟩
  · next _ hupper => exact .inr ⟨_, rfl, hupper⟩
  · next hlower hupper =>
      -- Both are in the interval, so it does not matter which is nearer.
      split
      · exact .inr ⟨_, rfl, hlower⟩
      split
      · exact .inr ⟨_, rfl, hupper⟩
      · refine .inr ⟨_, rfl, ?_⟩
        split
        · exact hlower
        · exact hupper

theorem takes_of_onGrid? {unit : Int} {n : Nat} (h : b.onGrid? unit = some n) :
    b.takes (Fraction.scale10 n unit) = true := by
  obtain ⟨hnone, _⟩ | ⟨hit, hsome, htakes⟩ := onGrid?_cases b unit
  · cases hnone.symm.trans h
  · cases hsome.symm.trans h
    exact htakes

/-- A grid that is finer than the number by sixteen digits has a hit: of the two neighbours one is
nearer than half the gap between binary numbers, or even both are if the gap below is smaller. -/
theorem onGrid?_isSome (hb : b.Canonical) {unit : Int}
    (hunit : (10 : ℚ) ^ unit * 10 ^ 16 ≤ b.mantissa * 2 ^ b.exponent) :
    ∃ n, b.onGrid? unit = some n := by
  obtain ⟨_, hlower, hupper⟩ | ⟨n, hsome, _⟩ := onGrid?_cases b unit
  · exfalso
    obtain ⟨hbelow, habove⟩ := onGrid_bounds b unit
    have hgap := two_zpow_pos b.exponent
    rw [← Bool.not_eq_true, takes_iff hb.pos (value_scale10 _ _).2, (value_scale10 _ _).1] at hlower
    rw [← Bool.not_eq_true, takes_iff hb.pos (value_scale10 _ _).2, (value_scale10 _ _).1,
      Nat.cast_add_one] at hupper
    by_cases hboundary : b.boundary = true
    · have hmantissa : (b.mantissa : ℚ) = 2 ^ 52 := by
        exact_mod_cast (hb.boundary.mp hboundary).1
      have hnear : (10 : ℚ) ^ unit < 1 / 2 * 2 ^ b.exponent := by
        rw [hmantissa] at hunit
        norm_num at hunit
        linarith
      have hreach : b.reach = 1 / 4 := by rw [Binary.reach, if_pos hboundary]
      exact hupper (.of_lt (by rw [hreach]; linarith) (by linarith))
    · have hlt : (b.mantissa : ℚ) < 2 ^ 53 := by exact_mod_cast hb.lt
      have hnear : (10 : ℚ) ^ unit < 2 ^ b.exponent := by
        have := mul_lt_mul_of_pos_right hlt hgap
        norm_num at hunit this
        linarith
      have hreach : b.reach = 1 / 2 := by rw [Binary.reach, if_neg hboundary]
      rcases lt_or_ge ((b.mantissa : ℚ) * 2 ^ b.exponent - below b unit * 10 ^ unit)
        (1 / 2 * 2 ^ b.exponent) with hnearer | hfarther
      · exact hlower (.of_lt (by rw [hreach]; linarith) (by linarith))
      · exact hupper (.of_lt (by rw [hreach]; linarith) (by linarith))
  · exact ⟨n, hsome⟩

/-! ## The place of the point -/

/-- The zeros behind the point are counted to their end if the fuel reaches that far. -/
theorem bottom_le_of_leadingZeros (fuel : Nat) (f : Fraction)
    (h : f.bottom ≤ f.top * 10 ^ (fuel + 1)) :
    f.bottom ≤ f.top * 10 ^ (leadingZeros fuel f + 1) := by
  induction fuel generalizing f with
  | zero => exact h
  | succ fuel ih =>
      rw [leadingZeros]
      split
      · have hnext := ih ⟨f.top * 10, f.bottom⟩ (by
          rw [Nat.mul_assoc, ← Nat.pow_succ']
          exact h)
        rw [Nat.mul_assoc, ← Nat.pow_succ'] at hnext
        exact hnext
      · next hdigit =>
          rw [Nat.zero_add, Nat.pow_one]
          exact Nat.not_lt.mp hdigit

theorem bottom_le_scale2 (hb : b.Canonical) {k : Nat} (hk : 2 ^ 1074 ≤ 10 ^ k) :
    (Fraction.scale2 b.mantissa b.exponent).bottom ≤
      (Fraction.scale2 b.mantissa b.exponent).top * 10 ^ k := by
  have hlow := hb.low
  rw [Fraction.scale2]
  split
  · calc 2 ^ (-b.exponent).toNat
        ≤ 2 ^ 1074 := Nat.pow_le_pow_right (by decide) (by omega)
      _ ≤ 10 ^ k := hk
      _ ≤ b.mantissa * 10 ^ k := Nat.le_mul_of_pos_left _ hb.pos
  · exact Nat.mul_pos (Nat.mul_pos hb.pos (Nat.pow_pos (by decide))) (Nat.pow_pos (by decide))

theorem ten_pow_le_of_length {n : Nat} (hn : 0 < n) :
    10 ^ ((Nat.toDigits 10 n).length - 1) ≤ n := by
  by_cases hlength : (Nat.toDigits 10 n).length - 1 = 0
  · rwa [hlength]
  · rw [← Nat.not_lt, ← Nat.length_toDigits_le_iff (by decide) (Nat.pos_of_ne_zero hlength)]
    omega

/-- The number is not below the power of ten in front of its point. -/
theorem ten_zpow_le_of_pointOf (hb : b.Canonical) :
    (10 : ℚ) ^ (pointOf (Fraction.scale2 b.mantissa b.exponent) - 1) ≤
      b.mantissa * 2 ^ b.exponent := by
  obtain ⟨hvalue, hbottom⟩ := value_scale2 b.mantissa b.exponent
  have hzeros := bottom_le_of_leadingZeros 400 _ (bottom_le_scale2 hb (by decide +kernel))
  rw [← hvalue, Fraction.value, pointOf]
  generalize Fraction.scale2 b.mantissa b.exponent = f at hbottom hzeros
  have hpos : (0 : ℚ) < f.bottom := by exact_mod_cast hbottom
  split
  · rw [show -(leadingZeros 400 f : Int) - 1 = -((leadingZeros 400 f + 1 : Nat) : Int) by omega,
      zpow_neg, zpow_natCast, le_div_iff₀ hpos, inv_mul_le_iff₀ (by positivity), mul_comm]
    exact_mod_cast hzeros
  · next hwhole =>
      have hlength := Nat.length_toDigits_pos (b := 10) (n := f.top / f.bottom)
      have hpow := ten_pow_le_of_length (Nat.pos_of_ne_zero hwhole)
      rw [show ((Nat.toDigits 10 (f.top / f.bottom)).length : Int) - 1 =
        (((Nat.toDigits 10 (f.top / f.bottom)).length - 1 : Nat) : Int) by omega, zpow_natCast]
      calc (10 : ℚ) ^ ((Nat.toDigits 10 (f.top / f.bottom)).length - 1)
          ≤ (f.top / f.bottom : Nat) := by exact_mod_cast hpow
        _ ≤ f.top / f.bottom := (located_div f.top hbottom).bounds.1

/-! ## The search -/

/-- The search ends with a hit, since it goes on to seventeen digits. -/
theorem takes_search (hb : b.Canonical) {point : Int}
    (hpoint : (10 : ℚ) ^ (point - 1) ≤ b.mantissa * 2 ^ b.exponent) {fuel count : Nat}
    (hcount : fuel + count = 17) :
    b.takes (Fraction.scale10 (b.search point fuel count).1 (b.search point fuel count).2) =
      true := by
  induction fuel generalizing count with
  | zero =>
      have hfine : (10 : ℚ) ^ (point - count) * 10 ^ 16 ≤ b.mantissa * 2 ^ b.exponent := by
        rw [← zpow_natCast, ← zpow_add₀ (by norm_num),
          show point - count + (16 : Nat) = point - 1 by omega]
        exact hpoint
      obtain ⟨n, hn⟩ := onGrid?_isSome hb hfine
      rw [Binary.search, hn]
      exact takes_of_onGrid? hn
  | succ fuel ih =>
      rw [Binary.search]
      split
      · next n hn => exact takes_of_onGrid? hn
      · exact ih (by omega)

/-! ## The digits -/

theorem digitsValue_append (xs ys : List Char) : Json.digitsValue (xs ++ ys) =
    Json.digitsValue xs * 10 ^ ys.length + Json.digitsValue ys := by
  induction ys using List.reverseRecOn with
  | nil => simp [Json.digitsValue]
  | append_singleton ys d ih =>
      rw [← List.append_assoc]
      simp only [Json.digitsValue, List.foldl_append, List.foldl_cons, List.foldl_nil,
        List.length_append, List.length_singleton] at ih ⊢
      rw [ih, Nat.pow_succ]
      ring

theorem digitsValue_zeros (k : Nat) : Json.digitsValue (List.replicate k '0') = 0 := by
  induction k with
  | zero => rfl
  | succ k ih => rw [List.replicate_succ', digitsValue_append, ih]; rfl

/-- Only zeros are taken off at the end. -/
theorem dropZeros_append (ds : List Char) : ∃ k, ds = dropZeros ds ++ List.replicate k '0' := by
  refine ⟨(ds.reverse.takeWhile (· == '0')).length, ?_⟩
  have hzeros : ds.reverse.takeWhile (· == '0') =
      List.replicate (ds.reverse.takeWhile (· == '0')).length '0' := by
    rw [List.eq_replicate_iff]
    refine ⟨rfl, fun c hc => ?_⟩
    exact eq_of_beq (List.all_eq_true.mp List.all_takeWhile c hc)
  have hparts := congrArg List.reverse (List.takeWhile_append_dropWhile (p := (· == '0'))
    (l := ds.reverse))
  rw [List.reverse_append, List.reverse_reverse, hzeros, List.reverse_replicate] at hparts
  rw [dropZeros]
  exact hparts.symm

/-- What a decimal stands for. -/
def Digits.value (d : Digits) : ℚ :=
  Json.digitsValue d.digits * 10 ^ (d.point - d.digits.length)

/-- Digits with a first one that is no zero. -/
structure Digits.Proper (d : Digits) : Prop where
  isDigit : ∀ c ∈ d.digits, c.isDigit
  head : ∃ c rest, d.digits = c :: rest ∧ c ≠ '0'

/-- Without the zeros at its end a number has proper digits. -/
theorem proper_dropZeros {n : Nat} (hn : 0 < n) (point : Int) :
    Digits.Proper ⟨dropZeros (Nat.toDigits 10 n), point⟩ := by
  obtain ⟨k, hzeros⟩ := dropZeros_append (Nat.toDigits 10 n)
  obtain ⟨d, ds, hds, _, hzero⟩ := Json.toDigits_head n
  constructor
  · intro c hc
    have hmem : c ∈ Nat.toDigits 10 n := by
      rw [hzeros]
      exact List.mem_append_left _ hc
    exact Nat.isDigit_of_mem_toDigits (by decide) (by decide) hmem
  · show ∃ c rest, dropZeros (Nat.toDigits 10 n) = c :: rest ∧ c ≠ '0'
    cases hdrop : dropZeros (Nat.toDigits 10 n) with
    | nil =>
        -- Then all digits would be zeros, and so would the first one.
        rw [hdrop, List.nil_append, hds] at hzeros
        have hd := List.eq_of_mem_replicate (hzeros ▸ List.mem_cons_self)
        exact absurd hd (hzero hn)
    | cons c rest =>
        rw [hdrop, List.cons_append, hds] at hzeros
        exact ⟨c, rest, rfl, (List.cons.inj hzeros).1 ▸ hzero hn⟩

/-- The zeros at the end only move the place of the last digit. -/
theorem value_dropZeros (n : Nat) (unit : Int) :
    Digits.value ⟨dropZeros (Nat.toDigits 10 n), unit + (Nat.toDigits 10 n).length⟩ =
      n * 10 ^ unit := by
  obtain ⟨k, hzeros⟩ := dropZeros_append (Nat.toDigits 10 n)
  have hlength := congrArg List.length hzeros
  have hvalue := congrArg Json.digitsValue hzeros
  rw [List.length_append, List.length_replicate] at hlength
  rw [digitsValue_append, digitsValue_zeros, List.length_replicate, Nat.add_zero,
    Json.digitsValue_toDigits] at hvalue
  rw [Digits.value]
  dsimp only
  rw [show unit + (Nat.toDigits 10 n).length - (dropZeros (Nat.toDigits 10 n)).length =
    (k : Int) + unit by omega, zpow_add₀ (by norm_num), zpow_natCast, ← mul_assoc]
  nth_rewrite 2 [hvalue]
  push_cast
  rfl

/-- **THE SHORTEST DECIMAL LIES IN THE INTERVAL.**  Of every number of the binary format the search
gives digits with a first one that is no zero, and the decimal that they stand for is rounded to the
number. -/
theorem shortest_covers (hb : b.Canonical) : b.shortest.Proper ∧ b.Covers b.shortest.value := by
  have htakes := takes_search hb (ten_zpow_le_of_pointOf hb) (show 16 + 1 = 17 from rfl)
  rw [Binary.shortest]
  generalize b.search (pointOf (Fraction.scale2 b.mantissa b.exponent)) 16 1 = hit at htakes
  obtain ⟨n, unit⟩ := hit
  rw [takes_iff hb.pos (value_scale10 _ _).2, (value_scale10 _ _).1] at htakes
  refine ⟨proper_dropZeros ?_ _, ?_⟩
  · exact Nat.pos_of_ne_zero fun hn => by
      have hlow := htakes.low
      have hpos := mul_pos (one_half_pos.trans_le hb.half_le) (two_zpow_pos b.exponent)
      rw [hn, Nat.cast_zero, zero_mul] at hlow
      exact absurd hpos hlow.not_gt
  · rw [value_dropZeros]
    exact htakes

end LookmlProject.Decimal
