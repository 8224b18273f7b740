import LookmlProject.Decimal.Shortest
import Mathlib

/-! # What rounds to a floating-point number

    Floating-point arithmetic cuts an exact result off after some bits, keeps what
    it has to know of the rest, and rounds to the nearest number, of two equally near
    ones to the even one.  Here its results are compared with the interval of a
    binary number (`Binary.Covers`): whatever lies in the interval is rounded to the
    number.

    * `Located`: what is kept of a number that was cut off, and `Located.shiftRight`:
      cutting off more bits keeps it right;
    * `Nearest`: rounding to nearest, which determines the result
      (`Nearest.unique`);
    * `round_covered`: a number in the interval is rounded to the number in its
      middle, also where it lies below a power of two and is rounded up to it;
    * `mul_covered`, `div_covered`, `ofScientific_covered`: so do a product, a
      quotient and a decimal. -/

namespace LookmlProject.Decimal

open Float.Model Float.Model.UnpackedFloat

/-! ## Cutting off -/

/-- Where a number lies from a whole number on: at it, before the middle between it and the next, in
the middle, or behind. -/
def Located (mantissa : Nat) (accuracy : Accuracy) (v : ℚ) : Prop :=
  match accuracy with
  | .exact => v = mantissa
  | .inexact .lt => mantissa < v ∧ v < mantissa + 1 / 2
  | .inexact .eq => v = mantissa + 1 / 2
  | .inexact .gt => mantissa + 1 / 2 < v ∧ v < mantissa + 1

theorem located_exact (mantissa : Nat) : Located mantissa .exact mantissa := rfl

/-- What was cut off is less than one. -/
theorem Located.bounds {mantissa : Nat} {accuracy : Accuracy} {v : ℚ}
    (h : Located mantissa accuracy v) : mantissa ≤ v ∧ v < mantissa + 1 := by
  rcases accuracy with _ | (_ | _ | _) <;> simp only [Located] at h <;>
    constructor <;> linarith

/-- Cutting off one bit more. -/
theorem Located.shiftRightOne {em : ExtendedMantissa} {v : ℚ}
    (h : Located em.mantissa em.accuracy v) :
    Located em.shiftRightOne.mantissa em.shiftRightOne.accuracy (v / 2) := by
  obtain ⟨mantissa, roundBit, stickyBit⟩ := em
  have hsplit : ((mantissa % 2 : Nat) : ℚ) + 2 * (mantissa / 2 : Nat) = mantissa := by
    exact_mod_cast Nat.mod_add_div mantissa 2
  -- The last bit becomes the round bit, and all that was cut off before is behind it.
  rcases Nat.mod_two_eq_zero_or_one mantissa with hmod | hmod
  · have hbit : (mantissa % 2 != 0) = false := by rw [hmod]; rfl
    rw [hmod, Nat.cast_zero] at hsplit
    cases roundBit <;> cases stickyBit <;>
      simp only [Located, ExtendedMantissa.accuracy, ExtendedMantissa.shiftRightOne, hbit,
        Bool.or_true, Bool.or_false] at h ⊢ <;>
      (try constructor) <;> linarith
  · have hbit : (mantissa % 2 != 0) = true := by rw [hmod]; rfl
    rw [hmod, Nat.cast_one] at hsplit
    cases roundBit <;> cases stickyBit <;>
      simp only [Located, ExtendedMantissa.accuracy, ExtendedMantissa.shiftRightOne, hbit,
        Bool.or_true, Bool.or_false] at h ⊢ <;>
      (try constructor) <;> linarith

/-- Cutting off some bits more. -/
theorem Located.shiftRight {em : ExtendedMantissa} {v : ℚ}
    (h : Located em.mantissa em.accuracy v) (count : Nat) :
    Located (em >>> count).mantissa (em >>> count).accuracy (v / 2 ^ count) := by
  induction count with
  | zero =>
      rw [pow_zero, div_one]
      exact h
  | succ count ih =>
      rw [pow_succ, ← div_div]
      exact ih.shiftRightOne

/-! ## Rounding to nearest -/

/-- A whole number is nearest to a number; of two that are equally near it is the even one. -/
structure Nearest (v : ℚ) (k : Nat) : Prop where
  low : (k : ℚ) - 1 / 2 ≤ v
  high : v ≤ k + 1 / 2
  odd : k % 2 = 1 → (k : ℚ) - 1 / 2 < v ∧ v < k + 1 / 2

/-- What is kept of a number is enough to round it. -/
theorem Located.nearest {mantissa : Nat} {accuracy : Accuracy} {v : ℚ}
    (h : Located mantissa accuracy v) : Nearest v (accuracy.roundToNearestEven mantissa) := by
  rcases accuracy with _ | (_ | _ | _) <;>
    simp only [Located, Accuracy.roundToNearestEven] at h ⊢
  · refine ⟨?_, ?_, fun _ => ⟨?_, ?_⟩⟩ <;> linarith
  · refine ⟨?_, ?_, fun _ => ⟨?_, ?_⟩⟩ <;> linarith
  · rcases Nat.mod_two_eq_zero_or_one mantissa with hmod | hmod
    · rw [hmod, Nat.add_zero]
      refine ⟨?_, ?_, fun hodd => ?_⟩
      · linarith
      · linarith
      · omega
    · rw [hmod]
      refine ⟨?_, ?_, fun hodd => ?_⟩
      · push_cast; linarith
      · push_cast; linarith
      · omega
  · refine ⟨?_, ?_, fun _ => ⟨?_, ?_⟩⟩ <;> push_cast <;> linarith

/-- **ROUNDING TO NEAREST HAS ONE RESULT**: the tie goes to the even one. -/
theorem Nearest.unique {v : ℚ} {j k : Nat} (hj : Nearest v j) (hk : Nearest v k) : j = k := by
  -- Two different ones would have the number in the middle between them, and one of them is odd.
  have hle : ∀ {j k : Nat}, Nearest v j → Nearest v k → ¬ j < k := by
    intro j k hj hk hlt
    have hnext : (j : ℚ) + 1 ≤ k := by exact_mod_cast hlt
    have hmiddle : v = j + 1 / 2 := le_antisymm hj.high (by linarith [hk.low])
    have hk' : (k : ℚ) = j + 1 := by linarith [hk.low]
    have hk'' : k = j + 1 := by exact_mod_cast hk'
    rcases Nat.mod_two_eq_zero_or_one j with hmod | hmod
    · linarith [(hk.odd (by omega)).1]
    · linarith [(hj.odd hmod).2]
  exact Nat.le_antisymm (Nat.not_lt.mp (hle hk hj)) (Nat.not_lt.mp (hle hj hk))

/-! ## Numbers and their intervals -/

/-- A positive number of the format: its mantissa has 53 bits, or fewer at the least exponent. -/
structure Binary.Canonical (b : Binary) : Prop where
  pos : 0 < b.mantissa
  lt : b.mantissa < 2 ^ 53
  low : -1074 ≤ b.exponent
  high : b.exponent ≤ 971
  normal : 2 ^ 52 ≤ b.mantissa ∨ b.exponent = -1074
  boundary : b.boundary = true ↔ b.mantissa = 2 ^ 52 ∧ -1074 < b.exponent

/-- How far the interval of a number reaches down, in units of its last place: half as far where the
numbers below lie twice as close. -/
def Binary.reach (b : Binary) : ℚ := if b.boundary then 1 / 4 else 1 / 2

/-- The interval of the numbers that are to be rounded to a number.  Its ends belong to it if the
mantissa is even. -/
structure Binary.Covers (b : Binary) (r : ℚ) : Prop where
  low : (b.mantissa - b.reach) * 2 ^ b.exponent ≤ r
  high : r ≤ (b.mantissa + 1 / 2) * 2 ^ b.exponent
  odd : b.mantissa % 2 = 1 →
    (b.mantissa - b.reach) * 2 ^ b.exponent < r ∧ r < (b.mantissa + 1 / 2) * 2 ^ b.exponent

/-- A power with a negative exponent is the inverse of one with a natural exponent. -/
theorem zpow_of_neg (x : ℚ) {e : Int} (h : e < 0) : x ^ e = (x ^ (-e).toNat)⁻¹ := by
  rw [← zpow_natCast, Int.toNat_of_nonneg (by omega), ← zpow_neg, neg_neg]

theorem zpow_of_nonneg (x : ℚ) {e : Int} (h : 0 ≤ e) : x ^ e = x ^ e.toNat := by
  rw [← zpow_natCast, Int.toNat_of_nonneg h]

theorem two_zpow_pos (e : Int) : (0 : ℚ) < 2 ^ e := zpow_pos (by norm_num) e

theorem two_zpow_add (a b : Int) : (2 : ℚ) ^ (a + b) = 2 ^ a * 2 ^ b :=
  zpow_add₀ (by norm_num) a b

/-- Powers of two are ordered as their exponents. -/
theorem two_zpow_lt {a b : Int} : (2 : ℚ) ^ a < 2 ^ b ↔ a < b :=
  zpow_lt_zpow_iff_right₀ (by norm_num)

/-- The interval reaches down, by half a unit at most. -/
theorem Binary.reach_bounds (b : Binary) : 0 < b.reach ∧ b.reach ≤ 1 / 2 := by
  rw [reach]
  split <;> norm_num

/-- The interval has positive numbers only. -/
theorem Binary.Canonical.half_le {b : Binary} (hb : b.Canonical) :
    (1 : ℚ) / 2 ≤ b.mantissa - b.reach := by
  have hpos : (1 : ℚ) ≤ b.mantissa := by exact_mod_cast hb.pos
  linarith [b.reach_bounds.2]

/-- What is strictly between the ends of the interval lies in it. -/
theorem Binary.Covers.of_lt {b : Binary} {r : ℚ}
    (hlow : (b.mantissa - b.reach) * 2 ^ b.exponent < r)
    (hhigh : r < (b.mantissa + 1 / 2) * 2 ^ b.exponent) : b.Covers r :=
  ⟨hlow.le, hhigh.le, fun _ => ⟨hlow, hhigh⟩⟩

/-- In units of the last place, the mantissa is nearest to the numbers of its interval. -/
theorem Binary.Covers.nearest {b : Binary} {r : ℚ} (h : b.Covers r) :
    Nearest (r / 2 ^ b.exponent) b.mantissa := by
  have hpow := two_zpow_pos b.exponent
  have hreach := b.reach_bounds.2
  refine ⟨?_, (div_le_iff₀ hpow).mpr h.high,
    fun hodd => ⟨?_, (div_lt_iff₀ hpow).mpr (h.odd hodd).2⟩⟩
  · have := (le_div_iff₀ hpow).mpr h.low
    linarith
  · have := (lt_div_iff₀ hpow).mpr (h.odd hodd).1
    linarith

/-- The numbers of an interval have at most 53 bits above the exponent. -/
theorem Binary.Covers.lt_two_zpow {b : Binary} (hb : b.Canonical) {r : ℚ} (h : b.Covers r) :
    r < 2 ^ (53 + b.exponent) := by
  have hmantissa : (b.mantissa : ℚ) + 1 / 2 < 2 ^ (53 : Int) := by
    have : (b.mantissa : ℚ) + 1 ≤ 2 ^ 53 := by exact_mod_cast hb.lt
    norm_num
    linarith
  rw [two_zpow_add]
  exact h.high.trans_lt (mul_lt_mul_of_pos_right hmantissa (two_zpow_pos b.exponent))

/-- The numbers of an interval have at least as many bits as its lower end. -/
theorem Binary.Covers.two_zpow_lt {b : Binary} {r : ℚ} (h : b.Covers r) {bits : Int}
    (hbits : (2 : ℚ) ^ bits < b.mantissa - b.reach) : 2 ^ (bits + b.exponent) < r := by
  rw [two_zpow_add]
  exact (mul_lt_mul_of_pos_right hbits (two_zpow_pos b.exponent)).trans_le h.low

/-- The numbers of an interval are neither too small nor too large. -/
theorem Binary.Covers.range {b : Binary} (hb : b.Canonical) {r : ℚ} (h : b.Covers r) :
    2 ^ (-1075 : Int) ≤ r ∧ r < 2 ^ (1024 : Int) := by
  constructor
  · have hreach := hb.half_le
    have hexponent : (2 : ℚ) ^ (-1074 : Int) ≤ 2 ^ b.exponent :=
      zpow_le_zpow_right₀ (by norm_num) hb.low
    calc (2 : ℚ) ^ (-1075 : Int) = 1 / 2 * 2 ^ (-1074 : Int) := by
          rw [one_div, ← zpow_neg_one, ← two_zpow_add]
          rfl
      _ ≤ (b.mantissa - b.reach) * 2 ^ b.exponent := by gcongr
      _ ≤ r := h.low
  · refine (h.lt_two_zpow hb).trans_le (zpow_le_zpow_right₀ (by norm_num) ?_)
    have := hb.high
    omega

theorem targetExponent_eq (total : Int) :
    Format.binary64.targetExponent total = max (total - 53) (-1074) := rfl

/-- The exponent that is rounded to leaves 53 bits, if the format has it. -/
theorem target_eq (mantissa : Nat) (exponent : Int) :
    Format.binary64.targetExponent (totalExponent mantissa exponent) =
      max (mantissa.log2 + exponent - 52) (-1074) := by
  rw [targetExponent_eq, totalExponent]
  omega

/-- A number that was cut off lies below the next power of two. -/
theorem Located.lt_two_zpow {mantissa : Nat} {accuracy : Accuracy} {v : ℚ}
    (h : Located mantissa accuracy v) (exponent : Int) :
    v * 2 ^ exponent < 2 ^ ((mantissa.log2 : Int) + 1 + exponent) := by
  have hlog : (mantissa : ℚ) + 1 ≤ 2 ^ ((mantissa.log2 : Int) + 1) := by
    exact_mod_cast (Nat.lt_log2_self : mantissa < 2 ^ (mantissa.log2 + 1))
  rw [two_zpow_add _ exponent]
  exact mul_lt_mul_of_pos_right (h.bounds.2.trans_le hlog) (two_zpow_pos exponent)

/-- It is not below the power of two of its first bit. -/
theorem Located.two_zpow_le {mantissa : Nat} {accuracy : Accuracy} {v : ℚ}
    (h : Located mantissa accuracy v) (hpos : mantissa ≠ 0) (exponent : Int) :
    2 ^ ((mantissa.log2 : Int) + exponent) ≤ v * 2 ^ exponent := by
  have hlog : (2 : ℚ) ^ (mantissa.log2 : Int) ≤ mantissa := by
    exact_mod_cast Nat.log2_self_le hpos
  rw [two_zpow_add _ exponent]
  exact mul_le_mul_of_nonneg_right (hlog.trans h.bounds.1) (two_zpow_pos exponent).le

section Round

variable {b : Binary} {mantissa : Nat} {exponent : Int} {accuracy : Accuracy} {v : ℚ}

/-- The exponent that is rounded to is at most the one of the number. -/
theorem target_le (hb : b.Canonical) (hv : Located mantissa accuracy v)
    (hbits : exponent ≤ Format.binary64.targetExponent (totalExponent mantissa exponent))
    (hr : b.Covers (v * 2 ^ exponent)) :
    Format.binary64.targetExponent (totalExponent mantissa exponent) ≤ b.exponent := by
  have hlow := hb.low
  rw [target_eq] at hbits ⊢
  -- Without bits the exponent is the least one; otherwise the first bit says how large it is.
  by_cases hzero : mantissa = 0
  · rw [hzero, Nat.log2_zero] at hbits ⊢
    omega
  · have := two_zpow_lt.mp ((hv.two_zpow_le hzero exponent).trans_lt (hr.lt_two_zpow hb))
    omega

/-- The numbers of an interval have 53 bits above the exponent of the number, if it is not the least,
and 52 where the exponent has just changed. -/
theorem Binary.Covers.bits (hb : b.Canonical) {r : ℚ} (hr : b.Covers r)
    (hexponent : -1074 < b.exponent) :
    2 ^ ((if b.boundary then 51 else 52) + b.exponent) < r := by
  have hnormal := hb.normal.resolve_right (by omega)
  refine hr.two_zpow_lt ?_
  rw [Binary.reach]
  split
  · have : (2 : ℚ) ^ 52 ≤ b.mantissa := by exact_mod_cast hnormal
    norm_num
    linarith
  · next hboundary =>
      have hne : b.mantissa ≠ 2 ^ 52 := fun heq => hboundary (hb.boundary.mpr ⟨heq, hexponent⟩)
      have : (2 : ℚ) ^ 52 + 1 ≤ b.mantissa := by
        exact_mod_cast Nat.lt_of_le_of_ne hnormal (Ne.symm hne)
      norm_num
      linarith

/-- The exponent that is rounded to is the one of the number, or the one below if the number is the
first after it has changed. -/
theorem target_of_covers (hb : b.Canonical) (hv : Located mantissa accuracy v)
    (hbits : exponent ≤ Format.binary64.targetExponent (totalExponent mantissa exponent))
    (hr : b.Covers (v * 2 ^ exponent)) :
    let target := Format.binary64.targetExponent (totalExponent mantissa exponent)
    target = b.exponent ∨ target = b.exponent - 1 ∧ b.boundary = true ∧
      v * 2 ^ exponent < 2 ^ (53 + target) := by
  intro target
  have htarget : target = max (mantissa.log2 + exponent - 52) (-1074) := target_eq _ _
  have hle : target ≤ b.exponent := target_le hb hv hbits hr
  have hupper : v * 2 ^ exponent < 2 ^ (53 + target) := by
    refine (hv.lt_two_zpow exponent).trans_le (zpow_le_zpow_right₀ (by norm_num) ?_)
    omega
  rcases Int.lt_or_eq_of_le hle with hlt | heq
  · -- The number has bits to lose, so that only one may be lost, and only at a boundary.
    have hlower := two_zpow_lt.mp ((hr.bits hb (by omega)).trans hupper)
    cases hboundary : b.boundary with
    | true =>
        rw [hboundary, if_pos rfl] at hlower
        exact Or.inr ⟨by omega, rfl, hupper⟩
    | false =>
        rw [hboundary, if_neg Bool.false_ne_true] at hlower
        omega
  · exact Or.inl heq

/-- The first step of rounding brings a number to its exponent and to the nearest whole mantissa. -/
theorem nearest_shiftToTargetExponent (hv : Located mantissa accuracy v)
    (hbits : exponent ≤ Format.binary64.targetExponent (totalExponent mantissa exponent)) :
    let target := Format.binary64.targetExponent (totalExponent mantissa exponent)
    let shifted := shiftToTargetExponent Format.binary64 mantissa exponent accuracy
    shifted.2 = target ∧ Nearest (v * 2 ^ exponent / 2 ^ target) shifted.1.roundedMantissa := by
  intro target shifted
  have hshift : exponent + ((target - exponent).toNat : Int) = target := by omega
  refine ⟨hshift, ?_⟩
  have hstart : Located (ExtendedMantissa.ofMantissaAndAccuracy mantissa accuracy).mantissa
      (ExtendedMantissa.ofMantissaAndAccuracy mantissa accuracy).accuracy v := by
    rcases accuracy with _ | (_ | _ | _) <;> exact hv
  have hend := (hstart.shiftRight (target - exponent).toNat).nearest
  have hquotient : v / 2 ^ (target - exponent).toNat = v * 2 ^ exponent / 2 ^ target := by
    have hpow : (2 : ℚ) ^ target = 2 ^ exponent * 2 ^ (target - exponent).toNat := by
      rw [← zpow_natCast, ← two_zpow_add, hshift]
    rw [hpow, mul_comm v, mul_div_mul_left _ _ (two_zpow_pos exponent).ne']
  rw [hquotient] at hend
  exact hend

/-- A mantissa of at most 53 bits is left as it is. -/
theorem shiftToTargetExponent_small {mantissa : Nat} (hlt : mantissa < 2 ^ 53)
    {exponent : Int} (hlow : -1074 ≤ exponent) :
    shiftToTargetExponent Format.binary64 mantissa exponent .exact =
      (⟨mantissa, false, false⟩, exponent) := by
  have hlog : mantissa.log2 ≤ 52 := by
    rcases Nat.eq_zero_or_pos mantissa with rfl | hpos
    · decide
    · exact Nat.le_of_lt_succ ((Nat.log2_lt (Nat.ne_of_gt hpos)).mpr hlt)
  have hzero : (Format.binary64.targetExponent (totalExponent mantissa exponent) - exponent).toNat
      = 0 := by
    rw [target_eq]
    omega
  rw [shiftToTargetExponent, shiftToExponent, hzero]
  exact Prod.ext rfl (Int.add_zero exponent)

/-- A mantissa that was rounded up to 54 bits loses its last one. -/
theorem shiftToTargetExponent_carry {exponent : Int} (hlow : -1074 ≤ exponent) :
    shiftToTargetExponent Format.binary64 (2 ^ 53) exponent .exact =
      (⟨2 ^ 52, false, false⟩, exponent + 1) := by
  have hone : (Format.binary64.targetExponent (totalExponent (2 ^ 53) exponent) - exponent).toNat
      = 1 := by
    rw [target_eq, Nat.log2_two_pow]
    omega
  rw [shiftToTargetExponent, shiftToExponent, hone]
  rfl

/-- Numbers with equal parts are equal, whatever the proofs that they are positive. -/
theorem finite_congr {sign : Sign} {m m' : Nat} {e e' : Int} {h : 0 < m} {h' : 0 < m'}
    (hm : m = m') (he : e = e') :
    UnpackedFloat.finite sign m e h = UnpackedFloat.finite sign m' e' h' := by
  subst hm he
  rfl

/-- **A NUMBER IN THE INTERVAL IS ROUNDED TO THE MIDDLE**, if enough of its bits are known. -/
theorem round_covered (hb : b.Canonical) (hv : Located mantissa accuracy v)
    (hbits : exponent ≤ Format.binary64.targetExponent (totalExponent mantissa exponent))
    (hr : b.Covers (v * 2 ^ exponent)) (sign : Sign) :
    roundWithAccuracy Format.binary64 sign mantissa exponent accuracy =
      .finite sign b.mantissa b.exponent hb.pos := by
  obtain ⟨hexponent, hnearest⟩ := nearest_shiftToTargetExponent hv hbits
  have htarget := target_of_covers hb hv hbits hr
  rw [roundWithAccuracy]
  generalize shiftToTargetExponent Format.binary64 mantissa exponent accuracy = reached at *
  obtain ⟨shifted, target⟩ := reached
  dsimp only at hexponent hnearest htarget ⊢
  rw [← hexponent] at hnearest htarget
  -- At the exponent of the number the mantissa is nearest; one below, it is twice that.
  rcases htarget with rfl | ⟨rfl, hboundary, hupper⟩
  · rw [hnearest.unique hr.nearest, shiftToTargetExponent_small hb.lt hb.low]
    exact dif_neg (Nat.ne_of_gt hb.pos)
  · obtain ⟨hmiddle, hlow⟩ := hb.boundary.mp hboundary
    -- The number lies just below a power of two, and is rounded up to it.
    have hcarry : Nearest (v * 2 ^ exponent / 2 ^ (b.exponent - 1)) (2 ^ 53) := by
      have hpow := two_zpow_pos (b.exponent - 1)
      have hdouble : (2 : ℚ) ^ b.exponent = 2 * 2 ^ (b.exponent - 1) := by
        rw [← zpow_one_add₀ (by norm_num)]
        congr 1
        omega
      have hcovers := hr.low
      rw [hdouble, Binary.reach, if_pos hboundary, hmiddle] at hcovers
      rw [two_zpow_add] at hupper
      refine ⟨?_, ?_, fun hodd => ?_⟩
      · rw [le_div_iff₀ hpow]
        push_cast at hcovers ⊢
        linarith
      · rw [div_le_iff₀ hpow]
        push_cast
        norm_num at hupper ⊢
        linarith
      · norm_num at hodd
    rw [hnearest.unique hcarry, shiftToTargetExponent_carry (by omega)]
    dsimp only
    rw [dif_neg (by decide)]
    exact finite_congr hmiddle.symm (Int.sub_add_cancel _ _)

end Round

/-! ## Products, quotients and decimals -/

/-- The product of two numbers, if it has enough bits. -/
theorem mul_covered {b : Binary} (hb : b.Canonical) {m₁ m₂ : Nat} {e₁ e₂ : Int} (h₁ : 0 < m₁)
    (h₂ : 0 < m₂) (hbits : 2 ^ 52 ≤ m₁ * m₂) (hr : b.Covers (m₁ * 2 ^ e₁ * (m₂ * 2 ^ e₂))) :
    mul Format.binary64 (.finite .positive m₁ e₁ h₁) (.finite .positive m₂ e₂ h₂) =
      .finite .positive b.mantissa b.exponent hb.pos := by
  refine round_covered hb (located_exact (m₁ * m₂)) ?_ ?_ .positive
  · -- A product has no bits cut off, so it only has to have enough of them.
    have hlog := (Nat.le_log2 (Nat.mul_pos h₁ h₂).ne').mpr hbits
    rw [target_eq]
    omega
  · rw [two_zpow_add]
    push_cast
    convert hr using 1
    ring

/-- What is left of a division says where the quotient lies. -/
theorem located_div (m : Nat) {den : Nat} (hden : 0 < den) :
    Located (m / den) (accuracyOfFraction (m % den) den) ((m : ℚ) / den) := by
  have hden' : (0 : ℚ) < den := by exact_mod_cast hden
  have hlt : ((m % den : Nat) : ℚ) < den := by exact_mod_cast Nat.mod_lt m hden
  have hsplit : (m : ℚ) / den = (m / den : Nat) + (m % den : Nat) / den := by
    rw [eq_comm, ← mul_div_cancel_left₀ ((m / den : Nat) : ℚ) hden'.ne', ← add_div]
    congr 1
    exact_mod_cast Nat.div_add_mod m den
  rw [hsplit, accuracyOfFraction]
  split
  · next hzero => rw [hzero, Located, Nat.cast_zero, zero_div, add_zero]
  · next hrest =>
      have hpos : (0 : ℚ) < (m % den : Nat) := by exact_mod_cast Nat.pos_of_ne_zero hrest
      -- Twice the remainder, compared with the divisor, says on which side of the middle the
      -- quotient lies.
      cases hcompare : compare (2 * (m % den)) den with
      | lt =>
          have : (2 : ℚ) * (m % den : Nat) < den := by exact_mod_cast Nat.compare_eq_lt.mp hcompare
          refine ⟨by linarith [div_pos hpos hden'], ?_⟩
          rw [add_lt_add_iff_left, div_lt_iff₀ hden']
          linarith
      | eq =>
          have : (2 : ℚ) * (m % den : Nat) = den := by exact_mod_cast Nat.compare_eq_eq.mp hcompare
          show _ + _ = _
          rw [add_right_inj, div_eq_iff hden'.ne']
          linarith
      | gt =>
          have : (den : ℚ) < 2 * (m % den : Nat) := by exact_mod_cast Nat.compare_eq_gt.mp hcompare
          refine ⟨?_, ?_⟩
          · rw [add_lt_add_iff_left, lt_div_iff₀ hden']
            linarith
          · rw [add_lt_add_iff_left, div_lt_one hden']
            exact hlt

/-- The quotient of two numbers. -/
theorem div_covered {b : Binary} (hb : b.Canonical) {m₁ m₂ : Nat} {e₁ e₂ : Int} (h₁ : 0 < m₁)
    (h₂ : 0 < m₂) (hr : b.Covers (m₁ * 2 ^ e₁ / (m₂ * 2 ^ e₂))) :
    div Format.binary64 (.finite .positive m₁ e₁ h₁) (.finite .positive m₂ e₂ h₂) =
      .finite .positive b.mantissa b.exponent hb.pos := by
  let target := min (e₁ - e₂)
    (Format.binary64.targetExponent (totalExponent m₁ e₁ - totalExponent m₂ e₂))
  let shift := (e₁ - e₂ - target).toNat
  have hshift : (shift : Int) + target = e₁ - e₂ := by omega
  have hv := located_div (m₁ <<< shift) h₂
  have hvalue : ((m₁ <<< shift : Nat) : ℚ) / m₂ * 2 ^ target = m₁ * 2 ^ e₁ / (m₂ * 2 ^ e₂) := by
    have hpow : (2 : ℚ) ^ shift * 2 ^ target * 2 ^ e₂ = 2 ^ e₁ := by
      rw [← zpow_natCast, ← two_zpow_add, ← two_zpow_add, hshift, Int.sub_add_cancel]
    have hm₂ : (m₂ : ℚ) ≠ 0 := by exact_mod_cast h₂.ne'
    rw [Nat.shiftLeft_eq, ← hpow]
    push_cast
    field_simp
  refine round_covered hb hv ?_ (hvalue ▸ hr) .positive
  -- The first bit of the quotient is at least where the first bits of the operands say, less one.
  have hlow : (2 : ℚ) ^ ((m₁.log2 : Int) + e₁ - (m₂.log2 + 1 + e₂)) <
      m₁ * 2 ^ e₁ / (m₂ * 2 ^ e₂) := by
    have hfirst := (located_exact m₁).two_zpow_le h₁.ne' e₁
    have hsecond := (located_exact m₂).lt_two_zpow e₂
    have hm₁ : (0 : ℚ) < m₁ := by exact_mod_cast h₁
    have hm₂ : (0 : ℚ) < m₂ := by exact_mod_cast h₂
    rw [zpow_sub₀ (by norm_num)]
    exact div_lt_div₀' hfirst hsecond (mul_pos hm₁ (two_zpow_pos e₁))
      (mul_pos hm₂ (two_zpow_pos e₂))
  have hhigh := hv.lt_two_zpow target
  rw [hvalue] at hhigh
  have hbound := two_zpow_lt.mp (hlow.trans hhigh)
  have htarget : target = min (e₁ - e₂)
      (max ((m₁.log2 : Int) + 1 + e₁ - (m₂.log2 + 1 + e₂) - 53) (-1074)) := rfl
  show target ≤ _
  rw [target_eq]
  omega

/-- Bits in front are made up for by the exponent. -/
theorem shiftLeft_value (m count : Nat) :
    ((m <<< count : Nat) : ℚ) * 2 ^ (-(count : Int)) = m := by
  rw [Nat.shiftLeft_eq, Nat.cast_mul, Nat.cast_pow, Nat.cast_ofNat, mul_assoc, ← zpow_natCast,
    ← two_zpow_add, Int.add_right_neg, zpow_zero, mul_one]

/-- A decimal whose exponent is too large or too small for the format is in no interval. -/
theorem exponent_of_covers {b : Binary} (hb : b.Canonical) {n : Nat} {e : Int}
    (hr : b.Covers (n * 10 ^ e)) : 0 < n ∧ e ≤ 2048 ∧ -(2048 + (n.log2 : Int)) ≤ e := by
  obtain ⟨hlow, hhigh⟩ := hr.range hb
  have hpos : (0 : ℚ) < n * 10 ^ e := (two_zpow_pos _).trans_le hlow
  have hn : 0 < n := by
    rcases Nat.eq_zero_or_pos n with rfl | hn
    · rw [Nat.cast_zero, zero_mul] at hpos
      exact absurd hpos (lt_irrefl 0)
    · exact hn
  -- Ten is more than two, so the powers of ten leave the range of the format before those of two
  -- do.
  refine ⟨hn, ?_, ?_⟩
  · by_contra hlarge
    have hten : (2 : ℚ) ^ e ≤ 10 ^ e := zpow_le_zpow_left₀ (by omega) (by norm_num) (by norm_num)
    have hone : (10 : ℚ) ^ e ≤ n * 10 ^ e := by
      have hn' : (1 : ℚ) ≤ n := by exact_mod_cast hn
      exact le_mul_of_one_le_left (zpow_nonneg (by norm_num) e) hn'
    have := two_zpow_lt.mp ((hten.trans hone).trans_lt hhigh)
    omega
  · by_contra hsmall
    have hten : (10 : ℚ) ^ e ≤ 2 ^ e := by
      rw [← neg_neg e, zpow_neg, zpow_neg _ (-e)]
      refine inv_anti₀ (two_zpow_pos _) ?_
      exact zpow_le_zpow_left₀ (by omega) (by norm_num) (by norm_num)
    have hupper : (n : ℚ) * 10 ^ e < 2 ^ ((n.log2 : Int) + 1 + e) :=
      (mul_le_mul_of_nonneg_left hten (Nat.cast_nonneg n)).trans_lt
        ((located_exact n).lt_two_zpow e)
    have := two_zpow_lt.mp (hlow.trans_lt hupper)
    omega

/-- A whole number times a power of ten. -/
theorem ofScientific_covered {b : Binary} (hb : b.Canonical) {n : Nat} {e : Int}
    (hr : b.Covers (n * 10 ^ e)) :
    UnpackedFloat.ofScientific Format.binary64 n e =
      .finite .positive b.mantissa b.exponent hb.pos := by
  obtain ⟨hn, hlarge, hsmall⟩ := exponent_of_covers hb hr
  have hlarge' : ¬ e > 2 ^ Format.binary64.exponentBits := Int.not_lt.mpr hlarge
  have hsmall' : ¬ e < -((2 ^ Format.binary64.exponentBits : Int) + n.log2) := Int.not_lt.mpr hsmall
  rw [UnpackedFloat.ofScientific, dif_neg hn.ne', if_neg hlarge', if_neg hsmall']
  -- A power of ten is a factor if its exponent is not negative, and a divisor if it is.
  split
  · next he =>
      refine mul_covered hb _ _ ?_ ?_
      · have hpow : 0 < 10 ^ e.toNat := Nat.pow_pos (by decide)
        rw [show n <<< Format.binary64.mantissaBits = n * 2 ^ 53 from Nat.shiftLeft_eq n 53]
        nlinarith
      · convert hr using 1
        rw [shiftLeft_value, zpow_zero, mul_one, zpow_of_nonneg _ he, Nat.cast_pow, Nat.cast_ofNat]
  · next he =>
      refine div_covered hb _ _ ?_
      convert hr using 1
      rw [zpow_of_neg _ (Int.not_le.mp he), zpow_zero, mul_one, mul_one, div_eq_mul_inv,
        Nat.cast_pow, Nat.cast_ofNat]

end LookmlProject.Decimal
