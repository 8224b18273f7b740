import LookmlProject.Json.Reader
import LookmlProject.Proofs.Rounding

/-! # Floating-point numbers and their bits

    A floating-point number is its bits.  Those of a finite number are read as a
    mantissa and an exponent (`Binary.ofBits`), and packing these gives the bits back
    (`toNat_pack`).  A decimal in the interval of the number is therefore read as the
    number itself (`scaled_covered`), on the way through two exact numbers that is
    taken for short decimals as well as on the general one. -/

namespace LookmlProject.Decimal

open Float.Model Float.Model.UnpackedFloat

/-! ## Packing -/

/-- The number that bits stand for: without an exponent the bits are the mantissa, otherwise it has
one bit more in front. -/
theorem Binary.ofBits_eq {bits : Nat} (hfinite : bits < 2047 * 2 ^ 52) :
    Binary.ofBits bits =
      if bits / 2 ^ 52 = 0 then ⟨bits, -1074, false⟩
      else ⟨2 ^ 52 + bits % 2 ^ 52, (bits / 2 ^ 52 : Nat) - 1075,
        decide (bits % 2 ^ 52 = 0 ∧ 1 < bits / 2 ^ 52)⟩ := by
  have hfield : bits / Nat.pow 2 52 % Nat.pow 2 11 = bits / 2 ^ 52 :=
    Nat.mod_eq_of_lt (show bits / 2 ^ 52 < 2 ^ 11 by omega)
  simp only [Binary.ofBits, hfield]
  split
  · next hzero =>
      have hfraction : bits % Nat.pow 2 52 = bits :=
        Nat.mod_eq_of_lt (show bits < 2 ^ 52 by omega)
      rw [hfraction]
  · rfl

/-- Bits of a finite number stand for a number of the format. -/
theorem Binary.ofBits_canonical {bits : Nat} (hpos : 0 < bits)
    (hfinite : bits < 2047 * 2 ^ 52) : (Binary.ofBits bits).Canonical := by
  rw [Binary.ofBits_eq hfinite]
  split
  · exact ⟨hpos, by dsimp only; omega, le_refl _, by dsimp only; omega, Or.inr rfl, by simp⟩
  · refine ⟨?_, ?_, ?_, ?_, Or.inl (Nat.le_add_right _ _), ?_⟩ <;> dsimp only
    · omega
    · omega
    · omega
    · omega
    · rw [decide_eq_true_iff]
      omega

/-- The bit of a sign. -/
def signBit : Sign → Nat
  | .positive => 0
  | .negative => 1

theorem toNat_append {width count : Nat} (x : BitVec width) (y : BitVec count) :
    (x ++ y).toNat = x.toNat * 2 ^ count + y.toNat := by
  rw [BitVec.toNat_append, ← Nat.shiftLeft_add_eq_or_of_lt y.isLt, Nat.shiftLeft_eq]

/-- The parts of a number stand side by side in its bits. -/
theorem toNat_packComponents (sign : Sign) (exponent : BitVec 11) (mantissa : BitVec 52) :
    (packComponents Format.binary64 sign exponent mantissa).toNat =
      signBit sign * 2 ^ 63 + exponent.toNat * 2 ^ 52 + mantissa.toNat := by
  have hsign : sign.toBitVec.toNat = signBit sign := by cases sign <;> rfl
  rw [packComponents]
  show (sign.toBitVec ++ exponent ++ mantissa).toNat = _
  rw [toNat_append, toNat_append, hsign]
  omega

variable {b : Binary}

/-- The bits of a number: the exponent is counted from one on, and the first bit of a mantissa of 53
bits is left out. -/
theorem pack_canonical (hb : b.Canonical) (sign : Sign) :
    UnpackedFloat.pack Format.binary64 (.finite sign b.mantissa b.exponent hb.pos) =
      packComponents Format.binary64 sign
        (if 2 ^ 52 ≤ b.mantissa then BitVec.ofNat 11 (b.exponent + 1075).toNat else 0#11)
        (BitVec.ofNat 52 b.mantissa) := by
  have hbiased : (b.exponent + (Format.binary64.exponentBias : Int) +
      (Format.binary64.mantissaBitsWithoutImplicit : Int)).toNat = (b.exponent + 1075).toNat := by
    show (b.exponent + 1023 + 52).toNat = _
    omega
  have hfits : ¬ 2 ^ Format.binary64.exponentBits ≤ (b.exponent + 1075).toNat + 1 := by
    show ¬ 2 ^ 11 ≤ _
    have := hb.high
    omega
  have hbits : b.mantissa.log2 + 1 = Format.binary64.mantissaBits ↔ 2 ^ 52 ≤ b.mantissa := by
    show b.mantissa.log2 + 1 = 53 ↔ _
    rw [← Nat.le_log2 hb.pos.ne']
    have := (Nat.log2_lt hb.pos.ne').mpr hb.lt
    omega
  simp only [UnpackedFloat.pack, hbiased, if_neg hfits, hbits]
  split <;> rfl

/-- A number that is packed and unpacked is the number. -/
theorem unpack_pack (hb : b.Canonical) (sign : Sign) :
    (Float.Model.pack (.finite sign b.mantissa b.exponent hb.pos)).unpack =
      .finite sign b.mantissa b.exponent hb.pos := by
  show UnpackedFloat.unpack Format.binary64
    (UnpackedFloat.pack Format.binary64 (.finite sign b.mantissa b.exponent hb.pos)) = _
  rw [pack_canonical hb, UnpackedFloat.unpack]
  simp only [unpackMantissa_packComponents, unpackExponent_packComponents,
    unpackSign_packComponents, Sign.ofBitVec_toBitVec]
  have hlow := hb.low
  have hhigh := hb.high
  have hlt := hb.lt
  -- A mantissa of 53 bits gets its first bit back; a smaller one has the least exponent.
  by_cases hnormal : 2 ^ 52 ≤ b.mantissa
  · have hfield : (BitVec.ofNat 11 (b.exponent + 1075).toNat).toNat = (b.exponent + 1075).toNat :=
      Nat.mod_eq_of_lt (by omega)
    have hmantissa : (1#1 ++ BitVec.ofNat 52 b.mantissa).toNat = b.mantissa := by
      rw [toNat_append]
      show 1 * 2 ^ 52 + b.mantissa % 2 ^ 52 = b.mantissa
      omega
    rw [if_pos hnormal, if_neg, if_neg]
    · refine finite_congr hmantissa ?_
      rw [hfield]
      show ((b.exponent + 1075).toNat : Int) - (1023 + 52) = _
      omega
    · intro hzero
      rw [hzero] at hfield
      have : (0 : Nat) = (b.exponent + 1075).toNat := hfield
      omega
    · intro hones
      rw [hones] at hfield
      have : (2047 : Nat) = (b.exponent + 1075).toNat := hfield
      omega
  · have hmantissa : (BitVec.ofNat 52 b.mantissa).toNat = b.mantissa :=
      Nat.mod_eq_of_lt (by omega)
    rw [if_neg hnormal, if_neg (by decide), if_pos rfl, dif_neg]
    · refine finite_congr hmantissa ?_
      rw [hb.normal.resolve_left hnormal]
      rfl
    · intro hzero
      rw [hzero] at hmantissa
      exact hb.pos.ne hmantissa

/-- Packing the number that bits stand for gives the bits, with the one of the sign. -/
theorem toNat_pack {bits : Nat} (hpos : 0 < bits) (hfinite : bits < 2047 * 2 ^ 52) (sign : Sign) :
    (UnpackedFloat.pack Format.binary64 (.finite sign (Binary.ofBits bits).mantissa
      (Binary.ofBits bits).exponent (Binary.ofBits_canonical hpos hfinite).pos)).toNat =
        signBit sign * 2 ^ 63 + bits := by
  rw [pack_canonical (Binary.ofBits_canonical hpos hfinite), toNat_packComponents, add_assoc]
  congr 1
  rw [Binary.ofBits_eq hfinite]
  split
  · dsimp only
    rw [if_neg (by omega), BitVec.toNat_ofNat, BitVec.toNat_ofNat]
    omega
  · have hexponent : (((bits / 2 ^ 52 : Nat) : Int) - 1075 + 1075).toNat = bits / 2 ^ 52 := by omega
    dsimp only
    rw [if_pos (Nat.le_add_right _ _), BitVec.toNat_ofNat, BitVec.toNat_ofNat, hexponent]
    omega

/-! ## Exact numbers -/

/-- A number lies in its own interval. -/
theorem Binary.Covers.self {b : Binary} : b.Covers (b.mantissa * 2 ^ b.exponent) := by
  have hpow := two_zpow_pos b.exponent
  refine .of_lt (mul_lt_mul_of_pos_right ?_ hpow) (mul_lt_mul_of_pos_right ?_ hpow)
  · linarith [b.reach_bounds.1]
  · linarith

/-- A whole number as one of 53 bits. -/
def Binary.ofNat (n : Nat) : Binary :=
  let count := 52 - n.log2
  ⟨n <<< count, -(count : Int), decide (n <<< count = 2 ^ 52)⟩

/-- A whole number is moved to 53 bits. -/
theorem shiftLeft_bits {n : Nat} (hpos : 0 < n) (hlt : n < 2 ^ 53) :
    2 ^ 52 ≤ n <<< (52 - n.log2) ∧ n <<< (52 - n.log2) < 2 ^ 53 := by
  have hlog : n.log2 ≤ 52 := Nat.le_of_lt_succ ((Nat.log2_lt hpos.ne').mpr hlt)
  have hpow : ∀ k, 2 ^ (n.log2 + k) * 2 ^ (52 - n.log2) = 2 ^ (52 + k) := by
    intro k
    rw [← Nat.pow_add]
    congr 1
    omega
  rw [Nat.shiftLeft_eq]
  constructor
  · rw [← hpow 0]
    exact Nat.mul_le_mul_right _ (Nat.log2_self_le hpos.ne')
  · rw [← hpow 1]
    exact Nat.mul_lt_mul_of_pos_right Nat.lt_log2_self (Nat.pow_pos (by decide))

theorem Binary.ofNat_canonical {n : Nat} (hpos : 0 < n) (hlt : n < 2 ^ 53) :
    (Binary.ofNat n).Canonical := by
  obtain ⟨hlow, hhigh⟩ := shiftLeft_bits hpos hlt
  refine ⟨?_, hhigh, ?_, ?_, Or.inl hlow, ?_⟩ <;> dsimp only [Binary.ofNat]
  · omega
  · omega
  · omega
  · rw [decide_eq_true_iff]
    omega

/-- A whole number of at most 53 bits is not rounded. -/
theorem ofNat_exact {n : Nat} (hpos : 0 < n) (hlt : n < 2 ^ 53) :
    UnpackedFloat.ofNat Format.binary64 n = .finite .positive (Binary.ofNat n).mantissa
      (Binary.ofNat n).exponent (Binary.ofNat_canonical hpos hlt).pos := by
  have hlow := (shiftLeft_bits hpos hlt).1
  have hlog : n.log2 ≤ 52 := Nat.le_of_lt_succ ((Nat.log2_lt hpos.ne').mpr hlt)
  have hcompare : compare (n : Int) 0 = .gt := Int.compare_eq_gt.mpr (by omega)
  have hshift : (0 - Format.binary64.targetExponent (totalExponent n 0)).toNat = 52 - n.log2 := by
    rw [target_eq]
    omega
  rw [UnpackedFloat.ofNat, UnpackedFloat.ofInt, UnpackedFloat.normalize, hcompare]
  show UnpackedFloat.round Format.binary64 .positive n 0 = _
  rw [UnpackedFloat.round, decreaseExponent, hshift]
  refine round_covered (Binary.ofNat_canonical hpos hlt) (located_exact (n <<< (52 - n.log2)))
    ?_ ?_ .positive
  · rw [target_eq]
    have := (Nat.le_log2 (show n <<< (52 - n.log2) ≠ 0 by omega)).mpr hlow
    omega
  · rw [Int.zero_sub]
    exact Binary.Covers.self

/-- A whole number of at most 53 bits is exact, and has 53 bits then. -/
theorem unpack_toFloat {n : Nat} (hpos : 0 < n) (hlt : n < 2 ^ 53) :
    ∃ (m : Nat) (e : Int) (hm : 0 < m),
      n.toUInt64.toFloat.toModel.unpack = .finite .positive m e hm ∧
        2 ^ 52 ≤ m ∧ (m : ℚ) * 2 ^ e = n := by
  refine ⟨(Binary.ofNat n).mantissa, (Binary.ofNat n).exponent,
    (Binary.ofNat_canonical hpos hlt).pos, ?_, (shiftLeft_bits hpos hlt).1, shiftLeft_value n _⟩
  have hnat : n.toUInt64.toNat = n := Nat.mod_eq_of_lt (Nat.lt_trans hlt (by decide))
  show (Float.Model.pack (UnpackedFloat.ofNat Format.binary64 n.toUInt64.toNat)).unpack = _
  rw [hnat, ofNat_exact hpos hlt]
  exact unpack_pack (Binary.ofNat_canonical hpos hlt) .positive

/-- Whether a number of the table is the power of ten that it should be. -/
def isPowerOfTen (x : UnpackedFloat) (count : Nat) : Bool :=
  match x with
  | .finite .positive m e _ =>
    decide (2 ^ 52 ≤ m) &&
      if 0 ≤ e then m * 2 ^ e.toNat == 10 ^ count else m == 10 ^ count * 2 ^ (-e).toNat
  | _ => false

/-- The numbers of the table are the powers of ten. -/
theorem table_isPowerOfTen : (List.range 23).all (fun count =>
    isPowerOfTen (Float.exactlyRepresentablePowersOfTen[count]!).toModel.unpack count) = true := by
  decide +kernel

/-- A power of ten in the table is exact, and has 53 bits. -/
theorem unpack_powerOfTen {count : Nat} (h : count < Float.exactlyRepresentablePowersOfTen.size) :
    ∃ (m : Nat) (e : Int) (hm : 0 < m),
      Float.exactlyRepresentablePowersOfTen[count].toModel.unpack = .finite .positive m e hm ∧
        2 ^ 52 ≤ m ∧ (m : ℚ) * 2 ^ e = 10 ^ count := by
  have hcheck := List.all_eq_true.mp table_isPowerOfTen count (List.mem_range.mpr h)
  rw [getElem!_pos Float.exactlyRepresentablePowersOfTen count h] at hcheck
  generalize Float.exactlyRepresentablePowersOfTen[count].toModel.unpack = x at hcheck ⊢
  cases x with
  | finite sign m e hm =>
      cases sign with
      | negative => cases hcheck
      | positive =>
          rw [isPowerOfTen, Bool.and_eq_true, decide_eq_true_iff] at hcheck
          refine ⟨m, e, hm, rfl, hcheck.1, ?_⟩
          have hvalue := hcheck.2
          split at hvalue
          · next he =>
              rw [beq_iff_eq] at hvalue
              rw [zpow_of_nonneg _ he]
              exact_mod_cast hvalue
          · next he =>
              rw [beq_iff_eq] at hvalue
              rw [zpow_of_neg _ (Int.not_le.mp he), hvalue]
              push_cast
              rw [mul_inv_cancel_right₀ (by positivity)]
  | _ => cases hcheck

/-! ## Decimals -/

/-- A decimal in the interval of a number is read as the number. -/
theorem ofScientific_eq (hb : b.Canonical) {n count : Nat} (negative : Bool)
    (hr : b.Covers (n * 10 ^ (if negative then -(count : Int) else count))) :
    Float.ofScientific n negative count =
      .ofModel (.pack (.finite .positive b.mantissa b.exponent hb.pos)) := by
  rw [Float.ofScientific]
  split
  · next hfast =>
      -- Two exact numbers, and one rounding of their quotient or product.
      have hn := (exponent_of_covers hb hr).1
      obtain ⟨m₁, e₁, h₁, hwhole, hbits₁, hvalue₁⟩ := unpack_toFloat hn hfast.1
      obtain ⟨m₂, e₂, h₂, hten, hbits₂, hvalue₂⟩ :=
        @unpack_powerOfTen count (Nat.lt_of_le_of_lt hfast.2 (by decide))
      cases negative with
      | true =>
          show Float.ofModel (.pack (UnpackedFloat.div Format.binary64 _ _)) = _
          rw [hwhole, hten, div_covered hb h₁ h₂]
          rw [hvalue₁, hvalue₂]
          rw [if_pos rfl, zpow_neg, zpow_natCast] at hr
          rwa [div_eq_mul_inv]
      | false =>
          show Float.ofModel (.pack (UnpackedFloat.mul Format.binary64 _ _)) = _
          rw [hwhole, hten, mul_covered hb h₁ h₂]
          · nlinarith
          · rw [hvalue₁, hvalue₂]
            rw [if_neg Bool.false_ne_true, zpow_natCast] at hr
            exact hr
  · show Float.ofModel (.pack (UnpackedFloat.ofScientific Format.binary64 n _)) = _
    rw [ofScientific_covered hb]
    cases negative with
    | true =>
        rw [if_pos rfl] at hr ⊢
        rwa [Int.negOfNat_eq]
    | false => exact hr

/-- The number with a sign. -/
theorem scaled_covered (hb : b.Canonical) {n : Nat} {e : Int} (hr : b.Covers (n * 10 ^ e))
    (negative : Bool) :
    Json.scaled negative n e =
      .ofModel (.pack (.finite (if negative then .negative else .positive)
        b.mantissa b.exponent hb.pos)) := by
  have habs : (if e < 0 then Float.ofScientific n true e.natAbs
      else Float.ofScientific n false e.natAbs) =
        .ofModel (.pack (.finite .positive b.mantissa b.exponent hb.pos)) := by
    split
    · next he =>
        refine ofScientific_eq hb true ?_
        rw [if_pos rfl, show -(e.natAbs : Int) = e by omega]
        exact hr
    · next he =>
        refine ofScientific_eq hb false ?_
        rw [if_neg Bool.false_ne_true, show (e.natAbs : Int) = e by omega]
        exact hr
  rw [Json.scaled, habs]
  cases negative with
  | true =>
      show Float.ofModel (.pack (UnpackedFloat.neg
        (Float.Model.pack (.finite .positive b.mantissa b.exponent hb.pos)).unpack)) = _
      rw [unpack_pack hb]
      rfl
  | false => rfl

/-! ## Numbers from their bits -/

theorem float_eq_of_toBits {x y : Float} (h : x.toBits.toNat = y.toBits.toNat) : x = y :=
  Float.toBits_inj.mp (UInt64.toNat_inj.mp h)

/-- A decimal in the interval of a finite number is read as the number, if the sign is right. -/
theorem scaled_eq {x : Float} (hpos : 0 < x.toBits.toNat % 2 ^ 63)
    (hfinite : x.toBits.toNat % 2 ^ 63 < 2047 * 2 ^ 52) {n : Nat} {e : Int}
    (hr : (Binary.ofBits (x.toBits.toNat % 2 ^ 63)).Covers (n * 10 ^ e)) :
    Json.scaled (decide (2 ^ 63 ≤ x.toBits.toNat)) n e = x := by
  rw [scaled_covered (Binary.ofBits_canonical hpos hfinite) hr]
  refine float_eq_of_toBits ?_
  refine (toNat_pack hpos hfinite _).trans ?_
  have hlt := x.toBits.toNat_lt
  split
  · next hnegative =>
      have := of_decide_eq_true hnegative
      show 1 * 2 ^ 63 + _ = _
      omega
  · next hpositive =>
      have := of_decide_eq_false (Bool.not_eq_true _ ▸ hpositive)
      show 0 * 2 ^ 63 + _ = _
      omega

/-- There is one floating-point number that is no number. -/
theorem eq_nan {x : Float} (h : 2047 * 2 ^ 52 < x.toBits.toNat % 2 ^ 63) : x = 0.0 / 0.0 := by
  have hlt := x.toBits.toNat_lt
  -- All bits of the exponent are set and some of the mantissa are, which the format allows once.
  have hexponent : @unpackExponent Format.binary64 x.toBits.toBitVec = -1#_ := by
    refine BitVec.eq_of_toNat_eq ?_
    show x.toBits.toNat >>> 52 % 2 ^ 11 = 2047
    rw [Nat.shiftRight_eq_div_pow]
    omega
  have hmantissa : @unpackMantissa Format.binary64 x.toBits.toBitVec ≠ 0#_ := by
    intro hzero
    have hnat := congrArg BitVec.toNat hzero
    change x.toBits.toNat >>> 0 % 2 ^ 52 = 0 at hnat
    rw [Nat.shiftRight_zero] at hnat
    omega
  refine float_eq_of_toBits ?_
  refine (congrArg BitVec.toNat (x.toModel.valid.eq_packedNaN hexponent hmantissa)).trans ?_
  decide +kernel

end LookmlProject.Decimal
