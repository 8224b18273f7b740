import LookmlProject.Bytes.Base64
import LookmlProject.Bytes.Utf8
import LookmlProject.Text.Units

/-! # Bytes and texts, there and back

    What is encoded is decoded to what it was, for base64 (`Base64.decode_encode`),
    for UTF-8 (`Utf8.decode_encode`) and for UTF-16 (`Text.ofUnits_units`).  The
    proofs follow the decoder: one digit moves it to the next place of a group, one
    character takes as many bytes or units as its first one says. -/

namespace LookmlProject

/-- Where each element takes some place, there are no more elements than places. -/
theorem length_le_flatMap {α β : Type} {f : α → List β} (h : ∀ a, f a ≠ []) (l : List α) :
    l.length ≤ (l.flatMap f).length := by
  induction l with
  | nil => exact Nat.le_refl 0
  | cons a rest ih =>
      have hpos := List.length_pos_iff.mpr (h a)
      rw [List.flatMap_cons, List.length_append, List.length_cons]
      omega

end LookmlProject

namespace LookmlProject.Base64

/-- A digit is read as the six bits that it stands for, is no filling, and is ASCII. -/
theorem digit_spec : ∀ n < 64,
    digit? (digit n) = some n ∧ digit n ≠ '=' ∧ (digit n).toNat < 128 := by
  decide

/-- One digit adds its six bits at the place where the decoder is. -/
theorem decodeFrom_digit (place : Place) {n : Nat} (h : n < 64) (rest : List Char) :
    decodeFrom place (digit n :: rest) =
      ((place.take n).1 ++ ·) <$> decodeFrom (place.take n).2 rest := by
  obtain ⟨hdigit, hfill, _⟩ := digit_spec n h
  rw [decodeFrom, if_neg hfill, hdigit]

/-- Base64 texts are decoded to the bytes that they were made of. -/
theorem decode_encode (bytes : List Nat) (h : ∀ b ∈ bytes, b < 256) :
    decode (encode bytes) = some bytes := by
  rw [decode]
  fun_induction encode bytes with
  | case1 => rfl
  | case2 a =>
      have ha : a < 256 := h a (by simp)
      rw [decodeFrom_digit _ (by omega), decodeFrom_digit _ (by omega)]
      simp [Place.take, Place.start, decodeFrom]
      omega
  | case3 a b =>
      have ha : a < 256 := h a (by simp)
      have hb : b < 256 := h b (by simp)
      rw [decodeFrom_digit _ (by omega), decodeFrom_digit _ (by omega),
        decodeFrom_digit _ (by omega)]
      simp [Place.take, Place.start, decodeFrom]
      omega
  | case4 a b c rest ih =>
      have ha : a < 256 := h a (by simp)
      have hb : b < 256 := h b (by simp)
      have hc : c < 256 := h c (by simp)
      have hrest := ih fun x hx => h x (by simp [hx])
      rw [decodeFrom_digit _ (by omega), decodeFrom_digit _ (by omega),
        decodeFrom_digit _ (by omega), decodeFrom_digit _ (by omega)]
      simp only [Place.take, Place.start] at hrest ⊢
      rw [hrest]
      simp
      omega

/-- Base64 texts are ASCII. -/
theorem encode_ascii (bytes : List Nat) (h : ∀ b ∈ bytes, b < 256) :
    ∀ c ∈ encode bytes, c.toNat < 128 := by
  have hdigit : ∀ n < 64, (digit n).toNat < 128 := fun n hn => (digit_spec n hn).2.2
  have hfill : '='.toNat < 128 := by decide
  fun_induction encode bytes with
  | case1 => exact fun c hc => nomatch hc
  | case2 a =>
      have ha : a < 256 := h a (by simp)
      simp only [List.forall_mem_cons]
      exact ⟨hdigit _ (by omega), hdigit _ (by omega), hfill, hfill, fun _ hc => nomatch hc⟩
  | case3 a b =>
      have ha : a < 256 := h a (by simp)
      have hb : b < 256 := h b (by simp)
      simp only [List.forall_mem_cons]
      exact ⟨hdigit _ (by omega), hdigit _ (by omega), hdigit _ (by omega), hfill,
        fun _ hc => nomatch hc⟩
  | case4 a b c rest ih =>
      have ha : a < 256 := h a (by simp)
      have hb : b < 256 := h b (by simp)
      have hc : c < 256 := h c (by simp)
      simp only [List.forall_mem_cons]
      exact ⟨hdigit _ (by omega), hdigit _ (by omega), hdigit _ (by omega), hdigit _ (by omega),
        ih fun x hx => h x (by simp [hx])⟩

end LookmlProject.Base64

namespace LookmlProject.Utf8

/-- Characters end at the last code point. -/
theorem toNat_lt (c : Char) : c.toNat < 0x110000 := by
  rcases c.valid with h | h
  · exact Nat.lt_trans h (by decide)
  · exact h.2

/-- A code point that needs as many bytes as were read gives its character. -/
theorem charFrom_toNat (c : Char) {low : Nat} (h : low ≤ c.toNat) :
    charFrom low c.toNat = some c := by
  rw [charFrom, if_pos ⟨h, c.valid⟩, Char.ofNat_toNat]

/-- Six bits behind the mark of a tail are a tail. -/
theorem isTail_six (n : Nat) : isTail (0x80 + n % 64) = true := by
  have : n % 64 < 64 := Nat.mod_lt _ (by decide)
  simp only [isTail, Bool.and_eq_true, decide_eq_true_eq]
  omega

/-- One character is decoded to itself, whatever stands behind it.  The cases are the numbers of
bytes that characters take. -/
theorem decodeChar_encodeChar (c : Char) (rest : List Nat) :
    decodeChar (encodeChar c ++ rest) = some (c, rest) := by
  have hlt := toNat_lt c
  rw [encodeChar]
  by_cases h1 : c.toNat < 0x80
  · simp only [if_pos h1, List.cons_append, List.nil_append, decodeChar, Char.ofNat_toNat]
  by_cases h2 : c.toNat < 0x800
  · have hlead : ¬ 0xC0 + c.toNat / 64 < 0x80 := by omega
    have htwo : (0xC0 ≤ 0xC0 + c.toNat / 64 && 0xC0 + c.toNat / 64 < 0xE0) = true := by
      simp only [Bool.and_eq_true, decide_eq_true_eq]
      omega
    have hsum : (0xC0 + c.toNat / 64 - 0xC0) * 64 + (0x80 + c.toNat % 64 - 0x80) = c.toNat := by
      omega
    simp only [if_neg h1, if_pos h2, List.cons_append, List.nil_append, decodeChar, if_neg hlead,
      isTail_six, Bool.not_true, Bool.false_eq_true, if_false, htwo, if_true, hsum,
      charFrom_toNat c (Nat.not_lt.mp h1), Option.map_some]
  by_cases h3 : c.toNat < 0x10000
  · have hlead : ¬ 0xE0 + c.toNat / 4096 < 0x80 := by omega
    have htwo : (0xC0 ≤ 0xE0 + c.toNat / 4096 && 0xE0 + c.toNat / 4096 < 0xE0) = false := by
      simp only [Bool.and_eq_false_iff, decide_eq_false_iff_not]
      omega
    have hthree : (0xE0 ≤ 0xE0 + c.toNat / 4096 && 0xE0 + c.toNat / 4096 < 0xF0) = true := by
      simp only [Bool.and_eq_true, decide_eq_true_eq]
      omega
    have hsum : (0xE0 + c.toNat / 4096 - 0xE0) * 4096 + (0x80 + c.toNat / 64 % 64 - 0x80) * 64 +
        (0x80 + c.toNat % 64 - 0x80) = c.toNat := by
      omega
    simp only [if_neg h1, if_neg h2, if_pos h3, List.cons_append, List.nil_append, decodeChar,
      if_neg hlead, isTail_six, Bool.not_true, Bool.false_eq_true, if_false, htwo, hthree, if_true,
      hsum, charFrom_toNat c (Nat.not_lt.mp h2), Option.map_some]
  · have hlead : ¬ 0xF0 + c.toNat / 262144 < 0x80 := by omega
    have htwo : (0xC0 ≤ 0xF0 + c.toNat / 262144 && 0xF0 + c.toNat / 262144 < 0xE0) = false := by
      simp only [Bool.and_eq_false_iff, decide_eq_false_iff_not]
      omega
    have hthree : (0xE0 ≤ 0xF0 + c.toNat / 262144 && 0xF0 + c.toNat / 262144 < 0xF0) = false := by
      simp only [Bool.and_eq_false_iff, decide_eq_false_iff_not]
      omega
    have hfour : (isTail (0x80 + c.toNat % 64) && 0xF0 ≤ 0xF0 + c.toNat / 262144 &&
        0xF0 + c.toNat / 262144 < 0xF8) = true := by
      simp only [isTail_six, Bool.true_and, Bool.and_eq_true, decide_eq_true_eq]
      omega
    have hsum : (0xF0 + c.toNat / 262144 - 0xF0) * 262144 +
        (0x80 + c.toNat / 4096 % 64 - 0x80) * 4096 + (0x80 + c.toNat / 64 % 64 - 0x80) * 64 +
        (0x80 + c.toNat % 64 - 0x80) = c.toNat := by
      omega
    simp only [if_neg h1, if_neg h2, if_neg h3, List.cons_append, List.nil_append, decodeChar,
      if_neg hlead, isTail_six (c.toNat / 4096), isTail_six (c.toNat / 64), Bool.not_true,
      Bool.false_eq_true, if_false, htwo, hthree, hfour, if_true, hsum,
      charFrom_toNat c (Nat.not_lt.mp h3), Option.map_some]

/-- Every character takes a byte at least. -/
theorem encodeChar_ne_nil (c : Char) : encodeChar c ≠ [] := by
  simp only [encodeChar]
  split
  · simp
  · split
    · simp
    · split <;> simp

/-- A character is encoded in bytes. -/
theorem encodeChar_lt (c : Char) : ∀ b ∈ encodeChar c, b < 256 := by
  have hlt := toNat_lt c
  simp only [encodeChar]
  -- The cases are the numbers of bytes again.
  intro b hb
  split at hb
  · simp only [List.mem_cons, List.not_mem_nil, or_false] at hb
    omega
  · split at hb
    · simp only [List.mem_cons, List.not_mem_nil, or_false] at hb
      omega
    · split at hb <;> simp only [List.mem_cons, List.not_mem_nil, or_false] at hb <;> omega

theorem encode_lt (cs : List Char) : ∀ b ∈ encode cs, b < 256 := by
  intro b hb
  obtain ⟨c, _, hc⟩ := List.mem_flatMap.mp hb
  exact encodeChar_lt c b hc

/-- One round for each character is enough. -/
theorem decodeFuel_encode (cs : List Char) :
    ∀ fuel, cs.length ≤ fuel → decodeFuel fuel (encode cs) = some cs := by
  induction cs with
  | nil => intro fuel _; cases fuel <;> rfl
  | cons c rest ih =>
      intro fuel hfuel
      cases fuel with
      | zero => exact absurd hfuel (Nat.not_succ_le_zero _)
      | succ fuel =>
          obtain ⟨b, bs, hbytes⟩ : ∃ b bs, encode (c :: rest) = b :: bs := by
            rw [encode, List.flatMap_cons]
            exact List.exists_cons_of_ne_nil (by simp [encodeChar_ne_nil])
          have hchar : decodeChar (encode (c :: rest)) = some (c, encode rest) :=
            decodeChar_encodeChar c (encode rest)
          rw [hbytes] at hchar ⊢
          rw [decodeFuel, hchar]
          · show (c :: ·) <$> decodeFuel fuel (encode rest) = _
            rw [ih fuel (Nat.le_of_succ_le_succ hfuel)]
            rfl
          · exact fun h => nomatch h

/-- UTF-8 bytes are decoded to the text that they were made of. -/
theorem decode_encode (cs : List Char) : decode (encode cs) = some cs :=
  decodeFuel_encode cs _ (length_le_flatMap encodeChar_ne_nil cs)

end LookmlProject.Utf8

namespace LookmlProject.Text

/-- The first units of pairs, as numbers. -/
theorem isHigh_iff (u : UInt16) : isHigh u = true ↔ 0xD800 ≤ u.toNat ∧ u.toNat < 0xDC00 := by
  simp only [isHigh, Bool.and_eq_true, decide_eq_true_eq, UInt16.le_iff_toNat_le,
    UInt16.lt_iff_toNat_lt]
  exact Iff.rfl

/-- The second units of pairs, as numbers. -/
theorem isLow_iff (u : UInt16) : isLow u = true ↔ 0xDC00 ≤ u.toNat ∧ u.toNat < 0xE000 := by
  simp only [isLow, Bool.and_eq_true, decide_eq_true_eq, UInt16.le_iff_toNat_le,
    UInt16.lt_iff_toNat_lt]
  exact Iff.rfl

theorem toNat_toUInt16 {n : Nat} (h : n < 0x10000) : n.toUInt16.toNat = n :=
  Nat.mod_eq_of_lt h

/-- A unit that does not start a pair is a character of its own. -/
theorem ofUnits_cons {u : UInt16} (h : isHigh u = false) (rest : List UInt16) :
    ofUnits (u :: rest) = unitChar u :: ofUnits rest := by
  cases rest with
  | nil => rfl
  | cons v rest => rw [ofUnits, h, Bool.false_and, if_neg Bool.false_ne_true]

/-- A character is read from its units, whatever stands behind them. -/
theorem ofUnits_charUnits (c : Char) (rest : List UInt16) :
    ofUnits (charUnits c ++ rest) = c :: ofUnits rest := by
  have hvalid : c.toNat < 0xD800 ∨ 0xDFFF < c.toNat ∧ c.toNat < 0x110000 := c.valid
  rw [charUnits]
  -- One unit, which no code point of a pair takes, or two that are put together again.
  by_cases h : c.toNat < 0x10000
  · have hnat := toNat_toUInt16 h
    have hhigh : isHigh c.toNat.toUInt16 = false := by
      rw [← Bool.not_eq_true, isHigh_iff, hnat]
      omega
    have hlow : isLow c.toNat.toUInt16 = false := by
      rw [← Bool.not_eq_true, isLow_iff, hnat]
      omega
    rw [if_pos h, List.singleton_append, ofUnits_cons hhigh, unitChar, hhigh, hlow, hnat,
      Char.ofNat_toNat]
    rfl
  · have hn : c.toNat - 0x10000 < 0x100000 := by omega
    have hfirst : (0xD800 + (c.toNat - 0x10000) / 0x400).toUInt16.toNat =
        0xD800 + (c.toNat - 0x10000) / 0x400 := toNat_toUInt16 (by omega)
    have hsecond : (0xDC00 + (c.toNat - 0x10000) % 0x400).toUInt16.toNat =
        0xDC00 + (c.toNat - 0x10000) % 0x400 := toNat_toUInt16 (by omega)
    have hhigh : isHigh (0xD800 + (c.toNat - 0x10000) / 0x400).toUInt16 = true := by
      rw [isHigh_iff, hfirst]
      omega
    have hlow : isLow (0xDC00 + (c.toNat - 0x10000) % 0x400).toUInt16 = true := by
      rw [isLow_iff, hsecond]
      omega
    have hpair : pairChar (0xD800 + (c.toNat - 0x10000) / 0x400).toUInt16
        (0xDC00 + (c.toNat - 0x10000) % 0x400).toUInt16 = c := by
      rw [pairChar, hfirst, hsecond, show 0x10000 +
        (0xD800 + (c.toNat - 0x10000) / 0x400 - 0xD800) * 0x400 +
        (0xDC00 + (c.toNat - 0x10000) % 0x400 - 0xDC00) = c.toNat by omega, Char.ofNat_toNat]
    rw [if_neg h]
    simp only [List.cons_append, List.nil_append, ofUnits, hhigh, hlow, Bool.and_self, if_true,
      hpair]

/-- A text is read from its units. -/
theorem ofUnits_units (cs : List Char) : ofUnits (units cs) = cs := by
  induction cs with
  | nil => rfl
  | cons c rest ih =>
      rw [units, List.flatMap_cons, ofUnits_charUnits]
      exact congrArg (c :: ·) ih

/-- Different texts have different units. -/
theorem units_injective {first second : List Char} (h : units first = units second) :
    first = second := by
  rw [← ofUnits_units first, h, ofUnits_units]

end LookmlProject.Text
