import LookmlProject.Credential
import LookmlProject.Proofs.Apostrophes
import LookmlProject.Proofs.Bytes
import LookmlProject.Proofs.JsonRoundTrip

/-! # Which credentials come back

    A credential travels with apostrophes in the place of double quotes.  A plain
    value comes back as it was **exactly if** none of its strings has an apostrophe
    (`decode_encode_iff_no_apostrophe`).  The route:

    • a plain value has no number that is too long, so that it is written and
      encoded (`encode_of_regular`);
    • base64 and UTF-8 lose nothing, so that decoding parses the JSON text with
      double quotes for apostrophes (`decode_pack`);
    • without apostrophes this is the JSON text itself, which is read back;
    • with apostrophes the text is still clean, so that what is read from it, if
      anything, has no apostrophe in it and cannot equal the value.

    A number of more than `Decimal.maxDigits` digits is neither written nor read
    (`long_number_refused`). -/

namespace LookmlProject.Credential

theorem swapChar_swapChar (cs : List Char) :
    Text.swapChar '\'' '"' (Text.swapChar '"' '\'' cs) = Text.swapChar '\'' '"' cs := by
  rw [Text.swapChar, Text.swapChar, List.map_map]
  refine List.map_congr_left fun c _ => ?_
  by_cases hc : c = '"'
  · subst hc
    rfl
  · rw [Function.comp_apply, if_neg hc]

/-- A credential is encoded if none of its numbers is too long. -/
theorem encode_of_regular {v : Json} (hv : v.Regular) : encode v = .ok (pack v.render) := by
  rw [encode, Json.write_of_regular hv]
  rfl

/-- Decoding a packed text parses it, less its apostrophes. -/
theorem decode_pack (text : String) :
    decode (pack text) = Json.parse (Text.swapChar '\'' '"' text.toList) := by
  have hbytes := Utf8.encode_lt (Text.swapChar '"' '\'' text.toList)
  have hascii : ((Base64.encode (Utf8.encode (Text.swapChar '"' '\'' text.toList))).any
      fun c => 128 ≤ c.toNat) = false := by
    rw [List.any_eq_false]
    intro c hc
    have hlt := Base64.encode_ascii _ hbytes c hc
    simp only [decide_eq_true_eq]
    omega
  simp only [decode, pack, String.toList_ofList, hascii, Bool.false_eq_true, if_false,
    Base64.decode_encode _ hbytes, Utf8.decode_encode, swapChar_swapChar]

/-- Decoding the packed text of a value parses the text, less its apostrophes. -/
theorem decode_pack_render (v : Json) :
    decode (pack v.render) = Json.parse (Text.swapChar '\'' '"' v.chars) := by
  rw [decode_pack, Json.render, String.toList_ofList]

/-- What comes back has no apostrophe in it. -/
theorem no_apostrophe_of_decode {v : Value} (hv : v.Plain) {r : Json}
    (h : decode (pack (Json.ofValue v).render) = .ok r) :
    ∀ s ∈ r.toValue.strings, '\'' ∉ s.toList := by
  rw [decode_pack_render] at h
  have hspotless := (Json.clean_swapped hv).parse h
  intro s hs hmem
  rw [Json.strings_toValue] at hs
  obtain ⟨units, hunits, rfl⟩ := List.mem_map.mp hs
  rw [String.toList_ofList] at hmem
  exact hspotless units hunits (Json.apostrophe_mem_of_ofUnits hmem)

/-- A credential without apostrophes comes back as it was. -/
theorem decode_of_no_apostrophe {v : Value} (hv : v.Plain)
    (h : ∀ s ∈ v.strings, '\'' ∉ s.toList) :
    decode (pack (Json.ofValue v).render) = .ok (.ofValue v) := by
  rw [decode_pack_render, Json.swapped_of_spotless hv h,
    Json.parse_chars (Json.regular_ofValue v hv)]

/-- **A CREDENTIAL COMES BACK EXACTLY IF IT HAS NO APOSTROPHE.**  Every plain value is encoded, and
decoding what was encoded gives a value equal to it if and only if no key and no text in it has an
apostrophe; and then it gives the value itself, with its entries in order. -/
theorem decode_encode_iff_no_apostrophe (v : Value) (hv : v.Plain) :
    ∃ encoded, encode (.ofValue v) = .ok encoded ∧
      ((∃ r, decode encoded = .ok r ∧ (v == r.toValue) = true) ↔
        ∀ s ∈ v.strings, '\'' ∉ s.toList) ∧
      ((∀ s ∈ v.strings, '\'' ∉ s.toList) → decode encoded = .ok (.ofValue v)) := by
  refine ⟨_, encode_of_regular (Json.regular_ofValue v hv), ⟨?_, ?_⟩, decode_of_no_apostrophe hv⟩
  · rintro ⟨r, hread, hsame⟩ s hs
    exact no_apostrophe_of_decode hv hread s (Value.strings_of_same v r.toValue hsame s hs)
  · intro h
    refine ⟨.ofValue v, decode_of_no_apostrophe hv h, ?_⟩
    rw [Json.toValue_ofValue]
    exact Value.same_self v hv

/-- A record with nested lists, with escapes in its texts and with a text that looks like the escape
of an apostrophe. -/
def account : Value := .record [
  ("type", .text "service_account"),
  ("ke\"y\\", .list [.text "\\u0027", .int (-12), .list [], .record [("é😀", .bool true)]]),
  ("end", .null)]

/-- A list whose one text has apostrophes around a comma. -/
def quoted : Value := .list [.text "a', 'b"]

/-- Both are plain; the first comes back, the second does not. -/
theorem account_back_quoted_not :
    (account.Plain ∧ ∃ encoded, encode (.ofValue account) = .ok encoded ∧
      decode encoded = .ok (.ofValue account)) ∧
    (quoted.Plain ∧ ∃ encoded, encode (.ofValue quoted) = .ok encoded ∧
      ¬ ∃ r, decode encoded = .ok r ∧ (quoted == r.toValue) = true) := by
  have haccount : account.Plain := by
    refine ⟨by decide, trivial, ⟨trivial, ?_, trivial, ?_, trivial⟩, trivial, trivial⟩
    · show (Nat.toDigits 10 12).length ≤ 4300
      decide
    · exact ⟨by decide, trivial, trivial⟩
  have hquoted : quoted.Plain := ⟨trivial, trivial⟩
  refine ⟨⟨haccount, ?_⟩, hquoted, ?_⟩
  · obtain ⟨encoded, hencode, _, hback⟩ := decode_encode_iff_no_apostrophe account haccount
    exact ⟨encoded, hencode, hback (by decide)⟩
  · obtain ⟨encoded, hencode, hiff, _⟩ := decode_encode_iff_no_apostrophe quoted hquoted
    refine ⟨encoded, hencode, ?_⟩
    rw [hiff]
    decide

/-- A one with zeros behind it. -/
def oneAndZeros (zeros : Nat) : Value := .int (.ofNat (Nat.pow 10 zeros))

/-- With as many zeros as a number may have digits, it is too long. -/
theorem oneAndZeros_long {zeros : Nat} (h : Decimal.maxDigits ≤ zeros) :
    Decimal.maxDigits < (Nat.toDigits 10 (Nat.pow 10 zeros)).length := by
  rw [← Nat.not_le, Nat.length_toDigits_le_iff (by decide) (by decide), Nat.not_lt]
  exact Nat.pow_le_pow_right (by decide) h

/-- A number that is too long is not encoded. -/
theorem encode_oneAndZeros {zeros : Nat} (h : Decimal.maxDigits ≤ zeros) :
    encode (.ofValue (oneAndZeros zeros)) = .error .badValue := by
  have hrefused : (Json.ofValue (oneAndZeros zeros)).isWritable = false :=
    decide_eq_false (Nat.not_le.mpr (oneAndZeros_long h))
  rw [encode, Json.write, hrefused]
  rfl

/-- Nor is its text decoded. -/
theorem decode_oneAndZeros {zeros : Nat} (h : Decimal.maxDigits ≤ zeros) :
    decode (pack (Json.ofValue (oneAndZeros zeros)).render) = .error .badValue := by
  have hnone : '\'' ∉ Json.chars (.int (.ofNat (Nat.pow 10 zeros))) := Json.piecewise_not_mem.int _
  rw [decode_pack_render, oneAndZeros, Json.ofValue, Text.swapChar_of_not_mem hnone]
  exact Json.parse_int_of_long (n := .ofNat (Nat.pow 10 zeros)) (oneAndZeros_long h)

/-- **THE LENGTH OF NUMBERS MATTERS.**  A one with 4300 zeros has no apostrophe; it is not encoded,
and its text is not decoded either, so that it does not come back. -/
theorem long_number_refused :
    encode (.ofValue (oneAndZeros 4300)) = .error .badValue ∧
      decode (pack (Json.ofValue (oneAndZeros 4300)).render) = .error .badValue ∧
      ¬ ((∃ r, encode (.ofValue (oneAndZeros 4300)) >>= decode = .ok r ∧
          (oneAndZeros 4300 == r.toValue) = true) ↔
        ∀ s ∈ (oneAndZeros 4300).strings, '\'' ∉ s.toList) := by
  have hfault := encode_oneAndZeros (Nat.le_refl 4300)
  refine ⟨hfault, decode_oneAndZeros (Nat.le_refl 4300), fun hiff => ?_⟩
  obtain ⟨r, hread, _⟩ := hiff.mpr fun s hs => nomatch hs
  rw [hfault] at hread
  cases hread

end LookmlProject.Credential
