import LookmlProject.Text.Case.Lower
import LookmlProject.Text.Search
import Mathlib

/-! # Small letters stay small

    The small form of a text consists of characters that are their own small forms,
    wherever they stand (`IsSmall`).  Most of that is a fact about the runs of letters:
    none of them reaches into what another is moved to.

    * two runs are apart if one ends before the other begins, or if they take turns
      (`Shift.apart`), and then no member of one is a member of the other
      (`Shift.covers_eq_false`);
    * each run of capitals is moved to where all runs are apart from it
      (`lowerShifts_apart`), so what stands in a small form is small
      (`isSmall_of_mem_lowerChar`);
    * so a text is its own small form exactly if all its characters are small
      (`lower_eq_self_iff`), as are those of a small form (`lower_lower`). -/

namespace LookmlProject.Text

/-! ## Runs that are apart -/

namespace Shift

/-- Where the members of a run are moved to. -/
def image (s : Shift) : Shift :=
  { s with
    first := ((s.first : Int) + s.distance).toNat
    last := ((s.last : Int) + s.distance).toNat }

/-- One run ends before the other begins, or both go in steps of two and take turns; a single
letter is in step with every run.  The comparisons are those that are computed fastest, for they are
made for all pairs of runs. -/
def apart (s t : Shift) : Bool :=
  Nat.blt t.last s.first || Nat.blt s.last t.first ||
    (Nat.beq t.step 2 && (Nat.beq s.step 2 || Nat.beq s.first s.last) &&
      Nat.beq ((s.first + t.first) % 2) 1)

theorem covers_iff (s : Shift) (n : Nat) :
    s.covers n = true ↔ s.first ≤ n ∧ n ≤ s.last ∧ (n - s.first) % s.step = 0 := by
  simp [covers, and_assoc]

theorem apart_iff (s t : Shift) :
    s.apart t = true ↔ t.last < s.first ∨ s.last < t.first ∨
      t.step = 2 ∧ (s.step = 2 ∨ s.first = s.last) ∧ (s.first + t.first) % 2 = 1 := by
  simp [apart, Nat.blt_eq, Nat.beq_eq, or_assoc, and_assoc]

/-- A member of a run is moved to a member of its image. -/
theorem covers_image {s : Shift} (hfirst : 0 ≤ (s.first : Int) + s.distance) {n : Nat}
    (h : s.covers n = true) : s.image.covers ((n : Int) + s.distance).toNat = true := by
  obtain ⟨hfrom, hto, hstep⟩ := (covers_iff s n).mp h
  refine (covers_iff _ _).mpr ⟨?_, ?_, ?_⟩
  · show ((s.first : Int) + s.distance).toNat ≤ _
    omega
  · show _ ≤ ((s.last : Int) + s.distance).toNat
    omega
  · show (((n : Int) + s.distance).toNat - ((s.first : Int) + s.distance).toNat) % s.step = 0
    rw [← hstep]
    congr 1
    omega

/-- Runs that are apart have no member in common. -/
theorem covers_eq_false {s t : Shift} (h : s.apart t = true) {n : Nat} (hn : s.covers n = true) :
    t.covers n = false := by
  obtain ⟨hfrom, hto, hstep⟩ := (covers_iff s n).mp hn
  rw [Bool.eq_false_iff]
  intro ht
  obtain ⟨htfrom, htto, htstep⟩ := (covers_iff t n).mp ht
  rcases (apart_iff s t).mp h with hbefore | hbehind | ⟨htwo, hturn, hodd⟩
  · omega
  · omega
  · rw [htwo] at htstep
    rcases hturn with hstwo | hsingle
    · rw [hstwo] at hstep
      omega
    · omega

end Shift

/-! ## Characters that are their own small forms -/

/-- The character is its own small form, whatever stands around it. -/
def IsSmall (c : Char) : Prop := ∀ before after, lowerChar before c after = [c]

/-- The two letters whose small forms are not told by a run are excepted. -/
theorem isSmall_of {c : Char} (hsigma : c.toNat ≠ 0x3A3) (hdotted : c.toNat ≠ 0x130)
    (hascii : c.toNat < 128 → c.toLower = c)
    (hbeyond : 128 ≤ c.toNat → Shift.apply? lowerShifts c.toNat = none) : IsSmall c := by
  intro before after
  rw [lowerChar]
  split
  · next hlt => rw [hascii hlt]
  · next hge => rw [hbeyond (Nat.le_of_not_lt hge)]

/-- Each run is moved to characters, behind the capitals of ASCII, and to neither of the two letters
without a run. -/
theorem lowerShifts_image : ∀ s ∈ lowerShifts, 0 ≤ (s.first : Int) + s.distance ∧
    0x5A < s.image.first ∧
    (s.image.last < 0xD800 ∨ 0xDFFF < s.image.first ∧ s.image.last < 0x110000) ∧
    (s.image.last < 0x130 ∨ 0x130 < s.image.first) ∧
    (s.image.last < 0x3A3 ∨ 0x3A3 < s.image.first) := by
  decide +kernel

/-- **NO RUN MEETS AN IMAGE**: no capital stands where a run is moved to. -/
theorem lowerShifts_apart :
    (lowerShifts.all fun s => lowerShifts.all s.image.apart) = true := by
  decide +kernel

/-- ASCII has no capital behind `Z`. -/
theorem toLower_of_behind {c : Char} (h : 0x5A < c.toNat) : c.toLower = c := by
  refine Char.toLower_eq_of_not_isUpper ?_
  simp only [Char.isUpper, decide_eq_true_eq, not_and, ge_iff_le,
    UInt32.le_iff_toNat_le, Nat.not_le]
  exact fun _ => h

/-- A letter of a run has a small form that is small. -/
theorem isSmall_of_apply? {n m : Nat} (h : Shift.apply? lowerShifts n = some m) :
    IsSmall (Char.ofNat m) := by
  obtain ⟨s, hfind, rfl⟩ := Option.map_eq_some_iff.mp h
  have hs : s ∈ lowerShifts := List.mem_of_find?_eq_some hfind
  have hn : s.covers n = true := by simpa using List.find?_some hfind
  obtain ⟨hnonneg, hbehind, hvalid, hdotted, hsigma⟩ := lowerShifts_image s hs
  have hcovers := Shift.covers_image hnonneg hn
  obtain ⟨hfrom, hto, _⟩ := (Shift.covers_iff _ _).mp hcovers
  have hnat : (Char.ofNat ((n : Int) + s.distance).toNat).toNat = ((n : Int) + s.distance).toNat := by
    rw [Char.toNat_ofNat, if_pos]
    exact hvalid.imp (lt_of_le_of_lt hto) fun h =>
      ⟨lt_of_lt_of_le h.1 hfrom, lt_of_le_of_lt hto h.2⟩
  -- The image of the run avoids the letters that are told apart before the runs are asked.
  refine isSmall_of ?_ ?_ (fun _ => toLower_of_behind ?_) fun _ => ?_
  · rw [hnat]
    omega
  · rw [hnat]
    omega
  · rw [hnat]
    omega
  · rw [hnat, Shift.apply?, Option.map_eq_none_iff, List.find?_eq_none]
    intro t ht
    have hapart := List.all_eq_true.mp (List.all_eq_true.mp lowerShifts_apart s hs) t ht
    exact Bool.eq_false_iff.mp (Shift.covers_eq_false hapart hcovers)

/-- The small forms of the two letters without a run: both forms of the sigma, the letter `i` and the
dot above it. -/
def specials : List Nat := [0x3C2, 0x3C3, 0x69, 0x307]

theorem apply?_specials : ∀ n ∈ specials, Shift.apply? lowerShifts n = none := by
  decide +kernel

/-- The small forms of the two letters without a run are small. -/
theorem isSmall_of_specials {n : Nat} (h : n ∈ specials) : IsSmall (Char.ofNat n) := by
  have hall : ∀ n ∈ specials, (Char.ofNat n).toNat = n ∧ n ≠ 0x3A3 ∧ n ≠ 0x130 ∧
      (Char.ofNat n).toLower = Char.ofNat n := by
    decide
  obtain ⟨hnat, hsigma, hdotted, hlower⟩ := hall n h
  have hnone := apply?_specials n h
  rw [← hnat] at hsigma hdotted hnone
  exact isSmall_of hsigma hdotted (fun _ => hlower) fun _ => hnone

theorem toLower_ascii : ∀ n < 128, (Char.ofNat n).toLower.toNat < 128 := by
  decide

/-- **WHAT IS SMALL STAYS SMALL**: every character of a small form is small. -/
theorem isSmall_of_mem_lowerChar {before after : List Char} {c d : Char}
    (h : d ∈ lowerChar before c after) : IsSmall d := by
  rw [lowerChar] at h
  -- ASCII, the sigma, the dotted capital `I`, a letter of a run, and all others.
  split at h
  · next hascii =>
      have hlower := toLower_ascii c.toNat hascii
      rw [Char.ofNat_toNat] at hlower
      rw [List.mem_singleton.mp h]
      exact isSmall_of (by omega) (by omega) (fun _ => Char.toLower_toLower_eq_toLower c) (by omega)
  next hbeyond =>
  split at h
  · split at h
    · exact List.mem_singleton.mp h ▸ isSmall_of_specials (by decide)
    · exact List.mem_singleton.mp h ▸ isSmall_of_specials (by decide)
  next hsigma =>
  split at h
  · rcases List.mem_pair.mp h with rfl | rfl
    · exact isSmall_of_specials (show 0x69 ∈ specials by decide)
    · exact isSmall_of_specials (by decide)
  next hdotted =>
  split at h
  · next m hm =>
      rw [List.mem_singleton.mp h]
      exact isSmall_of_apply? hm
  · next hnone =>
      rw [List.mem_singleton.mp h]
      exact isSmall_of hsigma hdotted (fun hlt => absurd hlt hbeyond) fun _ => hnone

/-- A small form consists of small characters. -/
theorem isSmall_of_mem_lowerAfter {before cs : List Char} {d : Char} (h : d ∈ lowerAfter before cs) :
    IsSmall d := by
  induction cs generalizing before with
  | nil => cases h
  | cons c rest ih =>
      rcases List.mem_append.mp h with hhere | hrest
      · exact isSmall_of_mem_lowerChar hhere
      · exact ih hrest

/-- A text of small characters is its own small form. -/
theorem lowerAfter_of_small {before cs : List Char} (h : ∀ c ∈ cs, IsSmall c) :
    lowerAfter before cs = cs := by
  induction cs generalizing before with
  | nil => rfl
  | cons c rest ih =>
      rw [lowerAfter, h c List.mem_cons_self before rest, ih fun d hd => h d (List.mem_cons_of_mem c hd)]
      rfl

/-- A text is its own small form exactly if all its characters are small. -/
theorem lower_eq_self_iff {cs : List Char} : lower cs = cs ↔ ∀ c ∈ cs, IsSmall c := by
  refine ⟨fun h c hc => ?_, lowerAfter_of_small⟩
  rw [← h] at hc
  exact isSmall_of_mem_lowerAfter hc

/-- Making a text small again does nothing. -/
theorem lower_lower (cs : List Char) : lower (lower cs) = lower cs :=
  lower_eq_self_iff.mpr fun _ hc => isSmall_of_mem_lowerAfter hc

theorem lowerChar_ne_nil (before : List Char) (c : Char) (after : List Char) :
    lowerChar before c after ≠ [] := by
  rw [lowerChar]
  split_ifs
  iterate 4 exact List.cons_ne_nil _ _
  split <;> exact List.cons_ne_nil _ _

/-- A small form is not shorter than the text. -/
theorem length_le_length_lowerAfter (before cs : List Char) :
    cs.length ≤ (lowerAfter before cs).length := by
  induction cs generalizing before with
  | nil => exact Nat.le_refl 0
  | cons c rest ih =>
      have hone := List.length_pos_of_ne_nil (lowerChar_ne_nil before c rest)
      have hrest := ih (c :: before)
      rw [lowerAfter, List.length_append, List.length_cons]
      omega

/-! ## Parts of a text -/

/-- A part occurs in a text exactly if it stands somewhere in it. -/
theorem occurs_iff {part cs : List Char} : occurs part cs = true ↔ part <:+: cs := by
  induction cs with
  | nil => rw [occurs, List.isEmpty_iff, List.infix_nil]
  | cons c rest ih =>
      rw [occurs, Bool.or_eq_true, List.isPrefixOf_iff_prefix, ih, List.infix_cons_iff]

end LookmlProject.Text
