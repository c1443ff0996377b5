import EndpointTrace.Route.AnnotationName

/-!
# White space and the characters of names

No white space counts as a letter, as a digit or as another part of a name, so white space
ends a word and never starts one.
-/

namespace EndpointTrace
namespace Text

/-- The code points of the property White_Space. -/
def blankCodes : List Nat :=
  List.range' 9 5 ++ [0x20, 0x85, 0xA0, 0x1680] ++ List.range' 0x2000 11 ++
    [0x2028, 0x2029, 0x202F, 0x205F, 0x3000]

theorem toNat_mem_blankCodes {c : Char} (hblank : isBlank c = true) :
    c.toNat ∈ blankCodes := by
  simp only [isBlank, Bool.or_eq_true, Bool.and_eq_true, decide_eq_true_eq, beq_iff_eq]
    at hblank
  simp only [blankCodes, List.mem_append, List.mem_range'_1, List.mem_cons, List.not_mem_nil,
    or_false]
  omega

theorem eq_false_of_isBlank {property : Char → Bool}
    (hall : ∀ code ∈ blankCodes, property (Char.ofNat code) = false) {c : Char}
    (hblank : isBlank c = true) : property c = false := by
  have hc := hall c.toNat (toNat_mem_blankCodes hblank)
  rw [Char.ofNat_toNat] at hc
  exact hc

theorem isNamePart_of_isBlank {c : Char} (hblank : isBlank c = true) :
    AnnotationName.isNamePart c = false :=
  eq_false_of_isBlank (by decide +kernel) hblank

theorem isNamePart_of_isWordChar {c : Char} (hword : isWordChar c = true) :
    AnnotationName.isNamePart c = true := by
  rw [AnnotationName.isNamePart, hword, Bool.true_or]

theorem isNamePart_of_isNameStart {c : Char} (hstart : AnnotationName.isNameStart c = true) :
    AnnotationName.isNamePart c = true := by
  rw [AnnotationName.isNameStart, Bool.or_eq_true, Bool.or_eq_true, beq_iff_eq,
    beq_iff_eq] at hstart
  rcases hstart with (hletter | hline) | hdollar
  · have hascii : c.toNat < 128 := by
      simp only [isAsciiLetter, Bool.or_eq_true, Bool.and_eq_true, decide_eq_true_eq,
        Char.le_def, UInt32.le_iff_toNat_le] at hletter
      have hz : 'z'.val.toNat = 122 := rfl
      have hZ : 'Z'.val.toNat = 90 := rfl
      have hc : c.toNat = c.val.toNat := rfl
      omega
    rw [AnnotationName.isNamePart, isWordChar, if_pos hascii, hletter]
    rfl
  · rw [hline]
    rfl
  · rw [hdollar]
    rfl

theorem isBlank_of_isNamePart {c : Char} (hpart : AnnotationName.isNamePart c = true) :
    isBlank c = false := by
  cases hblank : isBlank c with
  | false =>
      rfl
  | true =>
      rw [isNamePart_of_isBlank hblank] at hpart
      cases hpart

theorem isWordChar_of_not_namePart {c : Char}
    (hpart : AnnotationName.isNamePart c = false) : isWordChar c = false := by
  cases hword : isWordChar c with
  | false =>
      rfl
  | true =>
      rw [isNamePart_of_isWordChar hword] at hpart
      cases hpart

theorem ne_space_of_isWordChar {c : Char} (hword : isWordChar c = true) : c ≠ ' ' := by
  rintro rfl
  cases hword

theorem isWordChar_of_isWordBoundary {before after : Option Char}
    (hboundary : isWordBoundary before after = true) :
    (∃ c, before = some c ∧ isWordChar c = true) ∨ ∃ c, after = some c ∧ isWordChar c = true := by
  rw [← Option.any_eq_true, ← Option.any_eq_true]
  rw [isWordBoundary] at hboundary
  cases hbefore : before.any isWordChar with
  | true =>
      exact Or.inl rfl
  | false =>
      rw [hbefore, Bool.false_bne] at hboundary
      exact Or.inr hboundary

theorem isAlphanumeric_of_isBlank {c : Char} (hblank : isBlank c = true) :
    isAlphanumeric c = false := by
  have hword := isWordChar_of_not_namePart (isNamePart_of_isBlank hblank)
  have hnumber : Property.otherNumber.contains c = false :=
    eq_false_of_isBlank (by decide +kernel) hblank
  rw [isWordChar] at hword
  rw [isAlphanumeric]
  split
  · rename_i hascii
    rw [if_pos hascii] at hword
    exact (Bool.or_eq_false_iff.mp hword).1
  · rename_i hbeyond
    simp only [if_neg hbeyond, Bool.or_eq_false_iff] at hword
    rw [hword.1.1.1.1, hword.1.1.2, hnumber]
    rfl

end Text
end EndpointTrace
