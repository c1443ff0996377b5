import EndpointTrace.Proofs.Resolution.Reply
import Mathlib.Logic.ExistsUnique

/-!
# What a reply is taken for

A reply counts for what is left of it between decoration.  If this is a numeral that is
understood, the reply chooses the candidate of this number or is out of range; if it is the
word for a refusal, nothing is chosen; and all else is no answer.  So a reply chooses a
candidate only by its number, and the number as it is printed chooses it in any decoration.
-/

namespace EndpointTrace
namespace Resolution
namespace Choice

/-- Decimal digits, which a plus sign may precede, and their value. -/
def Reads (cs : List Char) (n : Nat) : Prop :=
  ∃ sign digits, cs = sign ++ digits ∧ (sign = [] ∨ sign = ['+']) ∧ digits ≠ [] ∧
    (∀ c ∈ digits, c.isDigit = true) ∧ Nat.ofDigitChars 10 digits 0 = n

/-!
## Values of numerals
-/

theorem foldl_hexValue? {digits : List Char} (hdigits : ∀ c ∈ digits, c.isDigit = true)
    (total : Nat) :
    digits.foldl (fun total digit => total * 10 + (Text.hexValue? digit).getD 0) total =
      Nat.ofDigitChars 10 digits total := by
  rw [Nat.ofDigitChars_eq_foldl]
  induction digits generalizing total with
  | nil =>
      rfl
  | cons digit digits ih =>
      have hvalue : (Text.hexValue? digit).getD 0 = digit.toNat - '0'.toNat := by
        rw [Text.hexValue?, if_pos (hdigits digit List.mem_cons_self)]
        rfl
      rw [List.foldl_cons, List.foldl_cons, hvalue, Nat.mul_comm total]
      exact ih (fun c hc => hdigits c (List.mem_cons_of_mem _ hc)) _

theorem ofDecimal_eq {digits : List Char} (hdigits : ∀ c ∈ digits, c.isDigit = true) :
    Text.ofDecimal digits = Nat.ofDigitChars 10 digits 0 := by
  rw [Text.ofDecimal, Text.ofRadix]
  exact foldl_hexValue? hdigits 0

theorem numeral_iff {cs : List Char} {n : Nat} :
    Numeral cs n ↔ Reads cs n ∧ n ≤ greatestNumber := by
  constructor
  · rintro ⟨sign, digits, hsplit, hsign, hne, hdigits, hvalue, hbound⟩
    rw [ofDecimal_eq hdigits] at hvalue
    exact ⟨⟨sign, digits, hsplit, hsign, hne, hdigits, hvalue⟩, hbound⟩
  · rintro ⟨⟨sign, digits, hsplit, hsign, hne, hdigits, hvalue⟩, hbound⟩
    rw [← ofDecimal_eq hdigits] at hvalue
    exact ⟨sign, digits, hsplit, hsign, hne, hdigits, hvalue, hbound⟩

theorem number?_eq_some_iff_reads {cs : List Char} {n : Nat} :
    number? cs = some n ↔ Reads cs n ∧ n ≤ greatestNumber :=
  number?_eq_some_iff.trans numeral_iff

theorem number?_eq_none_iff {cs : List Char} :
    number? cs = none ↔ ∀ n, Reads cs n → greatestNumber < n := by
  rw [Option.eq_none_iff_forall_ne_some]
  apply forall_congr'
  intro n
  rw [ne_eq, number?_eq_some_iff_reads, not_and, Nat.not_le]

theorem reads_toString (n : Nat) : Reads (toString n).toList n := by
  rw [Nat.toString_eq_ofList_toDigits, String.toList_ofList]
  exact ⟨[], Nat.toDigits 10 n, rfl, Or.inl rfl, Nat.toDigits_ne_nil,
    fun _ hc => Nat.isDigit_of_mem_toDigits (by decide) (by decide) hc,
    Nat.ofDigitChars_ten_toDigits⟩

/-!
## The four kinds of replies
-/

section

variable {reply : List Char} {count : Nat}

theorem ofReply_of_number {n : Nat} (hnumber : number? (bare reply) = some n) :
    ofReply reply count =
      if 1 ≤ n ∧ n ≤ count then candidate (n - 1) else outOfRange n := by
  rw [ofReply, not_none_of_number? hnumber, hnumber]
  rfl

theorem ofReply_of_not_number (hnone : number? (bare reply) = none) :
    ofReply reply count =
      if Text.equalIgnoringAsciiCase (bare reply) "none".toList then declined
      else unparseable (bare reply) := by
  rw [ofReply, hnone]
  rfl

theorem ofReply_eq_candidate_iff_number {index : Nat} :
    ofReply reply count = candidate index ↔
      index < count ∧ number? (bare reply) = some (index + 1) := by
  rw [ofReply_eq_candidate_iff, number?_bare_eq_some_iff]

theorem ofReply_eq_outOfRange_iff {number : Nat} :
    ofReply reply count = outOfRange number ↔
      number? (bare reply) = some number ∧ ¬ (1 ≤ number ∧ number ≤ count) := by
  cases hnumber : number? (bare reply) with
  | none =>
      rw [ofReply_of_not_number hnumber]
      split
      · simp
      · simp
  | some n =>
      rw [ofReply_of_number hnumber, Option.some.injEq]
      split
      · rename_i hrange
        refine iff_of_false (by simp) ?_
        rintro ⟨rfl, hout⟩
        exact hout hrange
      · rename_i hrange
        simp only [outOfRange.injEq]
        exact ⟨fun heq => ⟨heq, heq ▸ hrange⟩, And.left⟩

theorem ofReply_eq_declined_iff :
    ofReply reply count = declined ↔
      Text.equalIgnoringAsciiCase (bare reply) "none".toList = true := by
  cases hnumber : number? (bare reply) with
  | none =>
      rw [ofReply_of_not_number hnumber]
      split
      · rename_i hrefusal
        exact iff_of_true rfl hrefusal
      · rename_i hrefusal
        exact iff_of_false (by simp) hrefusal
  | some n =>
      have hrefusal : Text.equalIgnoringAsciiCase (bare reply) "none".toList = false :=
        not_none_of_number? hnumber
      rw [ofReply_of_number hnumber, hrefusal]
      split
      · simp
      · simp

theorem ofReply_eq_unparseable_iff {text : List Char} :
    ofReply reply count = unparseable text ↔
      text = bare reply ∧ number? (bare reply) = none ∧
        Text.equalIgnoringAsciiCase (bare reply) "none".toList = false := by
  cases hnumber : number? (bare reply) with
  | none =>
      rw [ofReply_of_not_number hnumber]
      split
      · rename_i hrefusal
        refine iff_of_false (by simp) ?_
        rintro ⟨_, _, hother⟩
        exact Bool.false_ne_true (hother.symm.trans hrefusal)
      · rename_i hrefusal
        rw [unparseable.injEq, eq_comm]
        exact ⟨fun heq => ⟨heq, rfl, Bool.not_eq_true _ ▸ hrefusal⟩, And.left⟩
  | some n =>
      rw [ofReply_of_number hnumber]
      split
      · simp
      · simp

end

/-- What a reply is taken for, by the answer that decoration leaves of it: a candidate, if the
answer is the number of the candidate; a refusal, if it is the word `none`; out of range, if it
is the number of no candidate; and nothing that is understood, if it is none of these.  The
number of a candidate as it is printed chooses the candidate, however it is decorated. -/
theorem ofReply_decides (reply : List Char) {count : Nat} (hcount : count ≤ greatestNumber) :
    (∃! answer, Strips reply answer) ∧
    (∀ answer, Strips reply answer →
      (∀ index, ofReply reply count = candidate index ↔
        index < count ∧ Reads answer (index + 1)) ∧
      (ofReply reply count = declined ↔
        Text.equalIgnoringAsciiCase answer "none".toList = true) ∧
      (∀ number, ofReply reply count = outOfRange number ↔
        Reads answer number ∧ number ≤ greatestNumber ∧ ¬ (1 ≤ number ∧ number ≤ count)) ∧
      ∀ text, ofReply reply count = unparseable text ↔
        text = answer ∧ (∀ number, Reads answer number → greatestNumber < number) ∧
          Text.equalIgnoringAsciiCase answer "none".toList = false) ∧
    ∀ number before after, 1 ≤ number → number ≤ count →
      (∀ c ∈ before, isDecoration c = true) → (∀ c ∈ after, isDecoration c = true) →
      ofReply (before ++ (toString number).toList ++ after) count =
        candidate (number - 1) := by
  refine ⟨⟨bare reply, strips_bare reply, fun _ => Strips.eq_bare⟩, ?_, ?_⟩
  · intro answer hstrips
    rw [hstrips.eq_bare]
    refine ⟨?_, ofReply_eq_declined_iff, ?_, ?_⟩
    · intro index
      rw [ofReply_eq_candidate_iff_number, number?_eq_some_iff_reads]
      apply and_congr_right
      intro hindex
      exact and_iff_left ((Nat.succ_le_of_lt hindex).trans hcount)
    · intro number
      rw [ofReply_eq_outOfRange_iff, number?_eq_some_iff_reads, and_assoc]
    · intro text
      rw [ofReply_eq_unparseable_iff, number?_eq_none_iff]
  · intro number before after hpos hbound hbefore hafter
    rcases Nat.exists_eq_add_of_le' hpos with ⟨index, rfl⟩
    rw [Nat.add_sub_cancel, ofReply_eq_candidate_iff]
    refine ⟨hbound, before, _, after, rfl, hbefore, hafter, numeral_iff.mpr ?_⟩
    exact ⟨reads_toString _, hbound.trans hcount⟩

theorem ofReply_decides_second :
    3 ≤ greatestNumber ∧ Strips " **+02.** ".toList "+02".toList ∧
      Reads "+02".toList 2 ∧ ofReply " **+02.** ".toList 3 = candidate 1 := by
  have hcount : 3 ≤ greatestNumber := by decide
  have hdigits : "02".toList.all Char.isDigit = true := by decide
  have hreads : Reads "+02".toList 2 :=
    ⟨['+'], "02".toList, rfl, Or.inr rfl, by decide, List.all_eq_true.mp hdigits, rfl⟩
  have hbefore : " **".toList.all isDecoration = true := by decide
  have hafter : ".** ".toList.all isDecoration = true := by decide
  have hstrips : Strips " **+02.** ".toList "+02".toList :=
    strips_numeral (List.all_eq_true.mp hbefore) (List.all_eq_true.mp hafter)
      (numeral_iff.mpr ⟨hreads, by decide⟩)
  have hdecides := (ofReply_decides " **+02.** ".toList hcount).2.1 _ hstrips
  exact ⟨hcount, hstrips, hreads, (hdecides.1 1).mpr ⟨by decide, hreads⟩⟩

example : ofReply "18446744073709551616".toList 3 =
    unparseable "18446744073709551616".toList := by decide

end Choice
end Resolution
end EndpointTrace
