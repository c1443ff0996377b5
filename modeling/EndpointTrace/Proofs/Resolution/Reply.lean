import EndpointTrace.Resolution.Reply
import Mathlib.Data.List.TakeWhile

/-!
# Numbers in replies

A reply stands for a number if it is a numeral between decoration: decimal digits, which a
plus sign may precede.  Nothing in a numeral is decoration, so taking the decoration off
uncovers it, and no numeral is the word for a refusal.
-/

namespace EndpointTrace
namespace Resolution

def Numeral (cs : List Char) (n : Nat) : Prop :=
  ∃ sign digits, cs = sign ++ digits ∧ (sign = [] ∨ sign = ['+']) ∧ digits ≠ [] ∧
    (∀ c ∈ digits, c.isDigit = true) ∧ Text.ofDecimal digits = n ∧ n ≤ Choice.greatestNumber

def StandsFor (reply : List Char) (n : Nat) : Prop :=
  ∃ before numeral after, reply = before ++ numeral ++ after ∧
    (∀ c ∈ before, Choice.isDecoration c = true) ∧
    (∀ c ∈ after, Choice.isDecoration c = true) ∧ Numeral numeral n

namespace Choice

/-!
## Decoration
-/

theorem code_of_isDigit {c : Char} (hdigit : c.isDigit = true) :
    48 ≤ c.toNat ∧ c.toNat ≤ 57 := by
  simp only [Char.isDigit, Bool.and_eq_true, decide_eq_true_eq, ge_iff_le,
    UInt32.le_iff_toNat_le] at hdigit
  exact hdigit

theorem isDecoration_of_isDigit {c : Char} (hdigit : c.isDigit = true) :
    isDecoration c = false := by
  have hcode := code_of_isDigit hdigit
  have hother : ∀ d : Char, d.toNat < 48 ∨ 57 < d.toNat → ¬ c = d := by
    intro d hd heq
    rw [heq] at hcode
    omega
  have hblank : Text.isBlank c = false := by
    simp only [Text.isBlank, Bool.or_eq_false_iff, Bool.and_eq_false_iff,
      decide_eq_false_iff_not, beq_eq_false_iff_ne]
    omega
  simp only [isDecoration, hblank, Bool.or_false, Bool.or_eq_false_iff,
    decide_eq_false_iff_not]
  exact ⟨⟨⟨⟨hother _ (by decide), hother _ (by decide)⟩, hother _ (by decide)⟩,
    hother _ (by decide)⟩, hother _ (by decide)⟩

/-- The answer is what is left of the reply when decoration is taken off at both ends, as much
of it as there is. -/
def Strips (reply answer : List Char) : Prop :=
  ∃ before after, reply = before ++ (answer ++ after) ∧
    (∀ c ∈ before, isDecoration c = true) ∧ (∀ c ∈ after, isDecoration c = true) ∧
      (∀ c ∈ answer.head?, isDecoration c = false) ∧
        ∀ c ∈ answer.getLast?, isDecoration c = false

theorem head_dropWhile (cs : List Char) :
    ∀ c ∈ (cs.dropWhile isDecoration).head?, isDecoration c = false := by
  intro c hc
  have hhead := List.head?_dropWhile_not isDecoration cs
  rw [Option.mem_def.mp hc] at hhead
  simpa using hhead

theorem dropWhile_decoration {before rest : List Char}
    (hbefore : ∀ c ∈ before, isDecoration c = true)
    (hrest : ∀ c ∈ rest.head?, isDecoration c = false) :
    (before ++ rest).dropWhile isDecoration = rest := by
  rw [List.dropWhile_append_of_pos hbefore]
  cases rest with
  | nil =>
      rfl
  | cons c rest =>
      rw [List.dropWhile_cons_of_neg]
      rw [hrest c rfl]
      exact Bool.false_ne_true

theorem strips_bare (reply : List Char) : Strips reply (bare reply) := by
  have hback : reply.dropWhile isDecoration =
      bare reply ++ ((reply.dropWhile isDecoration).reverse.takeWhile isDecoration).reverse := by
    rw [bare, ← List.reverse_append, List.takeWhile_append_dropWhile, List.reverse_reverse]
  refine ⟨reply.takeWhile isDecoration,
    ((reply.dropWhile isDecoration).reverse.takeWhile isDecoration).reverse, ?_, ?_, ?_, ?_, ?_⟩
  · rw [← hback, List.takeWhile_append_dropWhile]
  · exact List.all_eq_true.mp List.all_takeWhile
  · intro c hc
    exact List.all_eq_true.mp List.all_takeWhile c (List.mem_reverse.mp hc)
  · intro c hc
    apply head_dropWhile reply
    rw [hback, List.head?_append, Option.mem_def.mp hc]
    rfl
  · rw [bare, List.getLast?_reverse]
    exact head_dropWhile _

theorem Strips.eq_bare {reply answer : List Char} (hstrips : Strips reply answer) :
    answer = bare reply := by
  rcases hstrips with ⟨before, after, rfl, hbefore, hafter, hhead, hlast⟩
  cases answer with
  | nil =>
      have hnone : (before ++ ([] ++ after)).dropWhile isDecoration = [] :=
        List.dropWhile_eq_nil_iff.mpr fun c hc =>
          (List.mem_append.mp hc).elim (hbefore c) (hafter c)
      rw [bare, hnone]
      rfl
  | cons first rest =>
      have hfront : (before ++ (first :: rest ++ after)).dropWhile isDecoration =
          first :: rest ++ after :=
        dropWhile_decoration hbefore hhead
      have hback : (after.reverse ++ (first :: rest).reverse).dropWhile isDecoration =
          (first :: rest).reverse := by
        apply dropWhile_decoration
        · exact fun c hc => hafter c (List.mem_reverse.mp hc)
        · rw [List.head?_reverse]
          exact hlast
      rw [bare, hfront, List.reverse_append, hback, List.reverse_reverse]

/-!
## Numerals
-/

def unsigned (cs : List Char) : List Char :=
  match cs with
  | '+' :: rest => rest
  | cs => cs

theorem number?_eq (cs : List Char) :
    number? cs =
      if unsigned cs ≠ [] ∧ (unsigned cs).all Char.isDigit ∧
          Text.ofDecimal (unsigned cs) ≤ greatestNumber then
        some (Text.ofDecimal (unsigned cs))
      else
        none :=
  rfl

theorem exists_sign (cs : List Char) :
    ∃ sign, cs = sign ++ unsigned cs ∧ (sign = [] ∨ sign = ['+']) := by
  unfold unsigned
  split
  · exact ⟨['+'], rfl, Or.inr rfl⟩
  · exact ⟨[], rfl, Or.inl rfl⟩

theorem unsigned_numeral {sign digits : List Char} (hsign : sign = [] ∨ sign = ['+'])
    (hdigits : ∀ c ∈ digits, c.isDigit = true) : unsigned (sign ++ digits) = digits := by
  rcases hsign with rfl | rfl
  · unfold unsigned
    split
    · rename_i rest heq
      have hplus := hdigits '+' (by rw [← List.nil_append digits, heq]; exact List.mem_cons_self)
      cases hplus
    · rfl
  · rfl

theorem number?_eq_some_iff {cs : List Char} {n : Nat} :
    number? cs = some n ↔ Numeral cs n := by
  rw [number?_eq]
  constructor
  · intro hnumber
    split at hnumber
    · rename_i hvalid
      rcases hvalid with ⟨hne, hdigits, hbound⟩
      rcases exists_sign cs with ⟨sign, hsplit, hsign⟩
      cases hnumber
      exact ⟨sign, unsigned cs, hsplit, hsign, hne, List.all_eq_true.mp hdigits, rfl, hbound⟩
    · cases hnumber
  · rintro ⟨sign, digits, rfl, hsign, hne, hdigits, rfl, hbound⟩
    rw [unsigned_numeral hsign hdigits,
      if_pos ⟨hne, List.all_eq_true.mpr hdigits, hbound⟩]

theorem isDecoration_of_numeral {cs : List Char} {n : Nat} (hnumeral : Numeral cs n) :
    ∀ c ∈ cs, isDecoration c = false := by
  rcases hnumeral with ⟨sign, digits, rfl, hsign, _, hdigits, _⟩
  intro c hc
  rcases List.mem_append.mp hc with hplus | hdigit
  · rcases hsign with rfl | rfl
    · cases hplus
    · rw [List.mem_singleton.mp hplus]
      rfl
  · exact isDecoration_of_isDigit (hdigits c hdigit)

theorem strips_numeral {before numeral after : List Char} {n : Nat}
    (hbefore : ∀ c ∈ before, isDecoration c = true)
    (hafter : ∀ c ∈ after, isDecoration c = true) (hnumeral : Numeral numeral n) :
    Strips (before ++ numeral ++ after) numeral := by
  have hplain := isDecoration_of_numeral hnumeral
  exact ⟨before, after, List.append_assoc _ _ _, hbefore, hafter,
    fun c hc => hplain c (List.mem_of_head? hc),
    fun c hc => hplain c (List.mem_of_getLast? hc)⟩

theorem number?_bare_eq_some_iff {reply : List Char} {n : Nat} :
    number? (bare reply) = some n ↔ StandsFor reply n := by
  rw [number?_eq_some_iff]
  constructor
  · intro hnumeral
    rcases strips_bare reply with ⟨before, after, hreply, hbefore, hafter, _⟩
    rw [← List.append_assoc] at hreply
    exact ⟨before, bare reply, after, hreply, hbefore, hafter, hnumeral⟩
  · rintro ⟨before, numeral, after, rfl, hbefore, hafter, hnumeral⟩
    rwa [← (strips_numeral hbefore hafter hnumeral).eq_bare]

theorem asciiLower_of_isDigit {c : Char} (hdigit : c.isDigit = true) :
    Text.asciiLower c = c := by
  unfold Text.asciiLower
  rw [if_neg]
  rintro ⟨hletter, _⟩
  have hcode := code_of_isDigit hdigit
  have hcapital : 65 ≤ c.toNat := by
    simp only [Char.le_def, UInt32.le_iff_toNat_le] at hletter
    exact hletter
  omega

theorem not_none_of_number? {answer : List Char} {n : Nat}
    (hnumber : number? answer = some n) :
    Text.equalIgnoringAsciiCase answer ['n', 'o', 'n', 'e'] = false := by
  rcases number?_eq_some_iff.mp hnumber with ⟨sign, digits, rfl, _, hne, hdigits, _⟩
  have hlast := hdigits (digits.getLast hne) (List.getLast_mem hne)
  cases hequal : Text.equalIgnoringAsciiCase (sign ++ digits) ['n', 'o', 'n', 'e'] with
  | false =>
      rfl
  | true =>
      have hends := congrArg List.getLast? (eq_of_beq hequal)
      rw [List.getLast?_map, List.getLast?_append, List.getLast?_eq_some_getLast hne] at hends
      simp only [Option.some_or, Option.map_some, asciiLower_of_isDigit hlast] at hends
      rw [Option.some.inj hends] at hlast
      cases hlast

/-- A reply chooses a candidate if it stands for its number, counted from one. -/
theorem ofReply_eq_candidate_iff {reply : List Char} {count index : Nat} :
    ofReply reply count = candidate index ↔ index < count ∧ StandsFor reply (index + 1) := by
  rw [← number?_bare_eq_some_iff, ofReply]
  cases hnumber : number? (bare reply) with
  | none =>
      dsimp only
      split
      · simp
      · simp
  | some n =>
      rw [not_none_of_number? hnumber]
      dsimp only
      rw [if_neg Bool.false_ne_true]
      by_cases hrange : 1 ≤ n ∧ n ≤ count
      · rw [if_pos hrange]
        simp only [candidate.injEq, Option.some.injEq]
        omega
      · rw [if_neg hrange]
        simp only [reduceCtorEq, Option.some.injEq, false_iff]
        omega

end Choice
end Resolution
end EndpointTrace
