import EndpointTrace.Text.Casing
import Mathlib.Data.List.Basic

/-!
# Lower case of a part

Lower case goes character by character with one exception: a capital sigma is written in
another way where it ends a word.  So what becomes of a part of a text is the lower case of
the part on its own exactly if every capital sigma in it ends a word in the text where it ends
one in the part.  Parts without a capital sigma are found again in every text.
-/

namespace EndpointTrace
namespace Text

/-- A capital sigma between two texts ends a word.  The text before it is read backwards. -/
def wordEnds (before after : List Char) : Bool :=
  meetsCased before && !meetsCased after

/-- Lower case of one character between two texts, the one before it read backwards. -/
def lowerAt (before : List Char) (c : Char) (after : List Char) : List Char :=
  if c = 'Σ' then
    if wordEnds before after then ['ς'] else ['σ']
  else
    lowerChar c

/-- Every capital sigma of a part ends a word between these two texts if it ends one in the
part on its own. -/
def SigmasKept (before part after : List Char) : Prop :=
  ∀ left right, part = left ++ 'Σ' :: right →
    wordEnds (left.reverse ++ before.reverse) (right ++ after) = wordEnds left.reverse right

/-- The text has this part, at a place where its capital sigmas are kept. -/
def Holds (whole part : List Char) : Prop :=
  ∃ before after, whole = before ++ (part ++ after) ∧ SigmasKept before part after

/-!
## Character by character
-/

theorem lowerFrom_cons (before : List Char) (c : Char) (after : List Char) :
    lowerFrom before (c :: after) = lowerAt before c after ++ lowerFrom (c :: before) after :=
  rfl

theorem length_lowerAt (before after : List Char) (c : Char) :
    (lowerAt before c after).length = if c = 'Σ' then 1 else (lowerChar c).length := by
  unfold lowerAt
  split
  · split
    · rfl
    · rfl
  · rfl

theorem lowerAt_eq_iff {before own after rest : List Char} {c : Char} :
    lowerAt before c after = lowerAt own c rest ↔
      (c = 'Σ' → wordEnds before after = wordEnds own rest) := by
  unfold lowerAt
  by_cases hc : c = 'Σ'
  · rw [if_pos hc, if_pos hc]
    cases wordEnds before after <;> cases wordEnds own rest <;> simp [hc]
  · simp [hc]

/-!
## Parts
-/

theorem lowerFrom_append_iff (before own part after : List Char) :
    lowerFrom before (part ++ after) =
        lowerFrom own part ++ lowerFrom (part.reverse ++ before) after ↔
      ∀ left right, part = left ++ 'Σ' :: right →
        wordEnds (left.reverse ++ before) (right ++ after) =
          wordEnds (left.reverse ++ own) right := by
  induction part generalizing before own with
  | nil =>
      simp [lowerFrom]
  | cons c rest ih =>
      have hlength : (lowerAt before c (rest ++ after)).length =
          (lowerAt own c rest).length := by
        rw [length_lowerAt, length_lowerAt]
      have hback : ∀ front left : List Char,
          (c :: left).reverse ++ front = left.reverse ++ c :: front := by
        intro front left
        rw [List.reverse_cons, List.append_assoc, List.singleton_append]
      rw [List.cons_append, lowerFrom_cons, lowerFrom_cons, hback, List.append_assoc]
      constructor
      · intro hequal left right hsplit
        rcases List.append_inj hequal hlength with ⟨hfirst, hlater⟩
        cases left with
        | nil =>
            cases hsplit
            exact lowerAt_eq_iff.mp hfirst rfl
        | cons d left =>
            cases hsplit
            rw [hback, hback]
            exact (ih (c :: before) (c :: own)).mp hlater left right rfl
      · intro hkept
        have hfirst : lowerAt before c (rest ++ after) = lowerAt own c rest := by
          apply lowerAt_eq_iff.mpr
          intro hc
          exact hkept [] rest (congrArg (· :: rest) hc)
        have hlater := (ih (c :: before) (c :: own)).mpr (by
          intro left right hsplit
          rw [← hback, ← hback]
          exact hkept (c :: left) right (congrArg (c :: ·) hsplit))
        rw [hfirst, hlater]

/-- A part of a text is in lower case what it is on its own exactly if its capital sigmas are
kept. -/
theorem lower_append_iff (before part after : List Char) :
    lowerFrom before.reverse (part ++ after) =
        lower part ++ lowerFrom (part.reverse ++ before.reverse) after ↔
      SigmasKept before part after := by
  rw [lower, lowerFrom_append_iff]
  simp only [SigmasKept, List.append_nil]

instance (before part after : List Char) : Decidable (SigmasKept before part after) :=
  decidable_of_iff _ (lower_append_iff before part after)

theorem lowerFrom_append (before front back : List Char) :
    ∃ image, lowerFrom before (front ++ back) =
      image ++ lowerFrom (front.reverse ++ before) back := by
  induction front generalizing before with
  | nil =>
      exact ⟨[], rfl⟩
  | cons c rest ih =>
      rcases ih (c :: before) with ⟨image, himage⟩
      refine ⟨lowerAt before c (rest ++ back) ++ image, ?_⟩
      rw [List.cons_append, lowerFrom_cons, himage, List.reverse_cons, List.append_assoc,
        List.append_assoc, List.singleton_append]

/-- What a text holds is found again in lower case. -/
theorem Holds.lower_part {whole part : List Char} (hholds : Holds whole part) :
    lower part <:+: lower whole := by
  rcases hholds with ⟨before, after, rfl, hkept⟩
  rcases lowerFrom_append [] before (part ++ after) with ⟨image, himage⟩
  rw [List.append_nil, (lower_append_iff before part after).mpr hkept] at himage
  refine ⟨image, lowerFrom (part.reverse ++ before.reverse) after, ?_⟩
  rw [List.append_assoc]
  exact himage.symm

theorem holds_of_part {whole part : List Char} (hpart : part <:+: whole)
    (hsigma : 'Σ' ∉ part) : Holds whole part := by
  rcases hpart with ⟨before, after, rfl⟩
  refine ⟨before, after, List.append_assoc before part after, ?_⟩
  rintro left right rfl
  exact absurd (List.mem_append_right left List.mem_cons_self) hsigma

/-!
## The slash
-/

theorem mem_of_lookup {code : Nat} {image : List Nat}
    (hlookup : CaseTable.lowerExpansion.lookup code = some image) :
    (code, image) ∈ CaseTable.lowerExpansion := by
  rcases List.lookup_eq_some_iff.mp hlookup with ⟨front, back, hentries, _⟩
  rw [hentries]
  exact List.mem_append_right front List.mem_cons_self

theorem lowerChar_ne_nil (c : Char) : lowerChar c ≠ [] := by
  have hentries : ∀ entry ∈ CaseTable.lowerExpansion, entry.2.map Char.ofNat ≠ [] := by
    decide
  unfold lowerChar
  split
  · exact List.cons_ne_nil _ _
  · split
    · rename_i image hlookup
      exact hentries _ (mem_of_lookup hlookup)
    · exact List.cons_ne_nil _ _

theorem ofNat_ne_slash {n : Nat} (hn : 48 ≤ n) : Char.ofNat n ≠ '/' := by
  by_cases hvalid : n.isValidChar
  · intro hslash
    have hcode : (Char.ofNat n).toNat = n := by
      rw [Char.ofNat, dif_pos hvalid]
      rfl
    rw [hslash] at hcode
    change 47 = n at hcode
    omega
  · rw [Char.ofNat, dif_neg hvalid]
    decide

theorem image?_ne_slash (c : Char) : CaseTable.lower.image? c ≠ some '/' := by
  intro himage
  have htargets : ∀ run ∈ CaseTable.lower, 48 ≤ run.2.2.2 := by
    decide +kernel
  rcases List.exists_of_findSome?_eq_some himage with ⟨⟨first, last, step, target⟩, hrun, hhit⟩
  have htarget : 48 ≤ target := htargets _ hrun
  dsimp only at hhit
  split at hhit
  · exact ofNat_ne_slash (Nat.le_add_right_of_le htarget) (Option.some.inj hhit)
  · cases hhit

theorem asciiLower_eq_slash {c : Char} (hslash : asciiLower c = '/') : c = '/' := by
  unfold asciiLower at hslash
  split at hslash
  · rename_i hcapital
    have hcode : 65 ≤ c.toNat := UInt32.le_iff_toNat_le.mp (Char.le_def.mp hcapital.1)
    exact absurd hslash (ofNat_ne_slash (by omega))
  · exact hslash

theorem lowerChar_eq_slash {c : Char} (hslash : lowerChar c = ['/']) : c = '/' := by
  have hentries : ∀ entry ∈ CaseTable.lowerExpansion, entry.2.map Char.ofNat ≠ ['/'] := by
    decide
  unfold lowerChar at hslash
  split at hslash
  · exact asciiLower_eq_slash (List.singleton_inj.mp hslash)
  · split at hslash
    · rename_i image hlookup
      exact absurd hslash (hentries _ (mem_of_lookup hlookup))
    · cases himage : CaseTable.lower.image? c with
      | none =>
          rw [himage] at hslash
          exact List.singleton_inj.mp hslash
      | some counterpart =>
          rw [himage] at hslash
          cases List.singleton_inj.mp hslash
          exact absurd himage (image?_ne_slash c)

theorem lowerAt_ne_nil (before : List Char) (c : Char) (after : List Char) :
    lowerAt before c after ≠ [] := by
  unfold lowerAt
  split
  · split
    · exact List.cons_ne_nil _ _
    · exact List.cons_ne_nil _ _
  · exact lowerChar_ne_nil c

theorem lowerAt_eq_slash {before after : List Char} {c : Char}
    (hslash : lowerAt before c after = ['/']) : c = '/' := by
  unfold lowerAt at hslash
  split at hslash
  · split at hslash
    · cases hslash
    · cases hslash
  · exact lowerChar_eq_slash hslash

theorem lower_eq_slash {cs : List Char} (hslash : lower cs = ['/']) : cs = ['/'] := by
  cases cs with
  | nil =>
      cases hslash
  | cons c rest =>
      rw [lower, lowerFrom_cons] at hslash
      rcases List.append_eq_singleton_iff.mp hslash with ⟨hnil, _⟩ | ⟨hfirst, hlater⟩
      · exact absurd hnil (lowerAt_ne_nil [] c rest)
      · cases rest with
        | nil =>
            rw [lowerAt_eq_slash hfirst]
        | cons d others =>
            rw [lowerFrom_cons] at hlater
            exact absurd (List.append_eq_nil_iff.mp hlater).1 (lowerAt_ne_nil _ d others)

end Text
end EndpointTrace
