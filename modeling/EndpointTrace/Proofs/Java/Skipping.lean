import EndpointTrace.Java.Parser

/-!
# What is skipped

Skipping leaves a last part of the tokens.  Where it also says which token it took last, that
token stands right before what is left or somewhere earlier.
-/

namespace EndpointTrace
namespace Java

/-!
## Brackets and names
-/

theorem afterClosing_suffix (depth : Nat) (tokens : Tokens) :
    afterClosing depth tokens <:+ tokens := by
  fun_induction afterClosing depth tokens with
  | case1 => exact List.suffix_rfl
  | case2 _ token rest _ ih => exact ih.trans (List.suffix_cons token rest)
  | case3 token rest => exact List.suffix_cons token rest
  | case4 token rest _ _ _ ih => exact ih.trans (List.suffix_cons token rest)
  | case5 _ token rest _ _ ih => exact ih.trans (List.suffix_cons token rest)

theorem suffix_of_afterAngles? {depth : Nat} {tokens rest : Tokens} {closing : Token}
    (hfound : afterAngles? depth tokens = some (closing, rest)) :
    closing :: rest <:+ tokens := by
  fun_induction afterAngles? depth tokens with
  | case1 => cases hfound
  | case2 _ token behind _ ih => exact (ih hfound).trans (List.suffix_cons token behind)
  | case3 => cases hfound; exact List.suffix_rfl
  | case4 token behind _ _ _ ih => exact (ih hfound).trans (List.suffix_cons token behind)
  | case5 _ token behind _ _ _ ih => exact (ih hfound).trans (List.suffix_cons token behind)
  | case6 => cases hfound

theorem behind_suffix_of_afterAngles? {depth : Nat} {tokens rest : Tokens} {closing : Token}
    (hfound : afterAngles? depth tokens = some (closing, rest)) : rest <:+ tokens :=
  (List.suffix_cons closing rest).trans (suffix_of_afterAngles? hfound)

theorem behindAngles_suffix (tokens : Tokens) :
    (match tokens with
      | angle :: rest =>
          if angle.isSymbol "<" then ((afterAngles? 0 rest).map Prod.snd).getD rest else tokens
      | [] => []) <:+ tokens := by
  cases tokens with
  | nil =>
      exact List.suffix_rfl
  | cons angle rest =>
      simp only
      split
      · cases hfound : afterAngles? 0 rest with
        | none => exact List.suffix_cons angle rest
        | some found =>
            exact (behind_suffix_of_afterAngles? hfound).trans (List.suffix_cons angle rest)
      · exact List.suffix_rfl

theorem afterQualified_suffix (tokens : Tokens) : afterQualified tokens <:+ tokens := by
  fun_induction afterQualified tokens with
  | case1 => exact List.suffix_rfl
  | case2 => exact List.nil_suffix
  | case3 => exact List.suffix_rfl
  | case4 token dot rest _ _ ih =>
      exact ih.trans ((List.suffix_cons dot rest).trans (List.suffix_cons token _))
  | case5 token => exact List.suffix_cons token _
  | case6 => exact List.suffix_rfl

theorem afterMark_suffix (tokens : Tokens) : afterMark tokens <:+ tokens := by
  unfold afterMark
  split
  · exact List.nil_suffix
  · rename_i token rest hqualified
    have hsuffix := afterQualified_suffix tokens
    rw [hqualified] at hsuffix
    split
    · exact (afterClosing_suffix 0 rest).trans ((List.suffix_cons token rest).trans hsuffix)
    · exact hsuffix

theorem afterModifiers_suffix (bound : Nat) (tokens : Tokens) :
    afterModifiers bound tokens <:+ tokens := by
  fun_induction afterModifiers bound tokens with
  | case1 => exact List.suffix_rfl
  | case2 => exact List.suffix_rfl
  | case3 _ token rest _ ih =>
      exact ih.trans ((afterMark_suffix rest).trans (List.suffix_cons token rest))
  | case4 _ token rest _ _ _ ih =>
      exact ih.trans ((List.drop_suffix 1 rest).trans (List.suffix_cons token rest))
  | case5 _ token rest _ _ _ ih => exact ih.trans (List.suffix_cons token rest)
  | case6 => exact List.suffix_rfl

theorem afterAnnotations_suffix (bound : Nat) (tokens : Tokens) :
    afterAnnotations bound tokens <:+ tokens := by
  fun_induction afterAnnotations bound tokens with
  | case1 _ token rest _ ih =>
      exact ih.trans ((afterMark_suffix rest).trans (List.suffix_cons token rest))
  | case2 => exact List.suffix_rfl
  | case3 => exact List.suffix_rfl

/-!
## Types
-/

theorem suffix_of_afterDimension? {bound : Nat} {tokens rest : Tokens} {closing : Token}
    (hfound : afterDimension? bound tokens = some (closing, rest)) :
    closing :: rest <:+ tokens := by
  unfold afterDimension? at hfound
  split at hfound
  · rename_i left right behind hannotations
    split at hfound
    · cases hfound
      have hsuffix := afterAnnotations_suffix bound tokens
      rw [hannotations] at hsuffix
      exact (List.suffix_cons left _).trans hsuffix
    · cases hfound
  · cases hfound

theorem afterDimensions_suffix (bound : Nat) (tokens : Tokens) :
    afterDimensions bound tokens <:+ tokens := by
  fun_induction afterDimensions bound tokens with
  | case1 => exact List.suffix_rfl
  | case2 _ tokens closing rest hfound ih =>
      exact (ih.trans (List.suffix_cons closing rest)).trans (suffix_of_afterDimension? hfound)
  | case3 => exact List.suffix_rfl

/-- The last token of a type is its first name or stands between that and what is left. -/
theorem afterType_sublist (bound : Nat) (last : Token) (tokens : Tokens) :
    ((afterType bound last tokens).1 :: (afterType bound last tokens).2).Sublist
      (last :: tokens) := by
  fun_induction afterType bound last tokens with
  | case1 => exact List.Sublist.refl _
  | case2 bound last token next rest _ closing behind hfound ih =>
      have hsuffix := (suffix_of_afterAngles? hfound).trans (List.suffix_cons token _)
      exact ih.trans (hsuffix.sublist.trans (List.sublist_cons_self _ _))
  | case3 => exact List.Sublist.refl _
  | case4 bound last token next rest _ _ ih =>
      exact ih.trans ((List.suffix_cons token _).sublist.trans (List.sublist_cons_self _ _))
  | case5 bound last token next rest _ _ _ name behind hmark ih =>
      have hsuffix := afterMark_suffix rest
      rw [hmark] at hsuffix
      have hbehind := (List.suffix_cons next rest).trans (List.suffix_cons token _)
      exact ih.trans ((hsuffix.trans hbehind).sublist.trans (List.sublist_cons_self _ _))
  | case6 => exact List.Sublist.refl _
  | case7 bound last token next rest _ _ _ closing behind hfound ih =>
      rw [hfound]
      exact ih.trans ((suffix_of_afterDimension? hfound).sublist.trans
        (List.sublist_cons_self _ _))
  | case8 bound last token next rest _ _ _ hnone =>
      rewrite [hnone]
      exact List.Sublist.refl _
  | case9 => exact List.Sublist.refl _

/-!
## Patterns and headers
-/

theorem afterPattern_sublist (tokens : Tokens) : (afterPattern tokens).Sublist tokens := by
  unfold afterPattern
  split
  · rename_i name rest hmodifiers
    have hsuffix := afterModifiers_suffix tokens.length tokens
    rw [hmodifiers] at hsuffix
    have htype := (afterType_sublist rest.length name rest).trans hsuffix.sublist
    split
    · rename_i token behind heq
      rw [heq] at htype
      have hbehind := htype.tail.trans (List.tail_sublist tokens)
      split
      · exact (afterClosing_suffix 0 behind).sublist.trans
          ((List.sublist_cons_self token behind).trans hbehind)
      · exact hbehind
    · exact List.nil_sublist _
  · exact List.nil_sublist _

theorem afterCase_sublist (tokens : Tokens) : (afterCase tokens).Sublist tokens := by
  have hdrop : ∀ (p : Bool) (left : Tokens), left.Sublist tokens →
      (if p then left.drop 1 else left).Sublist tokens := by
    intro p left hleft
    split
    · exact (List.drop_sublist 1 left).trans hleft
    · exact hleft
  unfold afterCase
  split
  · exact List.nil_sublist _
  · rename_i name rest hmodifiers
    have hsuffix := afterModifiers_suffix tokens.length tokens
    rw [hmodifiers] at hsuffix
    have htype := ((afterType_sublist rest.length name rest).trans hsuffix.sublist).tail.trans
      (List.tail_sublist tokens)
    split
    · simp only
      split
      · exact List.Sublist.refl _
      · rename_i token more heq
        rw [heq] at htype
        have hmore := (List.sublist_cons_self token more).trans htype
        apply hdrop
        split
        · apply hdrop
          exact (afterClosing_suffix 0 more).sublist.trans hmore
        · split
          · exact hmore
          · exact List.Sublist.refl _
    · exact List.Sublist.refl _

theorem suffix_of_declared? {tokens rest : Tokens} {declared : Declared}
    (hfound : declared? tokens = some (declared, rest)) : rest <:+ tokens.tail := by
  unfold declared? at hfound
  split at hfound
  · rename_i token next behind
    have hnext : behind <:+ next :: behind := List.suffix_cons next behind
    split at hfound
    · cases hfound
      exact hnext
    · split at hfound
      · split at hfound
        · cases hfound
          exact List.suffix_rfl
        · split at hfound
          · cases hfound
            exact List.suffix_rfl
          · split at hfound
            · cases hfound
              exact List.suffix_rfl
            · split at hfound
              · cases hfound
                exact List.suffix_rfl
              · cases hfound
      · cases hfound
  · cases hfound

theorem suffix_of_declared?_afterModifiers {bound : Nat} {token : Token} {rest tokens : Tokens}
    {declared : Declared}
    (hfound : declared? (afterModifiers bound (token :: rest)) = some (declared, tokens)) :
    tokens <:+ rest := by
  have hsuffix := suffix_of_declared? hfound
  rcases List.suffix_cons_iff.mp (afterModifiers_suffix bound (token :: rest)) with hsame | hrest
  · rw [hsame] at hsuffix
    exact hsuffix
  · exact hsuffix.trans ((List.tail_suffix _).trans hrest)

theorem suffix_of_afterHeader? {depth : Nat} {tokens rest : Tokens} {brace : Token}
    (hfound : afterHeader? depth tokens = some (brace, rest)) : brace :: rest <:+ tokens := by
  fun_induction afterHeader? depth tokens with
  | case1 => cases hfound
  | case2 _ token behind _ ih => exact (ih hfound).trans (List.suffix_cons token behind)
  | case3 _ token behind _ _ ih => exact (ih hfound).trans (List.suffix_cons token behind)
  | case4 => cases hfound; exact List.suffix_rfl
  | case5 => cases hfound
  | case6 _ token behind _ _ _ _ ih => exact (ih hfound).trans (List.suffix_cons token behind)

end Java
end EndpointTrace
