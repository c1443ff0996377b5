import EndpointTrace.Proofs.Source.Scanning

/-!
# Scanning a text again without its comments

What stands for a comment is code, and no comment opens where one was blanked.  So a scan of
a text whose comments are blanked finds the regions of the text itself, apart from the
comments: blanking them a second time changes nothing, and hiding literals then hides what
hiding both at once does.
-/

namespace EndpointTrace
namespace LexicalView

namespace Mode

/-- The mode of the scan over the blanked text. -/
def uncommented : Mode → Mode
  | code | lineComment | blockComment => code
  | literal quote escaped => literal quote escaped

theorem uncommented_afterCode (c : Char) : (afterCode c).uncommented = afterCode c := by
  unfold afterCode
  split <;> rfl

theorem uncommented_afterLiteral (quote : Char) (escaped : Bool) (c : Char) :
    (afterLiteral quote escaped c).uncommented = afterLiteral quote escaped c := by
  unfold afterLiteral
  split
  · rfl
  · split
    · rfl
    · split <;> rfl

theorem afterCode_slash : afterCode '/' = code := by
  decide

end Mode

namespace Labelled

theorem bare_cons (region : Region) (c : Char) (labelled : Labelled) :
    bare ((region, c) :: labelled) =
      (if region.isComment then blank c else [c]) ++ bare labelled :=
  rfl

theorem uncommented_cons (region : Region) (c : Char) (labelled : Labelled) :
    uncommented ((region, c) :: labelled) =
      (if region.isComment then ofCode (blank c) else [(region, c)]) ++
        uncommented labelled :=
  rfl

theorem bare_uncommented (labelled : Labelled) :
    bare labelled.uncommented = labelled.bare := by
  induction labelled with
  | nil =>
      rfl
  | cons entry rest ih =>
      rcases entry with ⟨region, c⟩
      rw [uncommented_cons, bare_append, ih, bare_cons]
      cases hcomment : region.isComment with
      | true =>
          rw [if_pos rfl, if_pos rfl, bare_ofCode]
      | false =>
          rw [if_neg Bool.false_ne_true, if_neg Bool.false_ne_true, bare_cons, hcomment]
          rfl

end Labelled

open Labelled

theorem scan_literal (quote : Char) (escaped : Bool) (c : Char) (rest : List Char) :
    scan (.literal quote escaped) (c :: rest) =
      (.literal quote, c) :: scan (.afterLiteral quote escaped c) rest := by
  rw [scan]

theorem scan_blank (c : Char) (rest : List Char) :
    scan .code (blank c ++ rest) = ofCode (blank c) ++ scan .code rest := by
  have hscan := (sound_ofCode (all_blank rfl rfl c)).scan_text rest
  rw [text_ofCode] at hscan
  exact hscan

theorem head?_bare_scan {rest : List Char} (hrest : rest.head? ≠ some '/') :
    (bare (scan .code rest)).head? = rest.head? := by
  cases rest with
  | nil =>
      rfl
  | cons d more =>
      have hd : d ≠ '/' := fun heq => hrest (congrArg some heq)
      rw [scan_code (fun _ heq _ => hd heq) (fun _ heq _ => hd heq), bare_cons]
      rfl

/-- A character that opened no comment opens none when what follows is blanked. -/
theorem scan_code_bare {c : Char} {rest : List Char}
    (hline : ∀ tail, c = '/' → rest = '/' :: tail → False)
    (hblock : ∀ tail, c = '/' → rest = '*' :: tail → False) :
    scan .code (c :: bare (scan (.afterCode c) rest)) =
      (.code, c) :: scan (.afterCode c) (bare (scan (.afterCode c) rest)) := by
  have hhead : c = '/' → (bare (scan (.afterCode c) rest)).head? = rest.head? := by
    rintro rfl
    rw [Mode.afterCode_slash]
    apply head?_bare_scan
    intro hslash
    rcases List.head?_eq_some_iff.mp hslash with ⟨tail, htail⟩
    exact hline tail rfl htail
  apply scan_code
  · intro tail hc htail
    have hslash := hhead hc
    rw [htail] at hslash
    rcases List.head?_eq_some_iff.mp hslash.symm with ⟨more, hmore⟩
    exact hline more hc hmore
  · intro tail hc htail
    have hstar := hhead hc
    rw [htail] at hstar
    rcases List.head?_eq_some_iff.mp hstar.symm with ⟨more, hmore⟩
    exact hblock more hc hmore

theorem scan_bare_scan (mode : Mode) (cs : List Char) :
    scan mode.uncommented (bare (scan mode cs)) = uncommented (scan mode cs) := by
  -- The induction follows the scan of the text itself.
  have hcomment : ∀ (region : Region) (c : Char) (labelled : Labelled),
      region.isComment = true → scan .code (bare labelled) = uncommented labelled →
        scan .code (bare ((region, c) :: labelled)) = uncommented ((region, c) :: labelled) := by
    intro region c labelled hregion hlabelled
    rw [bare_cons, uncommented_cons, if_pos hregion, if_pos hregion, scan_blank, hlabelled]
  fun_induction scan mode cs with
  | case1 mode =>
      cases mode <;> rfl
  | case2 rest ih =>
      exact hcomment _ _ _ rfl (hcomment _ _ _ rfl ih)
  | case3 rest ih =>
      exact hcomment _ _ _ rfl (hcomment _ _ _ rfl ih)
  | case4 c rest hline hblock ih =>
      rw [Mode.uncommented_afterCode] at ih
      rw [bare_cons, uncommented_cons, ← ih]
      exact scan_code_bare hline hblock
  | case5 rest ih =>
      rw [bare_cons, uncommented_cons, ← ih]
      exact scan_plain rfl _
  | case6 c rest hfeed ih =>
      exact hcomment _ _ _ rfl ih
  | case7 rest ih =>
      exact hcomment _ _ _ rfl (hcomment _ _ _ rfl ih)
  | case8 c rest hend ih =>
      exact hcomment _ _ _ rfl ih
  | case9 quote escaped c rest ih =>
      rw [Mode.uncommented_afterLiteral] at ih
      rw [bare_cons, uncommented_cons, ← ih]
      exact scan_literal quote escaped c _

theorem scan_blankComments (cs : List Char) :
    scan .code (blankComments cs) = uncommented (scan .code cs) :=
  scan_bare_scan .code cs

theorem blankComments_blankComments (cs : List Char) :
    blankComments (blankComments cs) = blankComments cs := by
  rw [blankComments_eq, scan_blankComments, bare_uncommented, blankComments_eq]

/-- Once the comments are blanked, only literals are left to hide. -/
theorem maskLiterals_blankComments (cs : List Char) :
    maskLiterals (blankComments cs) = codeOnly cs := by
  rw [maskLiterals_eq, scan_blankComments, shown_uncommented, codeOnly_eq]

end LexicalView
end EndpointTrace
