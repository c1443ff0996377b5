import EndpointTrace.Proofs.Source.ClosedLiterals
import Mathlib.Data.List.Chain

/-!
# Replacing comments

A comment as the lexical scan finds it: the scan enters it in code and puts all of it into
one region.  Another comment in its place, or white space, is found in the same way, so the
text around it reads as before; with comments blanked, nothing but the white space between
what stands before the comment and what stands behind it changes.
-/

namespace EndpointTrace
namespace LexicalView

open Text (Seam)
open Labelled

/-!
## Places where a comment begins
-/

/-- The two characters do not open a comment in code. -/
def OpensNone (first second : Region × Char) : Prop :=
  first = (.code, '/') → second.2 ≠ '/' ∧ second.2 ≠ '*'

theorem isChain_opensNone (mode : Mode) (cs : List Char) :
    (scan mode cs).IsChain OpensNone := by
  have hother : ∀ (region : Region) (c : Char) (labelled : Labelled),
      region ≠ .code ∨ c ≠ '/' → labelled.IsChain OpensNone →
        List.IsChain OpensNone ((region, c) :: labelled) := by
    intro region c labelled hne hchain
    apply List.isChain_cons.mpr
    refine ⟨?_, hchain⟩
    intro entry _ hslash
    rcases hne with hregion | hc
    · exact absurd (Prod.mk.inj hslash).1 hregion
    · exact absurd (Prod.mk.inj hslash).2 hc
  fun_induction scan mode cs with
  | case1 mode =>
      exact .nil
  | case2 rest ih | case3 rest ih | case7 rest ih =>
      apply hother _ _ _ (Or.inl Region.noConfusion)
      exact hother _ _ _ (Or.inl Region.noConfusion) ih
  | case4 c rest hline hblock ih =>
      apply List.isChain_cons.mpr
      refine ⟨?_, ih⟩
      intro entry hentry hslash
      have hc : c = '/' := (Prod.mk.inj hslash).2
      have hhead : rest.head? = some entry.2 := by
        rw [← text_scan (.afterCode c) rest, text, List.head?_map, Option.mem_def.mp hentry]
        rfl
      rcases List.head?_eq_some_iff.mp hhead with ⟨tail, htail⟩
      constructor
      · intro heq
        exact hline tail hc (heq ▸ htail)
      · intro heq
        exact hblock tail hc (heq ▸ htail)
  | case5 rest ih =>
      exact hother _ _ _ (Or.inr (by decide)) ih
  | case6 c rest hfeed ih | case8 c rest hend ih | case9 quote escaped c rest ih =>
      exact hother _ _ _ (Or.inl Region.noConfusion) ih

/-- A scan can be cut in code, unless a slash of code stands before the cut. -/
theorem scan_append_of_code {mode : Mode} {cs : List Char} (hafter : modeAfter mode cs = .code)
    (hlast : (scan mode cs).getLast? ≠ some (.code, '/')) (rest : List Char) :
    scan mode (cs ++ rest) = scan mode cs ++ scan .code rest := by
  have hstep : ∀ (entry : Region × Char) {labelled : Labelled},
      (entry :: labelled).getLast? ≠ some (.code, '/') →
        labelled.getLast? ≠ some (.code, '/') := by
    intro entry labelled hlast hmore
    rw [List.getLast?_cons, hmore] at hlast
    exact hlast rfl
  -- What is found behind the cut stays as it is.
  generalize hfound : scan .code rest = found
  fun_induction modeAfter mode cs with
  | case1 mode =>
      rw [hafter, ← hfound]
      rfl
  | case2 tail ih | case3 tail ih | case7 tail ih =>
      rw [scan] at hlast
      rw [List.cons_append, List.cons_append, scan, scan, ih hafter (hstep _ (hstep _ hlast))]
      rfl
  | case4 d tail hline hblock ih =>
      rw [scan_code hline hblock] at hlast ⊢
      have hcut : ∀ e, (∀ more, d = '/' → tail = e :: more → False) →
          ∀ more, d = '/' → tail ++ rest = e :: more → False := by
        rintro e htail more rfl hmore
        cases tail with
        | nil =>
            exact hlast rfl
        | cons f after =>
            rw [(List.cons.inj hmore).1] at htail
            exact htail after rfl rfl
      rw [List.cons_append, List.cons_append, ← ih hafter (hstep _ hlast)]
      exact scan_code (hcut '/' hline) (hcut '*' hblock)
  | case5 tail ih =>
      rw [scan, if_pos rfl] at hlast
      rw [List.cons_append, scan, scan, if_pos rfl, if_pos rfl, ih hafter (hstep _ hlast)]
      rfl
  | case6 d tail hfeed ih =>
      rw [scan, if_neg hfeed] at hlast
      rw [List.cons_append, scan, scan, if_neg hfeed, if_neg hfeed, ih hafter (hstep _ hlast)]
      rfl
  | case8 d tail hend ih =>
      rw [scan_blockComment hend] at hlast ⊢
      have hcut : ∀ more, d = '*' → tail ++ rest = '/' :: more → False := by
        intro more hd hmore
        cases tail with
        | nil =>
            cases hafter
        | cons f after =>
            rw [(List.cons.inj hmore).1] at hend
            exact hend after hd rfl
      rw [List.cons_append, List.cons_append, ← ih hafter (hstep _ hlast)]
      exact scan_blockComment hcut
  | case9 quote escaped d tail ih =>
      rw [scan_literal] at hlast
      rw [List.cons_append, scan_literal, scan_literal, ih hafter (hstep _ hlast)]
      rfl

theorem scan_lineComment_append {body : List Char} (hline : '\n' ∉ body) (rest : List Char) :
    scan .lineComment (body ++ rest) =
      inRegion .lineComment body ++ scan .lineComment rest := by
  induction body with
  | nil =>
      rfl
  | cons c tail ih =>
      rw [List.mem_cons, not_or] at hline
      rw [List.cons_append, scan, if_neg (Ne.symm hline.1), ih hline.2]
      rfl

theorem scan_blockComment_unended {body : List Char} (hopen : ¬ ['*', '/'] <:+: body) :
    scan .blockComment body = inRegion .blockComment body := by
  induction body with
  | nil =>
      rfl
  | cons c tail ih =>
      have htail : ¬ ['*', '/'] <:+: tail :=
        fun hwithin => hopen (hwithin.trans (List.suffix_cons c tail).isInfix)
      rw [scan_blockComment, ih htail]
      · rfl
      · rintro more rfl rfl
        exact hopen ⟨[], more, rfl⟩

/-!
## Comments
-/

/-- A comment that ends with its line, one that is closed, or one that ends with the text. -/
inductive Comment where
  | line (body : List Char) (oneLine : '\n' ∉ body)
  | block (body : List Char) (unended : ¬ ['*', '/'] <:+: body)
  | unclosed (body : List Char) (unended : ¬ ['*', '/'] <:+: body)

namespace Comment

def region : Comment → Region
  | line _ _ => .lineComment
  | block _ _ | unclosed _ _ => .blockComment

def text : Comment → List Char
  | line body _ => '/' :: '/' :: body
  | block body _ => '/' :: '*' :: (body ++ ['*', '/'])
  | unclosed body _ => '/' :: '*' :: body

def labelled (comment : Comment) : Labelled :=
  inRegion comment.region comment.text

def EndsBefore (after : List Char) : Comment → Prop
  | line _ _ => ∀ c ∈ after.head?, c = '\n'
  | block _ _ => True
  | unclosed _ _ => after = []

/-- The comment stands between the two texts, and the scan finds all of it. -/
structure FoundIn (comment : Comment) (before after : List Char) : Prop where
  entered : modeAfter .code before = .code
  regions : scan .code (before ++ (comment.text ++ after)) =
    scan .code before ++ (comment.labelled ++ scan .code after)
  ends : comment.EndsBefore after

/-- What may stand in the place of a comment in front of a text: a comment of the same kind,
white space for a block comment, and nothing for a line comment. -/
inductive ReplacedBy (comment : Comment) (after : List Char) : List Char → Prop
  | comment (other : Comment) (hkind : other.region = comment.region)
      (hends : other.EndsBefore after) : ReplacedBy comment after other.text
  | blank (gap : List Char) (hblock : comment.region = .blockComment) (hsome : gap ≠ [])
      (hblank : gap.all Text.isBlank = true) : ReplacedBy comment after gap
  | nothing (hline : comment.region = .lineComment) : ReplacedBy comment after []

variable {comment : Comment} {before after : List Char}

theorem scan_text_append (hends : comment.EndsBefore after) :
    scan .code (comment.text ++ after) = comment.labelled ++ scan .code after := by
  cases comment with
  | line body oneLine =>
      have hbody := scan_lineComment_append oneLine after
      have hafter : scan .lineComment after = scan .code after := by
        cases after with
        | nil =>
            rfl
        | cons c rest =>
            rw [hends c rfl]
            rfl
      rw [hafter] at hbody
      exact congrArg ((.lineComment, '/') :: (.lineComment, '/') :: ·) hbody
  | block body unended =>
      have hscan := (sound_ofBlockComment unended).scan_text after
      rw [ofBlockComment, text_inRegion] at hscan
      exact hscan
  | unclosed body unended =>
      have hafter : after = [] := hends
      rw [hafter, List.append_nil]
      have hbody := scan_blockComment_unended unended
      exact (congrArg ((.blockComment, '/') :: (.blockComment, '*') :: ·) hbody).trans
        (List.append_nil _).symm

theorem exists_text_eq (comment : Comment) : ∃ rest, comment.text = '/' :: rest := by
  cases comment with
  | line body _ | block body _ | unclosed body _ =>
      exact ⟨_, rfl⟩

theorem bare_labelled (comment : Comment) :
    bare comment.labelled = comment.text.flatMap blank := by
  have hregion : comment.region.isComment = true := by
    cases comment <;> rfl
  rw [labelled, inRegion, bare, shown, List.flatMap_map]
  simp only [hregion, if_true]

theorem all_isBlank_bare (comment : Comment) :
    (bare comment.labelled).all Text.isBlank = true := by
  rw [bare_labelled, List.all_flatMap, List.all_eq_true]
  exact fun c _ => all_blank (by decide) (by decide) c

theorem bare_ne_nil (comment : Comment) : bare comment.labelled ≠ [] := by
  rcases comment.exists_text_eq with ⟨rest, htext⟩
  rw [bare_labelled, htext]
  exact List.cons_ne_nil ' ' _

namespace FoundIn

variable (hfound : comment.FoundIn before after)

include hfound

/-- The scan would have found the comment one character earlier. -/
theorem getLast?_ne : (scan .code before).getLast? ≠ some (.code, '/') := by
  intro hlast
  rcases comment.exists_text_eq with ⟨rest, htext⟩
  have hchain := isChain_opensNone .code (before ++ (comment.text ++ after))
  rw [hfound.regions, labelled, htext] at hchain
  have hnone : OpensNone (.code, '/') (comment.region, '/') := by
    apply (List.isChain_append.mp hchain).2.2
    · exact Option.mem_def.mpr hlast
    · exact Option.mem_def.mpr rfl
  exact (hnone rfl).1 rfl

theorem eq_nil_or_lineFeed (hline : comment.region = .lineComment) :
    after = [] ∨ ∃ rest, after = '\n' :: rest := by
  have hends := hfound.ends
  cases comment with
  | line body oneLine =>
      cases after with
      | nil =>
          exact Or.inl rfl
      | cons c rest =>
          rw [hends c rfl]
          exact Or.inr ⟨rest, rfl⟩
  | block body unended | unclosed body unended =>
      cases hline

theorem scan_comment {other : Comment} (hends : other.EndsBefore after) :
    scan .code (before ++ (other.text ++ after)) =
      scan .code before ++ (other.labelled ++ scan .code after) := by
  rw [← scan_text_append hends]
  exact scan_append_of_code hfound.entered hfound.getLast?_ne _

theorem exists_gap {new : List Char} (hreplaced : comment.ReplacedBy after new) :
    ∃ gap, gap.all Text.isBlank = true ∧ (gap = [] → comment.region = .lineComment) ∧
      blankComments (before ++ (new ++ after)) =
        blankComments before ++ (gap ++ blankComments after) := by
  cases hreplaced with
  | comment other hkind hends =>
      refine ⟨bare other.labelled, all_isBlank_bare other, ?_, ?_⟩
      · exact fun hnil => absurd hnil (bare_ne_nil other)
      · rw [blankComments_eq, hfound.scan_comment hends, bare_append, bare_append]
        rfl
  | blank gap hblock hsome hblank =>
      have hseam : Seam after new := ⟨hblank, fun hnil => absurd hnil hsome⟩
      refine ⟨new, hblank, fun hnil => absurd hnil hsome, ?_⟩
      rw [blankComments_eq, scan_append_gap hfound.entered hseam, bare_append, bare_append,
        bare_ofCode]
      rfl
  | nothing hline =>
      refine ⟨[], rfl, fun _ => hline, ?_⟩
      rw [List.nil_append, List.nil_append]
      rcases hfound.eq_nil_or_lineFeed hline with rfl | ⟨rest, rfl⟩
      · rw [List.append_nil]
        exact (List.append_nil _).symm
      · have hseam : Seam rest ['\n'] :=
          ⟨by decide, fun hnil => absurd hnil (List.cons_ne_nil _ _)⟩
        have hscan := scan_append_gap hfound.entered hseam
        rw [← scan_gap hseam.blank, List.singleton_append] at hscan
        rw [blankComments_eq, hscan, bare_append]
        rfl

/-- Whatever stands in the place of the comment, blanking comments leaves the same texts
before and behind some white space. -/
theorem exists_seam : ∃ back, ∀ new, comment.ReplacedBy after new → ∃ gap, Seam back gap ∧
    blankComments (before ++ (new ++ after)) = blankComments before ++ (gap ++ back) := by
  by_cases hline : comment.region = .lineComment
  · rcases hfound.eq_nil_or_lineFeed hline with rfl | ⟨rest, rfl⟩
    · refine ⟨[], ?_⟩
      intro new hreplaced
      rcases hfound.exists_gap hreplaced with ⟨gap, hblank, _, heq⟩
      exact ⟨gap, ⟨hblank, fun _ => rfl⟩, heq⟩
    · -- The line feed that ends the comment is white space that stays.
      refine ⟨blankComments rest, ?_⟩
      intro new hreplaced
      rcases hfound.exists_gap hreplaced with ⟨gap, hblank, _, heq⟩
      have hfeed : blankComments ('\n' :: rest) = '\n' :: blankComments rest := by
        rw [blankComments_eq, scan_plain rfl]
        rfl
      refine ⟨gap ++ ['\n'], ⟨?_, ?_⟩, ?_⟩
      · rw [List.all_append, hblank]
        decide
      · intro hnil
        cases (List.append_eq_nil_iff.mp hnil).2
      · rw [heq, hfeed, List.append_assoc]
        rfl
  · refine ⟨blankComments after, ?_⟩
    intro new hreplaced
    rcases hfound.exists_gap hreplaced with ⟨gap, hblank, hsome, heq⟩
    exact ⟨gap, ⟨hblank, fun hnil => absurd (hsome hnil) hline⟩, heq⟩

theorem closed_before (hclosed : LiteralsClosed (before ++ (comment.text ++ after))) :
    Closed (blankComments before) := by
  apply closedFrom_bare_scan hfound.entered trivial
  intro entry hentry
  apply hclosed.enclosed
  rw [hfound.regions]
  exact List.mem_append_left _ hentry

end FoundIn

end Comment

end LexicalView
end EndpointTrace
