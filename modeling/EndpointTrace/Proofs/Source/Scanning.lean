import EndpointTrace.Source.LexicalView
import EndpointTrace.Text.Bytes

/-!
# Scanning a text piece by piece

A labelled text is a text with the region of each of its characters.  A labelled text is
sound if a scan that reaches it in code gives it these regions, whatever follows, and goes
on in code behind it.  Sound texts can be put side by side; the views of the whole are then
those of the parts, and all of them have the same size.

A comment turns into code where it is blanked, so soundness speaks of a second scan too,
the one over the text whose comments are blanked already.
-/

namespace EndpointTrace
namespace LexicalView

/-!
## Cutting a scan
-/

def modeAfter : Mode → List Char → Mode
  | mode, [] => mode
  | .code, '/' :: '/' :: rest => modeAfter .lineComment rest
  | .code, '/' :: '*' :: rest => modeAfter .blockComment rest
  | .code, c :: rest => modeAfter (.afterCode c) rest
  | .lineComment, c :: rest =>
      if c = '\n' then modeAfter .code rest else modeAfter .lineComment rest
  | .blockComment, '*' :: '/' :: rest => modeAfter .code rest
  | .blockComment, _ :: rest => modeAfter .blockComment rest
  | .literal quote escaped, c :: rest => modeAfter (.afterLiteral quote escaped c) rest

theorem scan_code {c : Char} {rest : List Char}
    (hline : ∀ tail, c = '/' → rest = '/' :: tail → False)
    (hblock : ∀ tail, c = '/' → rest = '*' :: tail → False) :
    scan .code (c :: rest) = (.code, c) :: scan (.afterCode c) rest := by
  rw [scan]
  · exact hline
  · exact hblock

theorem scan_blockComment {c : Char} {rest : List Char}
    (hend : ∀ tail, c = '*' → rest = '/' :: tail → False) :
    scan .blockComment (c :: rest) = (.blockComment, c) :: scan .blockComment rest := by
  rw [scan]
  exact hend

/-- A scan can be cut before a character that neither opens nor closes a comment. -/
theorem scan_append {c : Char} (hslash : c ≠ '/') (hstar : c ≠ '*') (mode : Mode)
    (cs rest : List Char) :
    scan mode (cs ++ c :: rest) = scan mode cs ++ scan (modeAfter mode cs) (c :: rest) := by
  fun_induction modeAfter mode cs with
  | case1 mode =>
      cases mode <;> rfl
  | case2 tail ih =>
      simp [scan, ih]
  | case3 tail ih =>
      simp [scan, ih]
  | case4 d tail hline hblock ih =>
      have hcut : ∀ e, e ≠ c → (∀ more, d = '/' → tail = e :: more → False) →
          ∀ more, d = '/' → tail ++ c :: rest = e :: more → False := by
        intro e he htail more hd hmore
        cases tail with
        | nil =>
            exact he (List.cons.inj hmore).1.symm
        | cons f after =>
            rw [(List.cons.inj hmore).1] at htail
            exact htail after hd rfl
      rw [scan_code hline hblock, List.cons_append, List.cons_append, ← ih]
      exact scan_code (hcut '/' hslash.symm hline) (hcut '*' hstar.symm hblock)
  | case5 tail ih =>
      simp [scan, ih]
  | case6 d tail hfeed ih =>
      simp [scan, hfeed, ih]
  | case7 tail ih =>
      simp [scan, ih]
  | case8 d tail hend ih =>
      have hcut : ∀ more, d = '*' → tail ++ c :: rest = '/' :: more → False := by
        intro more hd hmore
        cases tail with
        | nil =>
            exact hslash (List.cons.inj hmore).1
        | cons f after =>
            rw [(List.cons.inj hmore).1] at hend
            exact hend after hd rfl
      rw [scan_blockComment hend, List.cons_append, List.cons_append, ← ih]
      exact scan_blockComment hcut
  | case9 quote escaped d tail ih =>
      simp [scan, ih]

/-!
## Labelled texts
-/

abbrev Labelled := List (Region × Char)

namespace Labelled

def text (labelled : Labelled) : List Char :=
  labelled.map Prod.snd

def shown (hidden : Region → Char → Bool) (labelled : Labelled) : List Char :=
  labelled.flatMap fun (region, c) => if hidden region c then blank c else [c]

def bare (labelled : Labelled) : List Char :=
  labelled.shown fun region _ => region.isComment

def live (labelled : Labelled) : List Char :=
  labelled.shown fun region c => region.isComment || region.isContent c

def inRegion (region : Region) (cs : List Char) : Labelled :=
  cs.map fun c => (region, c)

def ofCode (cs : List Char) : Labelled :=
  inRegion .code cs

/-- The regions of the text without its comments: what stands for a comment is code. -/
def uncommented (labelled : Labelled) : Labelled :=
  labelled.flatMap fun (region, c) =>
    if region.isComment then ofCode (blank c) else [(region, c)]

theorem blankComments_eq (cs : List Char) : blankComments cs = bare (scan .code cs) :=
  rfl

theorem codeOnly_eq (cs : List Char) : codeOnly cs = live (scan .code cs) :=
  rfl

theorem maskLiterals_eq (cs : List Char) :
    maskLiterals cs = shown Region.isContent (scan .code cs) :=
  rfl

theorem text_append (first second : Labelled) :
    text (first ++ second) = text first ++ text second :=
  List.map_append

theorem shown_append (hidden : Region → Char → Bool) (first second : Labelled) :
    shown hidden (first ++ second) = shown hidden first ++ shown hidden second :=
  List.flatMap_append

theorem bare_append (first second : Labelled) :
    bare (first ++ second) = bare first ++ bare second :=
  shown_append _ first second

theorem live_append (first second : Labelled) :
    live (first ++ second) = live first ++ live second :=
  shown_append _ first second

theorem uncommented_append (first second : Labelled) :
    uncommented (first ++ second) = uncommented first ++ uncommented second :=
  List.flatMap_append

theorem text_inRegion (region : Region) (cs : List Char) :
    text (inRegion region cs) = cs := by
  induction cs with
  | nil =>
      rfl
  | cons c rest ih =>
      exact congrArg (c :: ·) ih

theorem text_ofCode (cs : List Char) : text (ofCode cs) = cs :=
  text_inRegion .code cs

theorem shown_inRegion {hidden : Region → Char → Bool} {region : Region}
    (hshown : ∀ c, hidden region c = false) (cs : List Char) :
    shown hidden (inRegion region cs) = cs := by
  induction cs with
  | nil =>
      rfl
  | cons c rest ih =>
      have hfirst : shown hidden [(region, c)] = [c] := by
        simp [shown, hshown]
      exact (shown_append hidden [(region, c)] (inRegion region rest)).trans
        (by rw [hfirst, ih]; rfl)

theorem bare_inRegion {region : Region} (hcomment : region.isComment = false)
    (cs : List Char) : bare (inRegion region cs) = cs :=
  shown_inRegion (fun _ => hcomment) cs

theorem bare_ofCode (cs : List Char) : bare (ofCode cs) = cs :=
  bare_inRegion rfl cs

theorem live_ofCode (cs : List Char) : live (ofCode cs) = cs :=
  shown_inRegion (fun _ => rfl) cs

theorem uncommented_inRegion {region : Region} (hcomment : region.isComment = false)
    (cs : List Char) : uncommented (inRegion region cs) = inRegion region cs := by
  induction cs with
  | nil =>
      rfl
  | cons c rest ih =>
      have hfirst : uncommented [(region, c)] = [(region, c)] := by
        simp [uncommented, hcomment]
      exact (uncommented_append [(region, c)] (inRegion region rest)).trans
        (by rw [hfirst, ih]; rfl)

theorem uncommented_ofCode (cs : List Char) : uncommented (ofCode cs) = ofCode cs :=
  uncommented_inRegion rfl cs

theorem shown_uncommented (labelled : Labelled) :
    shown Region.isContent labelled.uncommented = labelled.live := by
  induction labelled with
  | nil =>
      rfl
  | cons entry rest ih =>
      rcases entry with ⟨region, c⟩
      have hfirst : shown Region.isContent (uncommented [(region, c)]) = live [(region, c)] := by
        cases hcomment : region.isComment with
        | true =>
            have hblank : shown Region.isContent (ofCode (blank c)) = blank c :=
              shown_inRegion (fun _ => rfl) (blank c)
            simp only [uncommented, live, shown, List.flatMap_cons, List.flatMap_nil,
              List.append_nil, hcomment, Bool.true_or, if_true]
            exact hblank
        | false =>
            simp [uncommented, live, shown, hcomment]
      calc shown Region.isContent (uncommented ((region, c) :: rest))
          = shown Region.isContent (uncommented [(region, c)] ++ uncommented rest) :=
            congrArg (shown Region.isContent) (uncommented_append [(region, c)] rest)
        _ = live [(region, c)] ++ live rest := by rw [shown_append, hfirst, ih]
        _ = live ((region, c) :: rest) := (live_append [(region, c)] rest).symm

/-!
## Sizes
-/

theorem byteSize_blank (c : Char) : Text.byteSize (blank c) = c.utf8Size := by
  have hspaces : ∀ n, Text.byteSize (List.replicate n ' ') = n := by
    intro n
    induction n with
    | zero =>
        rfl
    | succ n ih =>
        rw [List.replicate_succ, Text.byteSize, ih]
        exact Nat.add_comm 1 n
  unfold blank
  split
  · rename_i hfeed
    rw [hfeed]
    rfl
  · exact hspaces c.utf8Size

/-- Whatever is hidden, offsets stay the same. -/
theorem byteSize_shown (hidden : Region → Char → Bool) (labelled : Labelled) :
    Text.byteSize (labelled.shown hidden) = Text.byteSize labelled.text := by
  induction labelled with
  | nil =>
      rfl
  | cons entry rest ih =>
      rcases entry with ⟨region, c⟩
      have hfirst : Text.byteSize (shown hidden [(region, c)]) = c.utf8Size := by
        cases hhidden : hidden region c with
        | true =>
            simp [shown, hhidden, byteSize_blank]
        | false =>
            simp [shown, hhidden, Text.byteSize]
      calc Text.byteSize (shown hidden ((region, c) :: rest))
          = Text.byteSize (shown hidden [(region, c)] ++ shown hidden rest) :=
            congrArg Text.byteSize (shown_append hidden [(region, c)] rest)
        _ = c.utf8Size + Text.byteSize (text rest) := by
            rw [Text.byteSize_append, hfirst, ih]

theorem byteSize_live (labelled : Labelled) :
    Text.byteSize labelled.live = Text.byteSize labelled.bare := by
  rw [live, bare, byteSize_shown, byteSize_shown]

/-!
## Sound texts
-/

/-- A scan that reaches the text in code gives it these regions and goes on in code, and so
does a scan of the text without its comments. -/
structure Sound (labelled : Labelled) : Prop where
  scan_text : ∀ rest, scan .code (labelled.text ++ rest) = labelled ++ scan .code rest
  scan_bare : ∀ rest, scan .code (labelled.bare ++ rest) =
    labelled.uncommented ++ scan .code rest

namespace Sound

theorem nil : Sound [] where
  scan_text := by
    intro rest
    rfl
  scan_bare := by
    intro rest
    rfl

theorem append {first second : Labelled} (hfirst : first.Sound) (hsecond : second.Sound) :
    Sound (first ++ second) where
  scan_text := by
    intro rest
    rw [text_append, List.append_assoc, hfirst.scan_text, hsecond.scan_text,
      List.append_assoc]
  scan_bare := by
    intro rest
    rw [bare_append, List.append_assoc, hfirst.scan_bare, hsecond.scan_bare,
      uncommented_append, List.append_assoc]

theorem flatMap {α : Type} {pieces : List α} {labelled : α → Labelled}
    (hpieces : ∀ piece ∈ pieces, (labelled piece).Sound) :
    Sound (pieces.flatMap labelled) := by
  induction pieces with
  | nil =>
      exact nil
  | cons piece rest ih =>
      rw [List.flatMap_cons]
      apply append
      · exact hpieces piece List.mem_cons_self
      · exact ih fun other hother => hpieces other (List.mem_cons_of_mem _ hother)

variable {labelled : Labelled} (hsound : labelled.Sound)

include hsound

theorem scan_between {c : Char} {more : List Char} (htext : labelled.text = c :: more)
    (hslash : c ≠ '/') (hstar : c ≠ '*') {before : List Char}
    (hbefore : modeAfter .code before = .code) (after : List Char) :
    scan .code (before ++ labelled.text ++ after) =
      scan .code before ++ (labelled ++ scan .code after) := by
  have hcut := scan_append hslash hstar .code before (more ++ after)
  rw [hbefore, ← List.cons_append, ← htext, hsound.scan_text] at hcut
  rw [List.append_assoc, hcut]

theorem maskLiterals_append (rest : List Char) :
    maskLiterals (labelled.bare ++ rest) = labelled.live ++ maskLiterals rest := by
  rw [maskLiterals_eq, maskLiterals_eq, hsound.scan_bare, shown_append, shown_uncommented]

theorem maskLiterals_bare : maskLiterals labelled.bare = labelled.live := by
  have hview := hsound.maskLiterals_append []
  rw [List.append_nil] at hview
  exact hview.trans (List.append_nil _)

end Sound

/-!
## Code, comments and literals
-/

/-- Whether a character is code wherever it stands in code. -/
def isPlain (c : Char) : Bool :=
  c != '/' && c != '"' && c != '\''

theorem scan_plain {c : Char} (hplain : isPlain c = true) (rest : List Char) :
    scan .code (c :: rest) = (.code, c) :: scan .code rest := by
  simp only [isPlain, Bool.and_eq_true, bne_iff_ne] at hplain
  rcases hplain with ⟨⟨hslash, hdouble⟩, hsingle⟩
  rw [scan_code (fun _ hc _ => hslash hc) (fun _ hc _ => hslash hc), Mode.afterCode, if_neg]
  rintro (hc | hc)
  · exact hdouble hc
  · exact hsingle hc

theorem sound_ofCode {cs : List Char} (hplain : cs.all isPlain = true) : Sound (ofCode cs) := by
  have hscan : ∀ rest, scan .code (cs ++ rest) = ofCode cs ++ scan .code rest := by
    intro rest
    induction cs with
    | nil =>
        rfl
    | cons c tail ih =>
        rw [List.all_cons, Bool.and_eq_true] at hplain
        rw [List.cons_append, scan_plain hplain.1, ih hplain.2]
        rfl
  constructor
  · intro rest
    rw [text_ofCode]
    exact hscan rest
  · intro rest
    rw [bare_ofCode, uncommented_ofCode]
    exact hscan rest

def ofLineComment (cs : List Char) : Labelled :=
  inRegion .lineComment ('/' :: '/' :: cs) ++ ofCode ['\n']

def ofBlockComment (cs : List Char) : Labelled :=
  inRegion .blockComment ('/' :: '*' :: cs ++ ['*', '/'])

theorem all_blank {p : Char → Bool} (hfeed : p '\n' = true) (hspace : p ' ' = true)
    (c : Char) : (blank c).all p = true := by
  unfold blank
  split
  · rename_i hc
    rw [hc, List.all_cons, hfeed]
    rfl
  · apply List.all_eq_true.mpr
    intro d hd
    rw [(List.mem_replicate.mp hd).2]
    exact hspace

theorem scan_bare_of_comment {labelled : Labelled}
    (hlabelled : ∀ entry ∈ labelled, entry.1.isComment = true ∨
      (entry.1 = .code ∧ isPlain entry.2 = true)) (rest : List Char) :
    scan .code (labelled.bare ++ rest) = labelled.uncommented ++ scan .code rest := by
  induction labelled with
  | nil =>
      rfl
  | cons entry tail ih =>
      rcases entry with ⟨region, c⟩
      have htail := ih fun other hother => hlabelled other (List.mem_cons_of_mem _ hother)
      have hfirst : ∀ rest, scan .code (bare [(region, c)] ++ rest) =
          uncommented [(region, c)] ++ scan .code rest := by
        intro rest
        rcases hlabelled (region, c) List.mem_cons_self with hcomment | ⟨hcode, hplain⟩
        · have hblank := (sound_ofCode (all_blank rfl rfl c)).scan_text rest
          rw [text_ofCode] at hblank
          simp only [bare, uncommented, shown, List.flatMap_cons, List.flatMap_nil,
            List.append_nil, hcomment, if_true]
          exact hblank
        · have hcode : region = .code := hcode
          subst hcode
          exact scan_plain hplain rest
      have hbare := bare_append [(region, c)] tail
      have huncommented := uncommented_append [(region, c)] tail
      rw [List.singleton_append] at hbare huncommented
      rw [hbare, huncommented, List.append_assoc, hfirst, htail, List.append_assoc]

theorem sound_ofLineComment {cs : List Char} (hline : '\n' ∉ cs) :
    Sound (ofLineComment cs) := by
  have hscan : ∀ rest, scan .lineComment (cs ++ '\n' :: rest) =
      inRegion .lineComment cs ++ (.code, '\n') :: scan .code rest := by
    intro rest
    induction cs with
    | nil =>
        rfl
    | cons c tail ih =>
        rw [List.mem_cons, not_or] at hline
        rw [List.cons_append, scan, if_neg (Ne.symm hline.1), ih hline.2]
        rfl
  constructor
  · intro rest
    have htext : text (ofLineComment cs) = '/' :: '/' :: (cs ++ ['\n']) := by
      rw [ofLineComment, text_append, text_inRegion, text_ofCode]
      rfl
    have hsplit : ofLineComment cs ++ scan .code rest =
        (.lineComment, '/') :: (.lineComment, '/') ::
          (inRegion .lineComment cs ++ (.code, '\n') :: scan .code rest) := by
      rw [ofLineComment, List.append_assoc]
      rfl
    rw [htext, hsplit, ← hscan, List.cons_append, List.cons_append, List.append_assoc, scan]
    rfl
  · apply scan_bare_of_comment
    intro entry hentry
    rcases List.mem_append.mp hentry with hmem | hmem
    · rcases List.mem_map.mp hmem with ⟨c, _, rfl⟩
      exact Or.inl rfl
    · rw [List.mem_singleton.mp hmem]
      exact Or.inr ⟨rfl, rfl⟩

theorem sound_ofBlockComment {cs : List Char} (hopen : ¬ ['*', '/'] <:+: cs) :
    Sound (ofBlockComment cs) := by
  have hscan : ∀ rest, scan .blockComment (cs ++ '*' :: '/' :: rest) =
      inRegion .blockComment (cs ++ ['*', '/']) ++ scan .code rest := by
    intro rest
    induction cs with
    | nil =>
        rfl
    | cons c tail ih =>
        have htail : ¬ ['*', '/'] <:+: tail :=
          fun hwithin => hopen (hwithin.trans (List.suffix_cons c tail).isInfix)
        have hstep : scan .blockComment (c :: (tail ++ '*' :: '/' :: rest)) =
            (.blockComment, c) :: scan .blockComment (tail ++ '*' :: '/' :: rest) := by
          apply scan_blockComment
          intro more hstar hslash
          cases tail with
          | nil =>
              have hne : ('*' : Char) ≠ '/' := by decide
              exact hne (List.cons.inj hslash).1
          | cons d after =>
              have hd : d = '/' := (List.cons.inj hslash).1
              subst hstar hd
              exact hopen ⟨[], after, rfl⟩
        rw [List.cons_append, hstep, ih htail]
        rfl
  constructor
  · intro rest
    have htext : text (ofBlockComment cs) = '/' :: '*' :: (cs ++ ['*', '/']) :=
      text_inRegion _ _
    have hsplit : ofBlockComment cs ++ scan .code rest =
        (.blockComment, '/') :: (.blockComment, '*') ::
          (inRegion .blockComment (cs ++ ['*', '/']) ++ scan .code rest) := rfl
    rw [htext, hsplit, ← hscan, List.cons_append, List.cons_append, List.append_assoc, scan]
    rfl
  · apply scan_bare_of_comment
    intro entry hentry
    rcases List.mem_map.mp hentry with ⟨c, _, rfl⟩
    exact Or.inl rfl

end Labelled

end LexicalView
end EndpointTrace
