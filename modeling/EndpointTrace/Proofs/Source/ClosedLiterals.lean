import EndpointTrace.Proofs.Source.Rescanning
import EndpointTrace.Proofs.Text.Seams

/-!
# Texts whose literals are closed

A text without comments whose literals are all closed, each on its own line, leaves a scan in
code.  So white space may stand behind it, and what follows is scanned as if it stood alone.
Every other character of its masked form that is not a quote stands for the same character
of the text, and the literals are closed on both sides of it.
-/

namespace EndpointTrace
namespace LexicalView

open Text (Seam)
open Labelled

/-- A text without comments that a scan enters in this mode and leaves in code.  No literal
goes on in another line, and a character literal holds no double quote. -/
inductive ClosedFrom : Mode → List Char → Prop
  | nil : ClosedFrom .code []
  | code {c : Char} {rest : List Char}
      (hopen : c = '/' → rest.head? ≠ some '/' ∧ rest.head? ≠ some '*')
      (hrest : ClosedFrom (.afterCode c) rest) : ClosedFrom .code (c :: rest)
  | literal {quote : Char} {escaped : Bool} {c : Char} {rest : List Char} (hline : c ≠ '\n')
      (hquote : quote = '"' ∨ quote = '\'' ∧ c ≠ '"')
      (hrest : ClosedFrom (.afterLiteral quote escaped c) rest) :
      ClosedFrom (.literal quote escaped) (c :: rest)

abbrev Closed (cs : List Char) : Prop :=
  ClosedFrom .code cs

theorem afterCode_of_isPlain {c : Char} (hplain : isPlain c = true) :
    Mode.afterCode c = .code := by
  simp only [isPlain, Bool.and_eq_true, bne_iff_ne] at hplain
  rcases hplain with ⟨⟨_, hdouble⟩, hsingle⟩
  rw [Mode.afterCode, if_neg]
  exact not_or.mpr ⟨hdouble, hsingle⟩

theorem isPlain_of_isBlank {c : Char} (hblank : Text.isBlank c = true) : isPlain c = true := by
  simp only [isPlain, Bool.and_eq_true, bne_iff_ne]
  exact ⟨⟨Text.ne_of_isBlank hblank rfl, Text.ne_of_isBlank hblank rfl⟩,
    Text.ne_of_isBlank hblank rfl⟩

def maskedFrom (mode : Mode) (cs : List Char) : List Char :=
  shown Region.isContent (scan mode cs)

theorem maskedFrom_code {c : Char} {rest : List Char}
    (hopen : c = '/' → rest.head? ≠ some '/' ∧ rest.head? ≠ some '*') :
    maskedFrom .code (c :: rest) = c :: maskedFrom (.afterCode c) rest := by
  have hscan : scan .code (c :: rest) = (.code, c) :: scan (.afterCode c) rest := by
    apply scan_code
    · rintro tail hc rfl
      exact (hopen hc).1 rfl
    · rintro tail hc rfl
      exact (hopen hc).2 rfl
  rw [maskedFrom, hscan]
  rfl

def maskOf (quote c : Char) : List Char :=
  if c = quote then [c] else blank c

theorem maskedFrom_literal (quote : Char) (escaped : Bool) (c : Char) (rest : List Char) :
    maskedFrom (.literal quote escaped) (c :: rest) =
      maskOf quote c ++ maskedFrom (.afterLiteral quote escaped c) rest := by
  have hmask : shown Region.isContent [(.literal quote, c)] = maskOf quote c := by
    by_cases hc : c = quote
    · simp [shown, maskOf, Region.isContent, hc]
    · simp [shown, maskOf, Region.isContent, hc]
  have hsplit := shown_append Region.isContent [(.literal quote, c)]
    (scan (.afterLiteral quote escaped c) rest)
  rw [maskedFrom, scan_literal, ← List.singleton_append, hsplit, hmask]
  rfl

theorem byteSize_maskOf (quote c : Char) : Text.byteSize (maskOf quote c) = c.utf8Size := by
  unfold maskOf
  split
  · rfl
  · exact byteSize_blank c

theorem text_scan (mode : Mode) (cs : List Char) : text (scan mode cs) = cs := by
  fun_induction scan mode cs with
  | case1 mode =>
      rfl
  | case2 rest ih | case3 rest ih | case7 rest ih =>
      exact congrArg (_ :: _ :: ·) ih
  | case4 c rest _ _ ih | case5 rest ih | case6 c rest _ ih | case8 c rest _ ih
  | case9 quote escaped c rest ih =>
      exact congrArg (_ :: ·) ih

theorem byteSize_maskLiterals (cs : List Char) :
    Text.byteSize (maskLiterals cs) = Text.byteSize cs := by
  rw [maskLiterals_eq, byteSize_shown, text_scan]

/-!
## White space at the start
-/

theorem scan_gap {gap : List Char} (hblank : gap.all Text.isBlank = true) (rest : List Char) :
    scan .code (gap ++ rest) = ofCode gap ++ scan .code rest := by
  have hplain : gap.all isPlain = true := by
    apply List.all_eq_true.mpr
    exact fun c hc => isPlain_of_isBlank (List.all_eq_true.mp hblank c hc)
  have hscan := (sound_ofCode hplain).scan_text rest
  rw [text_ofCode] at hscan
  exact hscan

theorem maskLiterals_of_isBlank {c : Char} (hblank : Text.isBlank c = true) (rest : List Char) :
    maskLiterals (c :: rest) = c :: maskLiterals rest := by
  rw [maskLiterals_eq, scan_plain (isPlain_of_isBlank hblank)]
  rfl

theorem maskLiterals_of_nil {cs : List Char} (hnil : cs = []) : maskLiterals cs = [] := by
  rw [hnil]
  rfl

theorem head?_maskLiterals (cs : List Char) : (maskLiterals cs).head? = cs.head? := by
  rw [maskLiterals_eq]
  unfold scan
  split <;> first | rfl | contradiction

theorem trimStart_maskLiterals (cs : List Char) :
    Text.trimStart (maskLiterals cs) = maskLiterals (Text.trimStart cs) := by
  induction cs with
  | nil =>
      rfl
  | cons c rest ih =>
      cases hblank : Text.isBlank c with
      | true =>
          have hdrop : ∀ cs, Text.trimStart (c :: cs) = Text.trimStart cs :=
            fun cs => List.dropWhile_cons_of_pos hblank
          rw [maskLiterals_of_isBlank hblank, hdrop, hdrop, ih]
      | false =>
          have hhead : ∀ d ∈ (maskLiterals (c :: rest)).head?, Text.isBlank d = false := by
            rw [head?_maskLiterals]
            exact Text.head_of_cons hblank rest
          rw [Text.trimStart_of_head hhead, Text.trimStart_of_head (Text.head_of_cons hblank rest)]

theorem Closed.trimStart {cs : List Char} (hclosed : Closed cs) :
    Closed (Text.trimStart cs) := by
  induction cs with
  | nil =>
      exact hclosed
  | cons c rest ih =>
      cases hblank : Text.isBlank c with
      | true =>
          have hdrop : Text.trimStart (c :: rest) = Text.trimStart rest :=
            List.dropWhile_cons_of_pos hblank
          rw [hdrop]
          cases hclosed with
          | code _ hrest =>
              rw [afterCode_of_isPlain (isPlain_of_isBlank hblank)] at hrest
              exact ih hrest
      | false =>
          rw [Text.trimStart_of_head (Text.head_of_cons hblank rest)]
          exact hclosed

/-!
## White space behind
-/

theorem ClosedFrom.modeAfter_eq {mode : Mode} {cs : List Char} (hclosed : ClosedFrom mode cs) :
    modeAfter mode cs = .code := by
  induction hclosed with
  | nil =>
      rfl
  | @code c rest hopen _ ih =>
      rw [modeAfter]
      · exact ih
      · rintro tail hc rfl
        exact (hopen hc).1 rfl
      · rintro tail hc rfl
        exact (hopen hc).2 rfl
  | literal _ _ _ ih =>
      rw [modeAfter]
      exact ih

/-- A scan can be cut in code where white space stands. -/
theorem scan_append_gap {front back gap : List Char} (hafter : modeAfter .code front = .code)
    (hseam : Seam back gap) :
    scan .code (front ++ (gap ++ back)) =
      scan .code front ++ (ofCode gap ++ scan .code back) := by
  rw [← scan_gap hseam.blank]
  cases hgap : gap with
  | nil =>
      rw [hseam.apart hgap, List.nil_append, List.append_nil]
      exact (List.append_nil _).symm
  | cons c rest =>
      have hc : Text.isBlank c = true := by
        apply hseam.isBlank_of_mem
        rw [hgap]
        exact List.mem_cons_self
      rw [List.cons_append,
        scan_append (Text.ne_of_isBlank hc rfl) (Text.ne_of_isBlank hc rfl), hafter]

/-- What stands behind the white space is masked as if it stood alone. -/
theorem Closed.maskLiterals_seam {front back gap : List Char} (hclosed : Closed front)
    (hseam : Seam back gap) :
    maskLiterals (front ++ (gap ++ back)) = maskLiterals front ++ (gap ++ maskLiterals back) := by
  have hgap : shown Region.isContent (ofCode gap) = gap := shown_inRegion (fun _ => rfl) gap
  rw [maskLiterals_eq, scan_append_gap hclosed.modeAfter_eq hseam, shown_append, shown_append,
    hgap]
  rfl

/-!
## Cutting a masked text
-/

theorem not_mem_maskOf {quote c w : Char} (hline : c ≠ '\n') (hblank : Text.isBlank w = false)
    (hquote : w ≠ quote) : w ∉ maskOf quote c := by
  unfold maskOf
  split
  · rename_i hc
    rw [hc]
    exact fun hmem => hquote (List.mem_singleton.mp hmem)
  · intro hmem
    rw [blank, if_neg hline] at hmem
    rw [(List.mem_replicate.mp hmem).2] at hblank
    cases hblank

theorem ClosedFrom.exists_cut {mode : Mode} {cs : List Char} (hclosed : ClosedFrom mode cs)
    {w : Char} (hblank : Text.isBlank w = false) (hplain : w ≠ '"' ∧ w ≠ '\'')
    {head tail : List Char} (hmasked : maskedFrom mode cs = head ++ w :: tail) :
    ∃ first rest, cs = first ++ w :: rest ∧ Text.byteSize first = Text.byteSize head ∧
      Closed rest ∧ maskLiterals rest = tail := by
  induction hclosed generalizing head with
  | nil =>
      cases (List.append_eq_nil_iff.mp hmasked.symm).2
  | @code c rest hopen hrest ih =>
      rw [maskedFrom_code hopen] at hmasked
      cases head with
      | nil =>
          rcases List.cons.inj hmasked with ⟨rfl, htail⟩
          have hcode : Mode.afterCode c = .code := if_neg (not_or.mpr hplain)
          rw [hcode] at hrest htail
          exact ⟨[], rest, rfl, rfl, hrest, htail⟩
      | cons d more =>
          rcases List.cons.inj hmasked with ⟨rfl, hmore⟩
          rcases ih hmore with ⟨first, left, rfl, hsize, hleft, htail⟩
          exact ⟨c :: first, left, rfl, congrArg (c.utf8Size + ·) hsize, hleft, htail⟩
  | @literal quote escaped c rest hline hquote _ ih =>
      have hw : w ≠ quote := by
        rintro rfl
        rcases hquote with hdouble | ⟨hsingle, _⟩
        · exact hplain.1 hdouble
        · exact hplain.2 hsingle
      rw [maskedFrom_literal] at hmasked
      -- The character stands behind the mask, as it is no part of it.
      have hbehind : ∃ more, head = maskOf quote c ++ more ∧
          maskedFrom (.afterLiteral quote escaped c) rest = more ++ w :: tail := by
        rcases List.append_eq_append_iff.mp hmasked with
          ⟨more, hhead, hmore⟩ | ⟨more, hmask, hmore⟩
        · exact ⟨more, hhead, hmore⟩
        · cases more with
          | nil =>
              refine ⟨[], ?_, hmore.symm⟩
              rw [hmask, List.append_nil, List.append_nil]
          | cons d others =>
              have hd : w = d := (List.cons.inj hmore).1
              have hmem : w ∈ maskOf quote c := by
                rw [hmask, hd]
                exact List.mem_append_right head List.mem_cons_self
              exact absurd hmem (not_mem_maskOf hline hblank hw)
      rcases hbehind with ⟨more, rfl, hmore⟩
      rcases ih hmore with ⟨first, left, rfl, hsize, hleft, htail⟩
      refine ⟨c :: first, left, rfl, ?_, hleft, htail⟩
      rw [Text.byteSize, Text.byteSize_append, byteSize_maskOf, hsize]

/-!
## Blanked texts
-/

namespace Mode

def IsQuoted : Mode → Prop
  | literal quote _ => quote = '"' ∨ quote = '\''
  | _ => True

theorem isQuoted_afterCode (c : Char) : (afterCode c).IsQuoted := by
  unfold afterCode
  split
  · assumption
  · trivial

theorem eq_of_afterLiteral {quote other c : Char} {escaped still : Bool}
    (hnext : afterLiteral quote escaped c = literal other still) : other = quote := by
  unfold afterLiteral at hnext
  split at hnext
  · exact (literal.inj hnext).1.symm
  · split at hnext
    · exact (literal.inj hnext).1.symm
    · split at hnext
      · cases hnext
      · exact (literal.inj hnext).1.symm

theorem isQuoted_afterLiteral {quote : Char} {escaped : Bool} (c : Char)
    (hquote : (literal quote escaped).IsQuoted) : (afterLiteral quote escaped c).IsQuoted := by
  cases hnext : afterLiteral quote escaped c with
  | code | lineComment | blockComment =>
      trivial
  | literal other still =>
      rw [eq_of_afterLiteral hnext]
      exact hquote

end Mode

def Enclosed : Region × Char → Prop
  | (.literal quote, c) => c ≠ '\n' ∧ (quote = '\'' → c ≠ '"')
  | _ => True

/-- The literals of a text are closed, each on its own line, and no character literal holds a
double quote. -/
structure LiteralsClosed (cs : List Char) : Prop where
  ended : ∀ quote escaped, modeAfter .code cs ≠ .literal quote escaped
  oneLine : ∀ quote, (.literal quote, '\n') ∉ scan .code cs
  noDouble : (.literal '\'', '"') ∉ scan .code cs

theorem LiteralsClosed.enclosed {cs : List Char} (hclosed : LiteralsClosed cs) :
    ∀ entry ∈ scan .code cs, Enclosed entry := by
  rintro ⟨region, c⟩ hentry
  cases region with
  | code | lineComment | blockComment =>
      trivial
  | literal quote =>
      constructor
      · rintro rfl
        exact hclosed.oneLine quote hentry
      · rintro rfl rfl
        exact hclosed.noDouble hentry

theorem Closed.plain_append {piece rest : List Char} (hplain : piece.all isPlain = true)
    (hclosed : Closed rest) : Closed (piece ++ rest) := by
  induction piece with
  | nil =>
      exact hclosed
  | cons c tail ih =>
      rw [List.all_cons, Bool.and_eq_true] at hplain
      apply ClosedFrom.code
      · rintro rfl
        cases hplain.1
      · rw [afterCode_of_isPlain hplain.1]
        exact ih hplain.2

theorem Closed.blank_append {rest : List Char} (c : Char) (hclosed : Closed rest) :
    Closed (blank c ++ rest) :=
  Closed.plain_append (all_blank rfl rfl c) hclosed

theorem closedFrom_bare_scan {mode : Mode} {cs : List Char} (hafter : modeAfter mode cs = .code)
    (hquoted : mode.IsQuoted) (henclosed : ∀ entry ∈ scan mode cs, Enclosed entry) :
    ClosedFrom mode.uncommented (bare (scan mode cs)) := by
  fun_induction scan mode cs with
  | case1 mode =>
      cases mode with
      | code =>
          exact .nil
      | lineComment | blockComment | literal quote escaped =>
          cases hafter
  | case2 rest ih =>
      rw [modeAfter] at hafter
      have hrest := ih hafter trivial fun entry hentry =>
        henclosed entry (List.mem_cons_of_mem _ (List.mem_cons_of_mem _ hentry))
      exact Closed.blank_append '/' (Closed.blank_append '/' hrest)
  | case3 rest ih =>
      rw [modeAfter] at hafter
      have hrest := ih hafter trivial fun entry hentry =>
        henclosed entry (List.mem_cons_of_mem _ (List.mem_cons_of_mem _ hentry))
      exact Closed.blank_append '/' (Closed.blank_append '*' hrest)
  | case4 c rest hline hblock ih =>
      have hrest := ih (by rwa [modeAfter] at hafter <;> assumption) (Mode.isQuoted_afterCode c)
        fun entry hentry => henclosed entry (List.mem_cons_of_mem _ hentry)
      rw [Mode.uncommented_afterCode] at hrest
      apply ClosedFrom.code _ hrest
      rintro rfl
      rw [Mode.afterCode_slash]
      have hne : rest.head? ≠ some '/' := by
        intro hhead
        rcases List.head?_eq_some_iff.mp hhead with ⟨tail, htail⟩
        exact hline tail rfl htail
      rw [head?_bare_scan hne]
      refine ⟨hne, ?_⟩
      intro hhead
      rcases List.head?_eq_some_iff.mp hhead with ⟨tail, htail⟩
      exact hblock tail rfl htail
  | case5 rest ih =>
      rw [modeAfter, if_pos rfl] at hafter
      have hrest := ih hafter trivial fun entry hentry =>
        henclosed entry (List.mem_cons_of_mem _ hentry)
      exact Closed.blank_append '\n' hrest
  | case6 c rest hfeed ih =>
      rw [modeAfter, if_neg hfeed] at hafter
      have hrest := ih hafter trivial fun entry hentry =>
        henclosed entry (List.mem_cons_of_mem _ hentry)
      exact Closed.blank_append c hrest
  | case7 rest ih =>
      rw [modeAfter] at hafter
      have hrest := ih hafter trivial fun entry hentry =>
        henclosed entry (List.mem_cons_of_mem _ (List.mem_cons_of_mem _ hentry))
      exact Closed.blank_append '*' (Closed.blank_append '/' hrest)
  | case8 c rest hend ih =>
      have hrest := ih (by rwa [modeAfter] at hafter; assumption) trivial
        fun entry hentry => henclosed entry (List.mem_cons_of_mem _ hentry)
      exact Closed.blank_append c hrest
  | case9 quote escaped c rest ih =>
      rw [modeAfter] at hafter
      have hrest := ih hafter (Mode.isQuoted_afterLiteral c hquoted)
        fun entry hentry => henclosed entry (List.mem_cons_of_mem _ hentry)
      rw [Mode.uncommented_afterLiteral] at hrest
      have hc : Enclosed (.literal quote, c) := henclosed _ List.mem_cons_self
      refine ClosedFrom.literal hc.1 ?_ hrest
      rcases hquoted with hdouble | hsingle
      · exact Or.inl hdouble
      · exact Or.inr ⟨hsingle, hc.2 hsingle⟩

end LexicalView
end EndpointTrace
