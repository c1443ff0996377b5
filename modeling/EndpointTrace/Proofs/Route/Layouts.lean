import EndpointTrace.Proofs.Route.Written
import EndpointTrace.Proofs.Source.Segments

/-!
# Views of a layout

Gaps, tokens and layouts are sound: wherever they are written in code, the scan gives them
their own regions.  Without comments, a gap is white space and a token stands as it is
written; where the contents of literals are hidden too, a literal is left with quotes and
white space.
-/

namespace EndpointTrace
namespace Written

open LexicalView (Labelled blank)
open LexicalView.Labelled (isPlain)

theorem isPlain_of_class {p : Char → Bool} (hslash : p '/' = false) (hdouble : p '"' = false)
    (hsingle : p '\'' = false) {c : Char} (hc : p c = true) : isPlain c = true := by
  have hne : ∀ d, p d = false → (c != d) = true := by
    intro d hd
    apply bne_iff_ne.mpr
    rintro rfl
    rw [hc] at hd
    cases hd
  rw [isPlain, hne '/' hslash, hne '"' hdouble, hne '\'' hsingle]
  rfl

theorem isPlain_of_isBlank {c : Char} (hblank : Text.isBlank c = true) : isPlain c = true :=
  isPlain_of_class rfl rfl rfl hblank

theorem isPlain_of_isNamePart {c : Char} (hpart : AnnotationName.isNamePart c = true) :
    isPlain c = true :=
  isPlain_of_class rfl rfl rfl hpart

/-!
## Gaps
-/

namespace Filler

theorem sound (filler : Filler) : filler.labelled.Sound := by
  cases filler with
  | blank c white =>
      apply Labelled.sound_ofCode
      rw [List.all_cons, isPlain_of_isBlank white]
      rfl
  | lineComment text oneLine =>
      exact Labelled.sound_ofLineComment oneLine
  | blockComment text unended =>
      exact Labelled.sound_ofBlockComment unended

theorem isBlank_bare (filler : Filler) : filler.labelled.bare.all Text.isBlank = true := by
  have hcomment : ∀ (region : LexicalView.Region) (cs : List Char), region.isComment = true →
      (Labelled.inRegion region cs).bare.all Text.isBlank = true := by
    intro region cs hregion
    rw [Labelled.bare, Labelled.shown, Labelled.inRegion, List.flatMap_map]
    apply List.all_eq_true.mpr
    intro d hd
    rcases List.mem_flatMap.mp hd with ⟨c, _, hd⟩
    simp only [hregion, if_true] at hd
    exact List.all_eq_true.mp (Labelled.all_blank rfl rfl c) d hd
  cases filler with
  | blank c white =>
      rw [labelled, Labelled.bare_ofCode, List.all_cons, white]
      rfl
  | lineComment text oneLine =>
      rw [labelled, Labelled.ofLineComment, Labelled.bare_append, List.all_append,
        hcomment .lineComment _ rfl, Labelled.bare_ofCode]
      rfl
  | blockComment text unended =>
      exact hcomment .blockComment _ rfl

theorem live_eq_bare (filler : Filler) : filler.labelled.live = filler.labelled.bare := by
  cases filler with
  | blank c white =>
      rw [labelled, Labelled.live_ofCode, Labelled.bare_ofCode]
  | lineComment text oneLine =>
      have hcomment : (Labelled.inRegion .lineComment ('/' :: '/' :: text)).live =
          (Labelled.inRegion .lineComment ('/' :: '/' :: text)).bare := by
        rw [Labelled.live, Labelled.bare, Labelled.shown, Labelled.shown, Labelled.inRegion,
          List.flatMap_map, List.flatMap_map]
        rfl
      rw [labelled, Labelled.ofLineComment, Labelled.live_append, Labelled.bare_append,
        hcomment, Labelled.live_ofCode, Labelled.bare_ofCode]
  | blockComment text unended =>
      rw [labelled, Labelled.ofBlockComment, Labelled.live, Labelled.bare, Labelled.shown,
        Labelled.shown, Labelled.inRegion, List.flatMap_map, List.flatMap_map]
      rfl

end Filler

namespace Gap

def spaces (gap : Gap) : List Char :=
  Labelled.bare gap.labelled

theorem sound (gap : Gap) : Labelled.Sound gap.labelled :=
  .flatMap fun filler _ => filler.sound

theorem bare_labelled (gap : Gap) : Labelled.bare gap.labelled = gap.spaces :=
  rfl

theorem live_labelled (gap : Gap) : Labelled.live gap.labelled = gap.spaces := by
  induction gap with
  | nil =>
      rfl
  | cons filler rest ih =>
      have hlabelled : Gap.labelled (filler :: rest) = filler.labelled ++ Gap.labelled rest :=
        rfl
      rw [spaces, hlabelled, Labelled.live_append, Labelled.bare_append, filler.live_eq_bare,
        ih]
      rfl

theorem isBlank_spaces (gap : Gap) : gap.spaces.all Text.isBlank = true := by
  induction gap with
  | nil =>
      rfl
  | cons filler rest ih =>
      have hlabelled : Gap.labelled (filler :: rest) = filler.labelled ++ Gap.labelled rest :=
        rfl
      rw [spaces, hlabelled, Labelled.bare_append, List.all_append, filler.isBlank_bare]
      exact ih

theorem isBlank_of_mem {gap : Gap} {c : Char} (hc : c ∈ gap.spaces) :
    Text.isBlank c = true :=
  List.all_eq_true.mp gap.isBlank_spaces c hc

theorem trimStart_spaces (gap : Gap) (rest : List Char) :
    Text.trimStart (gap.spaces ++ rest) = Text.trimStart rest :=
  Text.trimStart_append_blank gap.isBlank_spaces

end Gap

/-!
## Literals
-/

namespace Literal

def text (literal : Literal) : List Char :=
  '"' :: literal.content ++ ['"']

theorem text_append (literal : Literal) (rest : List Char) :
    literal.text ++ rest = '"' :: (literal.content ++ '"' :: rest) := by
  rw [text, List.append_assoc]
  rfl

/-- A literal whose content is hidden.  Escaped quotes stay visible. -/
def masked (literal : Literal) : List Char :=
  '"' :: (literal.content.flatMap fun c => if c = '"' then ['"'] else blank c) ++ ['"']

theorem bare_labelled (literal : Literal) : Labelled.bare literal.labelled = literal.text :=
  Labelled.bare_ofLiteral '"' literal.content

theorem live_labelled (literal : Literal) :
    Labelled.live literal.labelled = literal.masked := by
  have hquote : (fun c => if c = '"' then ['"'] else blank c) =
      fun c => if c = '"' then [c] else blank c := by
    funext c
    by_cases hc : c = '"'
    · rw [hc]
    · rw [if_neg hc, if_neg hc]
  rw [masked, hquote]
  exact Labelled.live_ofLiteral '"' literal.content

theorem isContent (literal : Literal) : LexicalView.Content '"' literal.content := by
  induction literal with
  | nil =>
      exact .nil
  | cons part parts ih =>
      cases part with
      | plain c allowed =>
          exact .plain allowed ih
      | escape c allowed =>
          exact .escape allowed ih

theorem sound (literal : Literal) : Labelled.Sound literal.labelled :=
  Labelled.sound_ofLiteral (Or.inl rfl) literal.isContent

theorem of_mem_masked {literal : Literal} {c : Char} (hc : c ∈ literal.masked) :
    c = '"' ∨ Text.isBlank c = true := by
  rcases List.mem_append.mp hc with hc | hc
  · rcases List.mem_cons.mp hc with hc | hc
    · exact Or.inl hc
    · rcases List.mem_flatMap.mp hc with ⟨d, _, hd⟩
      by_cases hquote : d = '"'
      · rw [if_pos hquote] at hd
        exact Or.inl (List.mem_singleton.mp hd)
      · rw [if_neg hquote] at hd
        exact Or.inr (List.all_eq_true.mp (Labelled.all_blank rfl rfl d) c hd)
  · exact Or.inl (List.mem_singleton.mp hc)

theorem isWordChar_of_mem_masked {literal : Literal} {c : Char} (hc : c ∈ literal.masked) :
    Text.isWordChar c = false := by
  rcases of_mem_masked hc with rfl | hblank
  · rfl
  · exact Text.isWordChar_of_not_namePart (Text.isNamePart_of_isBlank hblank)

end Literal

/-!
## Tokens and layouts
-/

theorem Identifier.exists_cons (identifier : Identifier) :
    ∃ c rest, identifier.chars = c :: rest ∧ AnnotationName.isNamePart c = true := by
  cases hchars : identifier.chars with
  | nil =>
      exact absurd hchars identifier.nonempty
  | cons c rest =>
      refine ⟨c, rest, rfl, ?_⟩
      apply List.all_eq_true.mp identifier.parts
      rw [hchars]
      exact List.mem_cons_self

theorem Identifier.isNamePart_of_mem {identifier : Identifier} {c : Char}
    (hc : c ∈ identifier.chars) : AnnotationName.isNamePart c = true :=
  List.all_eq_true.mp identifier.parts c hc

theorem Identifier.trimStart_chars (identifier : Identifier) (rest : List Char) :
    Text.trimStart (identifier.chars ++ rest) = identifier.chars ++ rest := by
  rcases identifier.exists_cons with ⟨c, tail, hchars, hpart⟩
  have hblank : ¬ Text.isBlank c = true := by
    rw [Text.isBlank_of_isNamePart hpart]
    exact Bool.false_ne_true
  rw [hchars]
  exact List.dropWhile_cons_of_neg hblank

namespace Token

def text : Token → List Char
  | name identifier => identifier.chars
  | literal written => written.text
  | mark sign => [sign.char]

def masked : Token → List Char
  | name identifier => identifier.chars
  | literal written => written.masked
  | mark sign => [sign.char]

theorem bare_labelled (token : Token) : token.labelled.bare = token.text := by
  cases token with
  | name identifier =>
      exact Labelled.bare_ofCode identifier.chars
  | literal written =>
      exact written.bare_labelled
  | mark sign =>
      exact Labelled.bare_ofCode [sign.char]

theorem live_labelled (token : Token) : token.labelled.live = token.masked := by
  cases token with
  | name identifier =>
      exact Labelled.live_ofCode identifier.chars
  | literal written =>
      exact written.live_labelled
  | mark sign =>
      exact Labelled.live_ofCode [sign.char]

theorem trimStart_text (token : Token) (rest : List Char) :
    Text.trimStart (token.text ++ rest) = token.text ++ rest := by
  cases token with
  | name identifier =>
      exact identifier.trimStart_chars rest
  | literal written =>
      rfl
  | mark sign =>
      cases sign <;> rfl

theorem trimStart_masked (token : Token) (rest : List Char) :
    Text.trimStart (token.masked ++ rest) = token.masked ++ rest := by
  cases token with
  | name identifier =>
      exact identifier.trimStart_chars rest
  | literal written =>
      rfl
  | mark sign =>
      cases sign <;> rfl

theorem sound (token : Token) : token.labelled.Sound := by
  cases token with
  | name identifier =>
      apply Labelled.sound_ofCode
      apply List.all_eq_true.mpr
      intro c hc
      exact isPlain_of_isNamePart (Identifier.isNamePart_of_mem hc)
  | literal written =>
      exact written.sound
  | mark sign =>
      cases sign <;> exact Labelled.sound_ofCode rfl

end Token

namespace Layout

def text (layout : Layout) : List Char :=
  layout.flatMap fun placed => placed.gap.spaces ++ placed.token.text

def masked (layout : Layout) : List Char :=
  layout.flatMap fun placed => placed.gap.spaces ++ placed.token.masked

theorem sound (layout : Layout) : Labelled.Sound layout.labelled :=
  .flatMap fun placed _ => placed.gap.sound.append placed.token.sound

theorem text_append (first second : Layout) :
    text (first ++ second) = first.text ++ second.text :=
  List.flatMap_append

theorem masked_append (first second : Layout) :
    masked (first ++ second) = first.masked ++ second.masked :=
  List.flatMap_append

theorem text_cons (placed : Placed) (rest : Layout) :
    text (placed :: rest) = placed.gap.spaces ++ (placed.token.text ++ rest.text) :=
  List.append_assoc ..

theorem masked_cons (placed : Placed) (rest : Layout) :
    masked (placed :: rest) = placed.gap.spaces ++ (placed.token.masked ++ rest.masked) :=
  List.append_assoc ..

theorem bare_labelled (layout : Layout) : Labelled.bare layout.labelled = layout.text := by
  induction layout with
  | nil =>
      rfl
  | cons placed rest ih =>
      have hlabelled : Layout.labelled (placed :: rest) =
          placed.gap.labelled ++ placed.token.labelled ++ Layout.labelled rest := rfl
      rw [hlabelled, Labelled.bare_append, Labelled.bare_append, ih,
        placed.token.bare_labelled, Gap.bare_labelled]
      rfl

theorem live_labelled (layout : Layout) : Labelled.live layout.labelled = layout.masked := by
  induction layout with
  | nil =>
      rfl
  | cons placed rest ih =>
      have hlabelled : Layout.labelled (placed :: rest) =
          placed.gap.labelled ++ placed.token.labelled ++ Layout.labelled rest := rfl
      rw [hlabelled, Labelled.live_append, Labelled.live_append, ih,
        placed.token.live_labelled, Gap.live_labelled]
      rfl

theorem masked_eq_text {layout : Layout}
    (hliterals : ∀ placed ∈ layout, ∀ written, placed.token ≠ .literal written) :
    layout.masked = layout.text := by
  have hsame : ∀ placed ∈ layout, placed.token.masked = placed.token.text := by
    intro placed hplaced
    cases htoken : placed.token with
    | name identifier =>
        rfl
    | literal written =>
        exact absurd htoken (hliterals placed hplaced written)
    | mark sign =>
        rfl
  induction layout with
  | nil =>
      rfl
  | cons placed rest ih =>
      rw [masked_cons, text_cons, hsame placed List.mem_cons_self,
        ih (fun other hother => hliterals other (List.mem_cons_of_mem _ hother))
          fun other hother => hsame other (List.mem_cons_of_mem _ hother)]

/-- Hidden or not, layouts have the same size. -/
theorem byteSize_masked (layout : Layout) :
    Text.byteSize layout.masked = Text.byteSize layout.text := by
  rw [← live_labelled, ← bare_labelled, Labelled.byteSize_live]

theorem maskLiterals_text (layout : Layout) (gap : Gap) :
    LexicalView.maskLiterals (layout.text ++ gap.spaces) = layout.masked ++ gap.spaces := by
  have hsound := layout.sound.append gap.sound
  have hview := hsound.maskLiterals_bare
  rw [Labelled.bare_append, Labelled.live_append, layout.bare_labelled, layout.live_labelled,
    gap.bare_labelled, gap.live_labelled] at hview
  exact hview

end Layout

/-!
## Token lists
-/

theorem mem_commaSeparated {items : List (List Token)} {token : Token}
    (htoken : token ∈ commaSeparated items) :
    token = .mark .comma ∨ ∃ item ∈ items, token ∈ item := by
  cases items with
  | nil =>
      cases htoken
  | cons first rest =>
      rcases List.mem_append.mp htoken with htoken | htoken
      · exact Or.inr ⟨first, List.mem_cons_self, htoken⟩
      · rcases List.mem_flatMap.mp htoken with ⟨item, hitem, htoken⟩
        rcases List.mem_cons.mp htoken with htoken | htoken
        · exact Or.inl htoken
        · exact Or.inr ⟨item, List.mem_cons_of_mem first hitem, htoken⟩

theorem commaSeparated_append (before after : List (List Token)) (item : List Token) :
    commaSeparated (before ++ item :: after) =
      before.flatMap (· ++ [.mark .comma]) ++
        (item ++ after.flatMap (Token.mark .comma :: ·)) := by
  induction before with
  | nil =>
      rfl
  | cons first rest ih =>
      have hcons : commaSeparated (first :: rest ++ item :: after) =
          first ++ .mark .comma :: commaSeparated (rest ++ item :: after) := by
        cases rest <;> rfl
      rw [hcons, ih, List.flatMap_cons, List.append_assoc, List.append_assoc]
      rfl

theorem flatMap_commaSeparated {α : Type} {read : Token → List α}
    (hcomma : read (.mark .comma) = []) (items : List (List Token)) :
    (commaSeparated items).flatMap read = items.flatMap (List.flatMap read) := by
  cases items with
  | nil =>
      rfl
  | cons first rest =>
      have hrest : ∀ item : List Token,
          (Token.mark .comma :: item).flatMap read = item.flatMap read := by
        intro item
        rw [List.flatMap_cons, hcomma, List.nil_append]
      rw [commaSeparated, List.flatMap_append, List.flatMap_assoc]
      simp only [hrest]
      rfl

theorem Expression.mark_of_mem {expression : Expression} {sign : Mark}
    (hsign : Token.mark sign ∈ expression.tokens) : sign = .dot ∨ sign = .plus := by
  have hoperand : ∀ operand : Operand, Token.mark sign ∈ operand.tokens → sign = .dot := by
    intro operand hmem
    cases operand with
    | literal written =>
        cases List.mem_singleton.mp hmem
    | constant first rest =>
        rcases List.mem_cons.mp hmem with hmem | hmem
        · cases hmem
        · rcases List.mem_flatMap.mp hmem with ⟨identifier, _, hmem⟩
          rcases List.mem_cons.mp hmem with hmem | hmem
          · exact Token.mark.inj hmem
          · cases List.mem_singleton.mp hmem
  rcases List.mem_append.mp hsign with hsign | hsign
  · exact Or.inl (hoperand _ hsign)
  · rcases List.mem_flatMap.mp hsign with ⟨operand, _, hsign⟩
    rcases List.mem_cons.mp hsign with hsign | hsign
    · exact Or.inr (Token.mark.inj hsign)
    · exact Or.inl (hoperand operand hsign)

end Written
end EndpointTrace
