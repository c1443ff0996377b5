import EndpointTrace.Proofs.Source.ClosedLiterals
import EndpointTrace.Proofs.Text.Encoding
import Mathlib.Data.List.Forall2

/-!
# Segments of a text

A view puts a space in the place of every byte that it hides and never hides a line feed.  So
what it shows stands where it stands in the text, even where a hidden character had several
bytes.

A text that is written as a sequence of code, comments and literals is scanned as it is
written.  No segment reaches into the next one: code does not end in a slash, a comment ends
where it ends for the first time, and a literal has its own quote inside only behind a
backslash.  So a view of the text is made of the views of its segments.
-/

namespace EndpointTrace
namespace LexicalView

open Text.Utf8 (encode)

/-!
## Places in a view
-/

namespace Labelled

/-- What a view may have in the place of a byte: the byte, or a space if it is no line
feed. -/
def ShownAs (old new : UInt8) : Prop :=
  new = old ∨ old ≠ 10 ∧ new = 32

theorem forall₂_replicate {bytes : List UInt8} (hfeed : 10 ∉ bytes) :
    List.Forall₂ ShownAs bytes (List.replicate bytes.length 32) := by
  induction bytes with
  | nil =>
      exact .nil
  | cons byte rest ih =>
      rw [List.mem_cons, not_or] at hfeed
      exact .cons (Or.inr ⟨Ne.symm hfeed.1, rfl⟩) (ih hfeed.2)

theorem encode_spaces (n : Nat) : encode (List.replicate n ' ') = List.replicate n 32 := by
  induction n with
  | zero =>
      rfl
  | succ n ih =>
      rw [List.replicate_succ, Text.Utf8.encode_cons, ih]
      rfl

theorem forall₂_refl (bytes : List UInt8) : List.Forall₂ ShownAs bytes bytes :=
  List.forall₂_same.mpr fun _ _ => Or.inl rfl

theorem forall₂_blank (c : Char) : List.Forall₂ ShownAs (encode [c]) (encode (blank c)) := by
  by_cases hfeed : c = '\n'
  · rw [blank, if_pos hfeed]
    exact forall₂_refl _
  · have hbytes : encode [c] = String.utf8EncodeChar c := List.append_nil _
    rw [blank, if_neg hfeed, encode_spaces, hbytes, ← String.length_utf8EncodeChar]
    exact forall₂_replicate (mt Text.Utf8.lineFeed_mem_character.mp hfeed)

theorem shown_singleton (hidden : Region → Char → Bool) (region : Region) (c : Char) :
    shown hidden [(region, c)] = [c] ∨ ∀ d ∈ shown hidden [(region, c)], d = ' ' := by
  have hblank : blank c = [c] ∨ ∀ d ∈ blank c, d = ' ' := by
    unfold blank
    split
    · exact Or.inl rfl
    · exact Or.inr fun d hd => (List.mem_replicate.mp hd).2
  cases hhidden : hidden region c with
  | true =>
      simpa [shown, hhidden] using hblank
  | false =>
      simp [shown, hhidden]

theorem forall₂_shown (hidden : Region → Char → Bool) (labelled : Labelled) :
    List.Forall₂ ShownAs (encode labelled.text) (encode (labelled.shown hidden)) := by
  induction labelled with
  | nil =>
      exact .nil
  | cons entry rest ih =>
      rcases entry with ⟨region, c⟩
      have hfirst : List.Forall₂ ShownAs (encode [c]) (encode (shown hidden [(region, c)])) := by
        cases hhidden : hidden region c with
        | true =>
            simp only [shown, List.flatMap_cons, List.flatMap_nil, List.append_nil, hhidden,
              if_true]
            exact forall₂_blank c
        | false =>
            simp only [shown, List.flatMap_cons, List.flatMap_nil, List.append_nil, hhidden]
            exact forall₂_refl _
      have htext : encode (text ((region, c) :: rest)) = encode [c] ++ encode (text rest) :=
        Text.Utf8.encode_append [c] (text rest)
      have hview : shown hidden ((region, c) :: rest) =
          shown hidden [(region, c)] ++ shown hidden rest := shown_append hidden [_] rest
      rw [htext, hview, Text.Utf8.encode_append]
      exact List.rel_append hfirst ih

/-- What a view shows stands at the same offset in the text. -/
theorem exists_of_shown {hidden : Region → Char → Bool} {labelled : Labelled}
    {before after : List Char} {w : Char} (hspace : w ≠ ' ')
    (hshown : labelled.shown hidden = before ++ w :: after) :
    ∃ first rest, labelled.text = first ++ w :: rest ∧
      Text.byteSize first = Text.byteSize before := by
  induction labelled generalizing before with
  | nil =>
      cases (List.append_eq_nil_iff.mp hshown.symm).2
  | cons entry tail ih =>
      rcases entry with ⟨region, c⟩
      have hlater : ∀ {more}, before = shown hidden [(region, c)] ++ more →
          shown hidden tail = more ++ w :: after →
            ∃ first rest, text ((region, c) :: tail) = first ++ w :: rest ∧
              Text.byteSize first = Text.byteSize before := by
        rintro more rfl htail
        rcases ih htail with ⟨first, rest, htext, hsize⟩
        refine ⟨c :: first, rest, congrArg (c :: ·) htext, ?_⟩
        rw [Text.byteSize_append, byteSize_shown, Text.byteSize, hsize]
        rfl
      have hsplit : shown hidden [(region, c)] ++ shown hidden tail = before ++ w :: after :=
        (shown_append hidden [(region, c)] tail).symm.trans hshown
      rcases List.append_eq_append_iff.mp hsplit with
        ⟨more, hbefore, htail⟩ | ⟨more, hfirst, hafter⟩
      · exact hlater hbefore htail
      · cases more with
        | nil =>
            rw [List.append_nil] at hfirst
            exact @hlater [] (by rw [hfirst, List.append_nil]) hafter.symm
        | cons d others =>
            -- The character is what is shown of the first one, so it is the first one.
            rcases List.cons.inj hafter with ⟨rfl, _⟩
            rcases shown_singleton hidden region c with hsame | hspaces
            · rw [hsame, eq_comm, List.append_eq_singleton_iff] at hfirst
              rcases hfirst with ⟨rfl, hc⟩ | ⟨_, hnone⟩
              · rcases List.cons.inj hc with ⟨rfl, _⟩
                exact ⟨[], text tail, rfl, rfl⟩
              · cases hnone
            · exact absurd (hspaces w (hfirst ▸ List.mem_append_right _ List.mem_cons_self)) hspace

theorem shown_inRegion_eq (hidden : Region → Char → Bool) (region : Region) (cs : List Char) :
    shown hidden (inRegion region cs) =
      cs.flatMap fun c => if hidden region c then blank c else [c] :=
  List.flatMap_map _ _ cs

end Labelled

theorem exists_of_maskLiterals {cs before after : List Char} {w : Char} (hspace : w ≠ ' ')
    (hmasked : maskLiterals cs = before ++ w :: after) :
    ∃ first rest, cs = first ++ w :: rest ∧ Text.byteSize first = Text.byteSize before := by
  have hfound := @Labelled.exists_of_shown Region.isContent (scan .code cs) _ _ _ hspace hmasked
  rw [text_scan] at hfound
  exact hfound

/-- A view of a text: it has the size of the text, a line feed where the text has one and
nowhere else, and elsewhere the bytes of the text or spaces. -/
structure KeepsPlaces (cs view : List Char) : Prop where
  size : (encode view).length = (encode cs).length
  feeds : ∀ offset : Nat, (encode view)[offset]? = some 10 ↔ (encode cs)[offset]? = some 10
  bytes : ∀ (offset : Nat) (byte : UInt8), (encode view)[offset]? = some byte →
    (encode cs)[offset]? = some byte ∨ byte = 32

theorem keepsPlaces_view (hidden : Region → Char → Bool) (cs : List Char) :
    KeepsPlaces cs (view hidden cs) := by
  have hshown := Labelled.forall₂_shown hidden (scan .code cs)
  rw [text_scan] at hshown
  rcases List.forall₂_iff_get.mp hshown with ⟨hsize, hbytes⟩
  have hat : ∀ offset : Nat,
      (encode (view hidden cs))[offset]? = none ∧ (encode cs)[offset]? = none ∨
        ∃ old new, (encode cs)[offset]? = some old ∧
          (encode (view hidden cs))[offset]? = some new ∧ Labelled.ShownAs old new := by
    intro offset
    rcases Nat.lt_or_ge offset (encode cs).length with hlt | hge
    · refine Or.inr ⟨_, _, List.getElem?_eq_getElem hlt, ?_, hbytes offset hlt (hsize ▸ hlt)⟩
      exact List.getElem?_eq_getElem (hsize ▸ hlt)
    · exact Or.inl ⟨List.getElem?_eq_none (hsize ▸ hge), List.getElem?_eq_none hge⟩
  constructor
  · exact hsize.symm
  · intro offset
    rcases hat offset with ⟨hview, htext⟩ | ⟨old, new, htext, hview, rfl | ⟨hfeed, rfl⟩⟩
    · rw [hview, htext]
    · rw [hview, htext]
    · rw [hview, htext, Option.some_inj, Option.some_inj]
      exact iff_of_false (by decide) hfeed
  · intro offset byte hbyte
    rcases hat offset with ⟨hview, htext⟩ | ⟨old, new, htext, hview, rfl | ⟨hfeed, rfl⟩⟩
    · rw [hview] at hbyte
      cases hbyte
    · rw [hview] at hbyte
      exact Or.inl (htext.trans hbyte)
    · rw [hview] at hbyte
      exact Or.inr (Option.some.inj hbyte).symm

/-!
## Literals
-/

/-- What stands between the quotes of a literal: its own quote only behind a backslash, which
takes the next character with it, and no line feed. -/
inductive Content (quote : Char) : List Char → Prop
  | nil : Content quote []
  | plain {c : Char} {rest : List Char} (hc : c ≠ quote ∧ c ≠ '\\' ∧ c ≠ '\n')
      (hrest : Content quote rest) : Content quote (c :: rest)
  | escape {c : Char} {rest : List Char} (hline : c ≠ '\n') (hrest : Content quote rest) :
      Content quote ('\\' :: c :: rest)

def IsQuote (c : Char) : Prop :=
  c = '"' ∨ c = '\''

theorem scan_content {quote : Char} (hquote : IsQuote quote) {content : List Char}
    (hcontent : Content quote content) (rest : List Char) :
    scan (.literal quote false) (content ++ quote :: rest) =
      Labelled.inRegion (.literal quote) (content ++ [quote]) ++ scan .code rest := by
  induction hcontent with
  | nil =>
      have hmode : Mode.afterLiteral quote false quote = .code := by
        rcases hquote with rfl | rfl <;> rfl
      rw [List.nil_append, scan_literal, hmode]
      rfl
  | @plain c _ hc _ ih =>
      have hmode : Mode.afterLiteral quote false c = .literal quote false := by
        rw [Mode.afterLiteral, if_neg Bool.false_ne_true, if_neg hc.2.1,
          if_neg (not_or.mpr ⟨hc.1, hc.2.2⟩)]
      rw [List.cons_append, scan_literal, hmode, ih]
      rfl
  | @escape c _ _ _ ih =>
      have hmode : Mode.afterLiteral quote false '\\' = .literal quote true := rfl
      have hescaped : Mode.afterLiteral quote true c = .literal quote false := rfl
      rw [List.cons_append, List.cons_append, scan_literal, hmode, scan_literal, hescaped, ih]
      rfl

namespace Labelled

def ofLiteral (quote : Char) (content : List Char) : Labelled :=
  ofCode [quote] ++ inRegion (.literal quote) (content ++ [quote])

theorem text_ofLiteral (quote : Char) (content : List Char) :
    text (ofLiteral quote content) = quote :: content ++ [quote] := by
  rw [ofLiteral, text_append, text_ofCode, text_inRegion]
  rfl

theorem bare_ofLiteral (quote : Char) (content : List Char) :
    bare (ofLiteral quote content) = quote :: content ++ [quote] := by
  rw [ofLiteral, bare_append, bare_ofCode, bare_inRegion rfl]
  rfl

theorem live_ofLiteral (quote : Char) (content : List Char) :
    live (ofLiteral quote content) =
      quote :: (content.flatMap fun c => if c = quote then [c] else blank c) ++ [quote] := by
  have hshown : ∀ c, (if (Region.literal quote).isComment ||
        (Region.literal quote).isContent c then blank c else [c]) =
      if c = quote then [c] else blank c := by
    intro c
    by_cases hc : c = quote
    · simp [Region.isComment, Region.isContent, hc]
    · simp [Region.isComment, Region.isContent, hc]
  rw [ofLiteral, live_append, live_ofCode, live, shown_inRegion_eq]
  simp only [hshown, List.flatMap_append, List.flatMap_singleton, if_true]
  rfl

theorem sound_of_scan {labelled : Labelled} (hbare : labelled.bare = labelled.text)
    (huncommented : labelled.uncommented = labelled)
    (hscan : ∀ rest, scan .code (labelled.text ++ rest) = labelled ++ scan .code rest) :
    Sound labelled where
  scan_text := hscan
  scan_bare := by
    intro rest
    rw [hbare, huncommented, hscan]

theorem sound_ofLiteral {quote : Char} (hquote : IsQuote quote) {content : List Char}
    (hcontent : Content quote content) : Sound (ofLiteral quote content) := by
  apply sound_of_scan
  · rw [bare_ofLiteral, text_ofLiteral]
  · rw [ofLiteral, uncommented_append, uncommented_ofCode, uncommented_inRegion rfl]
  · intro rest
    have hopen : scan .code (quote :: (content ++ quote :: rest)) =
        (.code, quote) :: scan (.literal quote false) (content ++ quote :: rest) := by
      rcases hquote with rfl | rfl <;> rfl
    rw [text_ofLiteral, List.append_assoc, List.cons_append, List.singleton_append, hopen,
      scan_content hquote hcontent]
    rfl

end Labelled

/-!
## Code
-/

/-- Code that opens neither a literal nor a comment, whatever follows it. -/
structure IsCode (cs : List Char) : Prop where
  unquoted : ∀ c ∈ cs, ¬ IsQuote c
  line : ¬ ['/', '/'] <:+: cs
  block : ¬ ['/', '*'] <:+: cs
  ended : cs.getLast? ≠ some '/'

theorem IsCode.tail {c : Char} {rest : List Char} (hcode : IsCode (c :: rest)) :
    IsCode rest where
  unquoted := fun d hd => hcode.unquoted d (List.mem_cons_of_mem c hd)
  line := fun hwithin => hcode.line (hwithin.trans (List.suffix_cons c rest).isInfix)
  block := fun hwithin => hcode.block (hwithin.trans (List.suffix_cons c rest).isInfix)
  ended := by
    intro hlast
    apply hcode.ended
    rw [List.getLast?_cons, hlast]
    rfl

namespace Labelled

theorem sound_ofIsCode {cs : List Char} (hcode : IsCode cs) : Sound (ofCode cs) := by
  apply sound_of_scan
  · rw [bare_ofCode, text_ofCode]
  · exact uncommented_ofCode cs
  · intro rest
    rw [text_ofCode]
    induction cs with
    | nil =>
        rfl
    | cons c tail ih =>
        have hmode : Mode.afterCode c = .code :=
          if_neg (hcode.unquoted c List.mem_cons_self)
        have hopen : ∀ d, ¬ ['/', d] <:+: c :: tail →
            ∀ more, c = '/' → tail ++ rest = d :: more → False := by
          rintro d hwithin more rfl hmore
          cases tail with
          | nil =>
              exact hcode.ended rfl
          | cons e others =>
              rw [← (List.cons.inj hmore).1] at hwithin
              exact hwithin ⟨[], others, rfl⟩
        rw [List.cons_append, scan_code (hopen '/' hcode.line) (hopen '*' hcode.block), hmode,
          ih hcode.tail]
        rfl

end Labelled

/-!
## Segments
-/

inductive Segment where
  | code (cs : List Char) (plain : IsCode cs)
  | lineComment (body : List Char) (oneLine : '\n' ∉ body)
  | blockComment (body : List Char) (unended : ¬ ['*', '/'] <:+: body)
  | literal (quote : Char) (quoted : IsQuote quote) (content : List Char)
      (closed : Content quote content)

namespace Segment

def text : Segment → List Char
  | code cs _ => cs
  | lineComment body _ => '/' :: '/' :: body ++ ['\n']
  | blockComment body _ => '/' :: '*' :: body ++ ['*', '/']
  | literal quote _ content _ => quote :: content ++ [quote]

/-- A space for every byte of a character; a line feed stays. -/
def spaces (c : Char) : List Char :=
  if c = '\n' then [c] else List.replicate c.utf8Size ' '

theorem spaces_eq_blank : spaces = blank :=
  rfl

def bare : Segment → List Char
  | code cs _ => cs
  | lineComment body _ => ('/' :: '/' :: body).flatMap spaces ++ ['\n']
  | blockComment body _ => ('/' :: '*' :: body ++ ['*', '/']).flatMap spaces
  | literal quote _ content _ => quote :: content ++ [quote]

/-- The segment, spaces if it is a comment, and with its quotes alone if it is a literal. -/
def live : Segment → List Char
  | literal quote _ content _ =>
      quote :: (content.flatMap fun c => if c = quote then [c] else spaces c) ++ [quote]
  | segment => segment.bare

def labelled : Segment → Labelled
  | code cs _ => .ofCode cs
  | lineComment body _ => .ofLineComment body
  | blockComment body _ => .ofBlockComment body
  | literal quote _ content _ => .ofLiteral quote content

theorem sound (segment : Segment) : segment.labelled.Sound := by
  cases segment with
  | code cs plain =>
      exact Labelled.sound_ofIsCode plain
  | lineComment body oneLine =>
      exact Labelled.sound_ofLineComment oneLine
  | blockComment body unended =>
      exact Labelled.sound_ofBlockComment unended
  | literal quote quoted content closed =>
      exact Labelled.sound_ofLiteral quoted closed

theorem text_labelled (segment : Segment) : segment.labelled.text = segment.text := by
  cases segment with
  | code cs plain =>
      exact Labelled.text_ofCode cs
  | lineComment body oneLine =>
      rw [labelled, Labelled.ofLineComment, Labelled.text_append, Labelled.text_inRegion,
        Labelled.text_ofCode]
      rfl
  | blockComment body unended =>
      exact Labelled.text_inRegion _ _
  | literal quote quoted content closed =>
      exact Labelled.text_ofLiteral quote content

theorem bare_labelled (segment : Segment) : segment.labelled.bare = segment.bare := by
  cases segment with
  | code cs plain =>
      exact Labelled.bare_ofCode cs
  | lineComment body oneLine =>
      rw [labelled, Labelled.ofLineComment, Labelled.bare_append, Labelled.bare_ofCode,
        Labelled.bare, Labelled.shown_inRegion_eq, bare, spaces_eq_blank]
      rfl
  | blockComment body unended =>
      rw [bare, spaces_eq_blank]
      exact Labelled.shown_inRegion_eq _ _ _
  | literal quote quoted content closed =>
      exact Labelled.bare_ofLiteral quote content

theorem live_labelled (segment : Segment) : segment.labelled.live = segment.live := by
  cases segment with
  | code cs plain =>
      exact Labelled.live_ofCode cs
  | lineComment body oneLine =>
      rw [labelled, Labelled.ofLineComment, Labelled.live_append, Labelled.live_ofCode,
        Labelled.live, Labelled.shown_inRegion_eq, live, bare, spaces_eq_blank]
      · rfl
      · exact fun _ _ _ _ heq => Segment.noConfusion heq
  | blockComment body unended =>
      rw [live, bare, spaces_eq_blank]
      · exact Labelled.shown_inRegion_eq _ _ _
      · exact fun _ _ _ _ heq => Segment.noConfusion heq
  | literal quote quoted content closed =>
      rw [live, spaces_eq_blank]
      exact Labelled.live_ofLiteral quote content

/-- A text of segments is scanned segment by segment. -/
theorem scan_text (segments : List Segment) :
    scan .code (segments.flatMap text) = segments.flatMap labelled := by
  have hsound : Labelled.Sound (segments.flatMap labelled) :=
    .flatMap fun segment _ => segment.sound
  have htext : Labelled.text (segments.flatMap labelled) = segments.flatMap text := by
    rw [Labelled.text, List.map_flatMap]
    exact congrArg (fun read => segments.flatMap read) (funext text_labelled)
  have hscan := hsound.scan_text []
  rw [List.append_nil, htext] at hscan
  exact hscan.trans (List.append_nil _)

end Segment

/-- Blanking comments or hiding literals keeps every byte and every line feed in its place.  A
text without comments stays as it is when comments are blanked again, and hiding its literals
gives the code alone.  In a text of code, comments and literals exactly the comments are
blanked; in its code alone exactly what is inside the literals is blanked too, apart from quotes
of their own kind. -/
theorem views_of_segments (cs : List Char) (segments : List Segment) :
    (KeepsPlaces cs (blankComments cs) ∧ KeepsPlaces cs (maskLiterals cs) ∧
      KeepsPlaces cs (codeOnly cs)) ∧
    blankComments (blankComments cs) = blankComments cs ∧
    codeOnly cs = maskLiterals (blankComments cs) ∧
    blankComments (segments.flatMap Segment.text) = segments.flatMap Segment.bare ∧
    codeOnly (segments.flatMap Segment.text) = segments.flatMap Segment.live := by
  have hbare : Labelled.bare (segments.flatMap Segment.labelled) =
      segments.flatMap Segment.bare := by
    rw [Labelled.bare, Labelled.shown, List.flatMap_assoc]
    exact congrArg (fun read => segments.flatMap read) (funext Segment.bare_labelled)
  have hlive : Labelled.live (segments.flatMap Segment.labelled) =
      segments.flatMap Segment.live := by
    rw [Labelled.live, Labelled.shown, List.flatMap_assoc]
    exact congrArg (fun read => segments.flatMap read) (funext Segment.live_labelled)
  refine ⟨⟨keepsPlaces_view _ cs, keepsPlaces_view _ cs, keepsPlaces_view _ cs⟩,
    blankComments_blankComments cs, (maskLiterals_blankComments cs).symm, ?_, ?_⟩
  · rw [Labelled.blankComments_eq, Segment.scan_text, hbare]
  · rw [Labelled.codeOnly_eq, Segment.scan_text, hlive]

-- A comment that does not end in its opening, and quotes escaped and of the other kind.
example : codeOnly "a/*/*/\"//\\\"é\"'\"'//*\n".toList =
    "a     \"   \"  \"' '   \n".toList := by
  decide

end LexicalView
end EndpointTrace
