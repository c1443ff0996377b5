import EndpointTrace.Proofs.Source.Offsets
import EndpointTrace.Text.Utf8
import Mathlib.Algebra.Group.Nat.Defs
import Mathlib.Data.List.DropRight

/-!
# Positions of offsets

The position of an offset says how many line feeds stand before it and how far it is from the
start of its line.  Looked up in the document, the position of a place between two characters
names that place again.  So a document gives back the text between any two places from their
positions, whatever line feeds and characters of several bytes there are.
-/

namespace EndpointTrace

namespace Text

/-- Offsets of which each is the end of a first part of the text. -/
theorem isBoundary_iff {n : Nat} {cs : List Char} :
    isBoundary n cs = true ↔ ∃ before after, cs = before ++ after ∧ n = byteSize before := by
  rw [isBoundary, beq_iff_eq]
  constructor
  · intro hsize
    exact ⟨takeBytes n cs, dropBytes n cs, (takeBytes_append_dropBytes n cs).symm, hsize.symm⟩
  · rintro ⟨before, after, rfl, rfl⟩
    rw [takeBytes_byteSize_append]

theorem takeBytes_zero (cs : List Char) : takeBytes 0 cs = [] := by
  cases cs with
  | nil =>
      rfl
  | cons c rest =>
      exact if_neg (Nat.not_le.mpr c.utf8Size_pos)

theorem length_encode (cs : List Char) : (Utf8.encode cs).length = byteSize cs := by
  induction cs with
  | nil =>
      rfl
  | cons c rest ih =>
      show (String.utf8EncodeChar c ++ Utf8.encode rest).length = _
      rw [List.length_append, String.length_utf8EncodeChar, ih, byteSize]

theorem encode_slice {start stop : Nat} {cs : List Char} (hstart : isBoundary start cs = true)
    (hstop : isBoundary stop cs = true) :
    Utf8.encode (slice start stop cs) = ((Utf8.encode cs).drop start).take (stop - start) := by
  rcases isBoundary_iff.mp hstart with ⟨before, after, rfl, rfl⟩
  have hdropped : ((Utf8.encode (before ++ after)).drop (byteSize before)) =
      Utf8.encode after := by
    rw [Utf8.encode_append, ← length_encode, List.drop_left]
  rw [slice, dropBytes_byteSize_append, hdropped]
  rcases Nat.le_total stop (byteSize before) with hle | hle
  · rw [Nat.sub_eq_zero_of_le hle, takeBytes_zero, List.take_zero]
    rfl
  · rcases isBoundary_iff.mp hstop with ⟨whole, behind, hsame, rfl⟩
    rcases exists_piece hsame hle with ⟨piece, rfl, rfl⟩
    rw [byteSize_append, Nat.add_sub_cancel_left, takeBytes_byteSize_append,
      Utf8.encode_append, ← length_encode, List.take_left]

def wholeLines (cs : List Char) : List Char :=
  cs.rdropWhile (· != '\n')

theorem wholeLines_concat_feed (cs : List Char) : wholeLines (cs ++ ['\n']) = cs ++ ['\n'] :=
  List.rdropWhile_concat_neg _ _ _ (by decide)

theorem wholeLines_concat {c : Char} (hc : c ≠ '\n') (cs : List Char) :
    wholeLines (cs ++ [c]) = wholeLines cs :=
  List.rdropWhile_concat_pos _ _ _ (bne_iff_ne.mpr hc)

theorem byteSize_wholeLines_le (cs : List Char) : byteSize (wholeLines cs) ≤ byteSize cs := by
  rcases List.rdropWhile_prefix (· != '\n') (l := cs) with ⟨line, hline⟩
  conv_rhs => rw [← hline, byteSize_append]
  exact Nat.le_add_right _ _

end Text

/-!
## Starts of lines
-/

theorem lineStartsAfter_append (offset : Nat) (before after : List Char) :
    lineStartsAfter offset (before ++ after) =
      lineStartsAfter offset before ++
        lineStartsAfter (offset + Text.byteSize before) after := by
  induction before generalizing offset with
  | nil =>
      rfl
  | cons c rest ih =>
      rw [List.cons_append, lineStartsAfter, lineStartsAfter, ih, Text.byteSize, Nat.add_assoc]
      split
      · rfl
      · rfl

theorem length_lineStartsAfter (offset : Nat) (cs : List Char) :
    (lineStartsAfter offset cs).length = cs.count '\n' := by
  induction cs generalizing offset with
  | nil =>
      rfl
  | cons c rest ih =>
      rw [lineStartsAfter, List.count_cons]
      split
      · rename_i hc
        rw [List.length_cons, ih, if_pos (beq_iff_eq.mpr hc)]
      · rename_i hc
        rw [ih, if_neg (mt beq_iff_eq.mp hc), Nat.add_zero]

namespace Document

variable (document : Document)

theorem lineStarts_append {before after : List Char} (hchars : document.chars = before ++ after) :
    document.lineStarts =
      (0 :: lineStartsAfter 0 before) ++ lineStartsAfter (Text.byteSize before) after := by
  rw [document.lineStarts_eq, hchars, lineStartsAfter_append, Nat.zero_add, List.cons_append]

theorem lineStart_of_cut {before after : List Char} (hchars : document.chars = before ++ after) :
    document.lineStarts[before.count '\n']? = some (Text.byteSize (Text.wholeLines before)) := by
  induction before using List.reverseRecOn generalizing after with
  | nil =>
      rw [document.lineStarts_eq]
      rfl
  | append_singleton before c ih =>
      rw [List.append_assoc, List.singleton_append] at hchars
      rw [List.count_append, List.count_singleton]
      by_cases hc : c = '\n'
      · subst hc
        rw [Text.wholeLines_concat_feed, document.lineStarts_append hchars, lineStartsAfter,
          if_pos rfl, Text.byteSize_append]
        have hlength : (0 :: lineStartsAfter 0 before).length = before.count '\n' + 1 := by
          rw [List.length_cons, length_lineStartsAfter]
        rw [beq_self_eq_true, if_pos rfl, ← hlength, List.getElem?_append_right (Nat.le_refl _),
          Nat.sub_self]
        rfl
      · rw [Text.wholeLines_concat hc, if_neg (mt beq_iff_eq.mp hc), Nat.add_zero]
        exact ih hchars

theorem byteSize_le_lineEnd {before after : List Char}
    (hchars : document.chars = before ++ after) :
    Text.byteSize before ≤ document.lineEnd (before.count '\n') := by
  rw [lineEnd]
  cases hnext : document.lineStarts[before.count '\n' + 1]? with
  | none =>
      rw [document.size_eq, hchars, Text.byteSize_append]
      exact Nat.le_add_right _ _
  | some next =>
      have hlength : (0 :: lineStartsAfter 0 before).length = before.count '\n' + 1 := by
        rw [List.length_cons, length_lineStartsAfter]
      rw [document.lineStarts_append hchars, ← hlength,
        List.getElem?_append_right (Nat.le_refl _)] at hnext
      exact Nat.le_sub_one_of_lt (lt_of_mem_lineStartsAfter (List.mem_of_getElem? hnext))

theorem lineCount_eq : document.lineCount = document.chars.count '\n' + 1 := by
  rw [lineCount, document.lineStarts_eq, List.length_cons, length_lineStartsAfter]

/-!
## Places and their positions
-/

/-- The position of an offset: how many line feeds stand before it, and how far it is from
the start of its line. -/
def positionOf (offset : Nat) : Position :=
  let before := Text.takeBytes offset document.chars
  ⟨before.count '\n', offset - Text.byteSize (Text.wholeLines before)⟩

theorem positionOf_of_cut {before after : List Char}
    (hchars : document.chars = before ++ after) :
    document.positionOf (Text.byteSize before) =
      ⟨before.count '\n',
        Text.byteSize before - Text.byteSize (Text.wholeLines before)⟩ := by
  rw [positionOf, hchars, Text.takeBytes_byteSize_append]

theorem offsetOf_positionOf_of_cut {before after : List Char}
    (hchars : document.chars = before ++ after) :
    document.offsetOf (document.positionOf (Text.byteSize before)) = Text.byteSize before := by
  have hcolumn := Nat.add_sub_of_le (Text.byteSize_wholeLines_le before)
  rw [document.positionOf_of_cut hchars,
    document.offsetOf_of_line (document.lineStart_of_cut hchars)]
  show Text.floorBoundary (min _ _) _ = _
  rw [hcolumn, Nat.min_eq_left (document.byteSize_le_lineEnd hchars), hchars,
    Text.floorBoundary_append]

/-- A place between two characters is found again by its position. -/
theorem offsetOf_positionOf {offset : Nat}
    (hoffset : Text.isBoundary offset document.chars = true) :
    document.offsetOf (document.positionOf offset) = offset := by
  rcases Text.isBoundary_iff.mp hoffset with ⟨before, after, hchars, rfl⟩
  exact document.offsetOf_positionOf_of_cut hchars

theorem textIn_positionOf {start stop : Nat}
    (hstart : Text.isBoundary start document.chars = true)
    (hstop : Text.isBoundary stop document.chars = true) :
    document.textIn ⟨document.positionOf start, document.positionOf stop⟩ =
      Text.slice start stop document.chars := by
  rw [textIn, document.offsetOf_positionOf hstart, document.offsetOf_positionOf hstop]

/-!
## Lines
-/

/-- A line of a text, without its line feed, with what stands before and behind it. -/
structure IsLine (cs : List Char) (number : Nat) (before line behind : List Char) : Prop where
  chars : cs = before ++ (line ++ behind)
  number : before.count '\n' = number
  starts : ∀ c ∈ before.getLast?, c = '\n'
  unbroken : '\n' ∉ line
  stops : ∀ c ∈ behind.head?, c = '\n'

namespace IsLine

variable {document : Document} {number : Nat} {before line behind : List Char}
  (hline : IsLine document.chars number before line behind)

include hline

theorem lineStart : document.lineStarts[number]? = some (Text.byteSize before) := by
  have hwhole : Text.wholeLines before = before := by
    rw [Text.wholeLines, List.rdropWhile_eq_self_iff]
    intro hsome
    rw [hline.starts _ (List.getLast_mem_getLast? hsome)]
    decide
  have hstart := document.lineStart_of_cut hline.chars
  rw [hwhole, hline.number] at hstart
  exact hstart

theorem lineEnd_eq : document.lineEnd number = Text.byteSize before + Text.byteSize line := by
  have hcount : (before ++ line).count '\n' = number := by
    rw [List.count_append, hline.number, List.count_eq_zero_of_not_mem hline.unbroken,
      Nat.add_zero]
  rw [lineEnd, ← Text.byteSize_append]
  cases hbehind : behind with
  | nil =>
      have hchars := hline.chars
      rw [hbehind, List.append_nil] at hchars
      have hlast : document.lineStarts[number + 1]? = none := by
        rw [List.getElem?_eq_none_iff]
        show document.lineCount ≤ _
        rw [document.lineCount_eq, hchars, hcount]
      rw [hlast, document.size_eq, hchars]
  | cons c rest =>
      have hc := hline.stops
      rw [hbehind] at hc
      have hchars := hline.chars
      rw [hbehind, hc c rfl] at hchars
      have hcut : document.chars = ((before ++ line) ++ ['\n']) ++ rest := by
        rw [hchars]
        simp only [List.append_assoc, List.singleton_append]
      have hnext := document.lineStart_of_cut hcut
      rw [List.count_append, hcount, Text.wholeLines_concat_feed, Text.byteSize_append] at hnext
      have hfeed : List.count '\n' ['\n'] = 1 := rfl
      rw [hfeed] at hnext
      rw [hnext]
      exact Nat.add_sub_cancel _ 1

theorem offsetOf_mem (character : Nat) :
    Text.byteSize before ≤ document.offsetOf ⟨number, character⟩ ∧
      document.offsetOf ⟨number, character⟩ ≤ Text.byteSize before + Text.byteSize line := by
  rw [← hline.lineEnd_eq]
  exact ⟨document.lineStart_le_offsetOf hline.lineStart,
    document.offsetOf_le_lineEnd hline.lineStart⟩

end IsLine

theorem exists_cut_of_le_count {cs : List Char} {number : Nat} (hle : number ≤ cs.count '\n') :
    ∃ before rest, cs = before ++ rest ∧ before.count '\n' = number ∧
      ∀ c ∈ before.getLast?, c = '\n' := by
  induction number with
  | zero =>
      exact ⟨[], cs, rfl, rfl, fun c hc => nomatch hc⟩
  | succ number ih =>
      rcases ih (Nat.le_of_succ_le hle) with ⟨before, rest, rfl, hcount, _⟩
      have hfeed : '\n' ∈ rest := by
        apply List.count_pos_iff.mp
        rw [List.count_append, hcount] at hle
        omega
      rcases List.eq_append_cons_of_mem hfeed with ⟨line, behind, rfl, hunbroken⟩
      refine ⟨before ++ line ++ ['\n'], behind, ?_, ?_, ?_⟩
      · simp only [List.append_assoc, List.singleton_append]
      · rw [List.count_append, List.count_append, hcount,
          List.count_eq_zero_of_not_mem hunbroken]
        rfl
      · intro c hc
        rw [List.getLast?_concat] at hc
        exact (Option.some.inj hc).symm

theorem exists_isLine {number : Nat} (hnumber : number < document.lineCount) :
    ∃ before line behind, IsLine document.chars number before line behind := by
  rw [document.lineCount_eq] at hnumber
  rcases exists_cut_of_le_count (Nat.le_of_lt_succ hnumber) with
    ⟨before, rest, hchars, hcount, hstarts⟩
  refine ⟨before, rest.takeWhile (· != '\n'), rest.dropWhile (· != '\n'), ?_, hcount, hstarts,
    ?_, ?_⟩
  · rw [List.takeWhile_append_dropWhile, hchars]
  · intro hmem
    exact absurd (List.mem_takeWhile_imp hmem) (by decide)
  · intro c hc
    have hnot := List.head?_dropWhile_not (· != '\n') rest
    rw [Option.mem_def.mp hc] at hnot
    exact bne_eq_false_iff_eq.mp hnot

/-!
## Slices
-/

theorem isBoundary_offsetOf (position : Position) :
    Text.isBoundary (document.offsetOf position) document.chars = true := by
  rcases document.exists_offsetOf position with ⟨before, after, hchars, hoffset⟩
  exact Text.isBoundary_iff.mpr ⟨before, after, hchars, hoffset⟩

theorem textIn_of_reversed {range : Range} (hreversed : range.stop ≤ range.start) :
    document.textIn range = [] := by
  rw [textIn, Text.slice, Nat.sub_eq_zero_of_le (document.offsetOf_mono hreversed)]
  exact Text.takeBytes_zero _

/-- The two places of the text that a range is cut at, in their order. -/
def cutsOf (range : Range) : Nat × Nat :=
  (document.offsetOf range.start,
    max (document.offsetOf range.stop) (document.offsetOf range.start))

theorem textIn_eq_slice (range : Range) :
    document.textIn range =
      Text.slice (document.cutsOf range).1 (document.cutsOf range).2 document.chars := by
  rw [textIn, Text.slice, Text.slice, cutsOf]
  congr 1
  omega

/-- The text can be cut at both places, and the first does not lie behind the second. -/
structure IsPiece (start stop : Nat) : Prop where
  starts : Text.isBoundary start document.chars = true
  stops : Text.isBoundary stop document.chars = true
  ordered : start ≤ stop
  inside : stop ≤ document.size

theorem isPiece_cutsOf (range : Range) :
    document.IsPiece (document.cutsOf range).1 (document.cutsOf range).2 := by
  constructor
  · exact document.isBoundary_offsetOf _
  · unfold cutsOf
    rcases Nat.le_total (document.offsetOf range.stop) (document.offsetOf range.start) with
      hle | hle
    · rw [Nat.max_eq_right hle]
      exact document.isBoundary_offsetOf _
    · rw [Nat.max_eq_left hle]
      exact document.isBoundary_offsetOf _
  · exact Nat.le_max_right _ _
  · exact Nat.max_le.mpr ⟨document.offsetOf_le_size _, document.offsetOf_le_size _⟩

theorem lookup_lt {position : Position} (hline : position.line < 2 ^ 62)
    (hcharacter : position.character < 2 ^ 62) (hsize : document.size < 2 ^ 63) :
    position.line + 1 < 2 ^ 64 ∧
      ∀ start ∈ document.lineStarts, start + position.character < 2 ^ 64 := by
  constructor
  · omega
  · intro start hstart
    obtain ⟨line, hstart⟩ := List.getElem?_of_mem hstart
    have hle := document.lineStart_le_size hstart
    omega

end Document
end EndpointTrace
