import EndpointTrace.Proofs.Java.Spans
import EndpointTrace.Proofs.Source.Positions

/-!
# Where nodes stand

A token stands behind a number of characters of its text, and its range runs from the position
of that place through the position behind its last character.  So looking up the range of a
node gives the text from its first token through its last, and looking up the range of a name
gives the name.
-/

namespace EndpointTrace
namespace Java

theorem foldl_advance (cs : List Char) :
    cs.foldl advance ⟨0, 0⟩ =
      ⟨cs.count '\n', Text.byteSize cs - Text.byteSize (Text.wholeLines cs)⟩ := by
  induction cs using List.reverseRecOn with
  | nil =>
      rfl
  | append_singleton before c ih =>
      rw [List.foldl_append, ih, List.foldl_cons, List.foldl_nil, advance, List.count_append,
        List.count_singleton]
      by_cases hc : c = '\n'
      · rw [if_pos hc, hc, Text.wholeLines_concat_feed, Nat.sub_self]
        rfl
      · have hle := Text.byteSize_wholeLines_le before
        rw [if_neg hc, Text.wholeLines_concat hc, if_neg (mt beq_iff_eq.mp hc),
          Text.byteSize_append, ← Nat.sub_add_comm hle]
        rfl

def placeBehind (source : List Char) (count : Nat) : Position :=
  (source.take count).foldl advance ⟨0, 0⟩

theorem placeBehind_add (source : List Char) (count more : Nat) :
    placeBehind source (count + more) =
      ((source.drop count).take more).foldl advance (placeBehind source count) := by
  rw [placeBehind, placeBehind, List.take_add, List.foldl_append]

theorem offsetOf_placeBehind (document : Document) (count : Nat) :
    document.offsetOf (placeBehind document.chars count) =
      Text.byteSize (document.chars.take count) := by
  have hcut := (List.take_append_drop count document.chars).symm
  rw [placeBehind, foldl_advance, ← document.positionOf_of_cut hcut,
    document.offsetOf_positionOf_of_cut hcut]

theorem textIn_placeBehind (document : Document) (range : Range) {start stop : Nat}
    (hstart : range.start = placeBehind document.chars start)
    (hstop : range.stop = placeBehind document.chars stop) (hle : start ≤ stop) :
    document.textIn range = (document.chars.drop start).take (stop - start) := by
  have hpiece : document.chars.take stop =
      document.chars.take start ++ (document.chars.drop start).take (stop - start) := by
    rw [← List.take_add, Nat.add_sub_of_le hle]
  have hchars : document.chars = document.chars.take start ++
      ((document.chars.drop start).take (stop - start) ++ document.chars.drop stop) := by
    rw [← List.append_assoc, ← hpiece, List.take_append_drop]
  apply document.textIn_of_cut hchars
  · rw [hstart, offsetOf_placeBehind]
  · rw [hstop, offsetOf_placeBehind, hpiece, Text.byteSize_append]

/-!
## Tokens
-/

/-- The token is what stands in the text behind as many characters as it says. -/
structure Token.StandsIn (source : List Char) (token : Token) : Prop where
  here : token.here = source.drop token.index
  text : token.text = String.ofList (token.here.take token.length)
  start : token.range.start = placeBehind source token.index
  stop : token.range.stop = placeBehind source (token.index + token.length)

/-- From a place on there is at most one token up to a later place, and then the tokens from
that place on. -/
theorem tokensFrom_step (source : List Char) (bound index : Nat) :
    ∃ (length : Nat) (here? : Option Token),
      (∀ token ∈ here?, token.StandsIn source ∧ token.index = index) ∧
        tokensFrom (bound + 1) (placeBehind source index) index (source.drop index) =
          here?.toList ++ tokensFrom bound (placeBehind source (index + length))
            (index + length) (source.drop (index + length)) := by
  cases hcs : source.drop index with
  | nil =>
      refine ⟨0, none, ?_, ?_⟩
      · intro token htoken
        cases htoken
      · show [] = [] ++ tokensFrom bound _ _ (source.drop index)
        rw [hcs]
        cases bound with
        | zero => rfl
        | succ bound => rfl
  | cons c rest =>
      rw [← hcs]
      refine ⟨(lexeme (source.drop index)).2, (lexeme (source.drop index)).1.map fun kind =>
        ⟨kind, String.ofList ((source.drop index).take (lexeme (source.drop index)).2),
          ⟨placeBehind source index, placeBehind source (index + (lexeme (source.drop index)).2)⟩,
          index, (lexeme (source.drop index)).2, source.drop index⟩, ?_, ?_⟩
      · intro token htoken
        obtain ⟨kind, _, rfl⟩ := Option.map_eq_some_iff.mp htoken
        exact ⟨⟨rfl, rfl, rfl, rfl⟩, rfl⟩
      · rw [placeBehind_add, ← List.drop_drop, hcs]
        conv_lhs => unfold tokensFrom
        simp only
        cases (lexeme (c :: rest)).1 with
        | none => rfl
        | some kind => rfl

theorem tokensFrom_standIn (source : List Char) (bound index : Nat) :
    ∀ token ∈ tokensFrom bound (placeBehind source index) index (source.drop index),
      token.StandsIn source ∧ index ≤ token.index := by
  induction bound generalizing index with
  | zero =>
      intro token htoken
      cases htoken
  | succ bound ih =>
      intro token htoken
      obtain ⟨length, here?, hhere, hstep⟩ := tokensFrom_step source bound index
      rw [hstep] at htoken
      rcases List.mem_append.mp htoken with htoken | htoken
      · obtain ⟨hstands, hindex⟩ := hhere token (Option.mem_toList.mp htoken)
        exact ⟨hstands, Nat.le_of_eq hindex.symm⟩
      · obtain ⟨hstands, hle⟩ := ih (index + length) token htoken
        exact ⟨hstands, Nat.le_trans (Nat.le_add_right index length) hle⟩

theorem tokensFrom_ordered (source : List Char) (bound index : Nat) :
    (tokensFrom bound (placeBehind source index) index (source.drop index)).Pairwise
      fun first second => first.index ≤ second.index := by
  induction bound generalizing index with
  | zero =>
      exact List.Pairwise.nil
  | succ bound ih =>
      obtain ⟨length, here?, hhere, hstep⟩ := tokensFrom_step source bound index
      rw [hstep]
      refine List.pairwise_append.mpr ⟨?_, ih (index + length), ?_⟩
      · cases here? with
        | none => exact List.Pairwise.nil
        | some token => exact List.pairwise_singleton _ token
      · intro first hfirst second hsecond
        rw [(hhere first (Option.mem_toList.mp hfirst)).2]
        exact Nat.le_trans (Nat.le_add_right index length)
          (tokensFrom_standIn source bound (index + length) second hsecond).2

theorem standsIn_of_mem_tokens {source : List Char} {token : Token}
    (htoken : token ∈ tokens source) : token.StandsIn source :=
  (tokensFrom_standIn source source.length 0 token htoken).1

theorem parse_madeOf (source : List Char) : MadeOf (tokens source) (parse source) :=
  declarations_madeOf (tokensFrom_ordered source source.length 0) _ _ (List.Sublist.refl _)

/-!
## Texts of ranges
-/

namespace Token.StandsIn

variable {document : Document} {first last : Token}

theorem textIn_rangeOf (hfirst : first.StandsIn document.chars)
    (hlast : last.StandsIn document.chars) (hle : first.index ≤ last.index) :
    document.textIn (rangeOf first last) = (first.through last).toList := by
  have hstop : first.index ≤ last.index + last.length :=
    Nat.le_trans hle (Nat.le_add_right _ _)
  have htext := textIn_placeBehind document (rangeOf first last) hfirst.start hlast.stop hstop
  rw [htext, Token.through, hfirst.here, String.toList_ofList]

theorem textIn_nameOf (hfirst : first.StandsIn document.chars) :
    document.textIn (nameOf first).range = (nameOf first).text.toList := by
  have htext := textIn_placeBehind document first.range hfirst.start hfirst.stop
    (Nat.le_add_right _ _)
  rw [nameOf, htext, Nat.add_sub_cancel_left, hfirst.text, hfirst.here, String.toList_ofList]

end Token.StandsIn

end Java

namespace Document

/-- The range of a node gives the text of the node, and the ranges of its names the names. -/
structure ReadsBack (document : Document) (node : Java.Node) : Prop where
  range : ∀ range ∈ node.range?, ∃ first ∈ Java.tokens document.chars,
    ∃ last ∈ Java.tokens document.chars, first.index ≤ last.index ∧
      range = Java.rangeOf first last ∧ document.textIn range = (first.through last).toList
  names : ∀ name ∈ node.names, document.textIn name.range = name.text.toList

theorem readsBack_of_mem_parse {document : Document} {node : Java.Node}
    (hnode : node ∈ Java.preorderIn (Java.parse document.chars)) : document.ReadsBack node := by
  have hmade := Java.parse_madeOf document.chars node hnode
  constructor
  · intro range hrange
    obtain ⟨first, hfirst, last, hlast, hle, hrange⟩ := hmade.range range hrange
    have hstands := Java.standsIn_of_mem_tokens hfirst
    refine ⟨first, hfirst, last, hlast, hle, hrange, ?_⟩
    rw [hrange]
    exact hstands.textIn_rangeOf (Java.standsIn_of_mem_tokens hlast) hle
  · intro name hname
    obtain ⟨token, htoken, rfl⟩ := hmade.names name hname
    exact (Java.standsIn_of_mem_tokens htoken).textIn_nameOf

/-- The offset of a position is a place of the text, and one of its line if that exists. -/
structure Lands (document : Document) (position : Position) : Prop where
  boundary : Text.isBoundary (document.offsetOf position) document.chars = true
  inside : document.offsetOf position ≤ Text.byteSize document.chars
  inLine : position.line < document.lineCount → ∃ before line behind,
    IsLine document.chars position.line before line behind ∧
      Text.byteSize before ≤ document.offsetOf position ∧
        document.offsetOf position ≤ Text.byteSize before + Text.byteSize line

theorem lands (document : Document) (position : Position) : document.Lands position := by
  constructor
  · exact document.isBoundary_offsetOf position
  · rw [← document.size_eq]
    exact document.offsetOf_le_size position
  · intro hline
    obtain ⟨before, line, behind, hcut⟩ := document.exists_isLine hline
    exact ⟨before, line, behind, hcut, hcut.offsetOf_mem position.character⟩

/-- Positions address the text that they came from: places and nodes are found again, every
position lands in the text, and lookups keep the order of the positions.  Lines and columns
below 2 ^ 62 can be looked up with numbers of 64 bits. -/
theorem positions_address (document : Document) :
    (∀ offset, Text.isBoundary offset document.chars = true →
        document.offsetOf (document.positionOf offset) = offset) ∧
      (∀ start stop, Text.isBoundary start document.chars = true →
        Text.isBoundary stop document.chars = true →
          Text.Utf8.encode (document.textIn ⟨document.positionOf start, document.positionOf stop⟩) =
            ((Text.Utf8.encode document.chars).drop start).take (stop - start)) ∧
      (∀ node ∈ Java.preorderIn (Java.parse document.chars), document.ReadsBack node) ∧
      (∀ position, document.Lands position) ∧
      (∀ position : Position, position.line < 2 ^ 62 → position.character < 2 ^ 62 →
        document.size < 2 ^ 63 → position.line + 1 < 2 ^ 64 ∧
          ∀ start ∈ document.lineStarts, start + position.character < 2 ^ 64) ∧
      (∀ p q : Position, p ≤ q → document.offsetOf p ≤ document.offsetOf q) ∧
      (∀ p q r : Position, p ≤ q → q ≤ r →
        document.textIn ⟨p, r⟩ = document.textIn ⟨p, q⟩ ++ document.textIn ⟨q, r⟩) ∧
      (∀ range : Range, range.stop ≤ range.start → document.textIn range = []) ∧
      (∀ range, document.IsPiece (document.cutsOf range).1 (document.cutsOf range).2 ∧
        document.textIn range =
          Text.slice (document.cutsOf range).1 (document.cutsOf range).2 document.chars) := by
  refine ⟨?_, ?_, ?_, ?_, ?_, ?_, ?_, ?_, ?_⟩
  · intro offset hoffset
    exact document.offsetOf_positionOf hoffset
  · intro start stop hstart hstop
    rw [document.textIn_positionOf hstart hstop, Text.encode_slice hstart hstop]
  · intro node hnode
    exact readsBack_of_mem_parse hnode
  · exact document.lands
  · intro position hline hcharacter hsize
    exact document.lookup_lt hline hcharacter hsize
  · intro p q hle
    exact document.offsetOf_mono hle
  · intro p q r hpq hqr
    exact (document.textIn_append hpq hqr).symm
  · intro range hreversed
    exact document.textIn_of_reversed hreversed
  · intro range
    exact ⟨document.isPiece_cutsOf range, document.textIn_eq_slice range⟩

def umlauts : Document :=
  ofString "class Ö \x7b\n int ö;\n\x7d"

theorem positions_address_umlauts :
    umlauts.offsetOf (umlauts.positionOf 18) = 18 ∧ umlauts.positionOf 18 = ⟨1, 7⟩ ∧
      Text.Utf8.encode (umlauts.textIn ⟨umlauts.positionOf 6, umlauts.positionOf 8⟩) =
        [0xC3, 0x96] ∧
      (∃ node ∈ Java.preorderIn (Java.parse umlauts.chars),
        node.range? = some ⟨⟨1, 1⟩, ⟨1, 8⟩⟩ ∧ umlauts.ReadsBack node) ∧
      umlauts.Lands ⟨0, 7⟩ ∧ umlauts.offsetOf ⟨0, 7⟩ = 6 ∧
      (∀ start ∈ umlauts.lineStarts, start + 7 < 2 ^ 64) ∧
      umlauts.offsetOf ⟨0, 50⟩ ≤ umlauts.offsetOf ⟨1, 4⟩ ∧
      umlauts.textIn ⟨⟨0, 6⟩, ⟨1, 4⟩⟩ =
        umlauts.textIn ⟨⟨0, 6⟩, ⟨0, 50⟩⟩ ++ umlauts.textIn ⟨⟨0, 50⟩, ⟨1, 4⟩⟩ ∧
      umlauts.textIn ⟨⟨1, 4⟩, ⟨0, 6⟩⟩ = [] := by
  obtain ⟨hplaces, htexts, hnodes, hlands, hfits, hmono, hsplits, hreversed, -⟩ :=
    positions_address umlauts
  have hfield : ∃ node ∈ Java.preorderIn (Java.parse umlauts.chars),
      node.range? = some ⟨⟨1, 1⟩, ⟨1, 8⟩⟩ := by decide +kernel
  obtain ⟨node, hnode, hrange⟩ := hfield
  have hletter : Text.Utf8.encode (umlauts.textIn ⟨umlauts.positionOf 6, umlauts.positionOf 8⟩) =
      [0xC3, 0x96] := by
    rw [htexts 6 8 (by decide) (by decide)]
    decide
  have hsize : umlauts.size < 2 ^ 63 := by decide
  exact ⟨hplaces 18 (by decide), by decide, hletter, ⟨node, hnode, hrange, hnodes node hnode⟩,
    hlands _, by decide, (hfits ⟨1, 7⟩ (by decide) (by decide) hsize).2,
    hmono _ _ (by decide), hsplits _ _ _ (by decide) (by decide), hreversed _ (by decide)⟩

end Document
end EndpointTrace
