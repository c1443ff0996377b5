import EndpointTrace.Proofs.Route.KeySeams
import EndpointTrace.Proofs.Route.MethodNames
import EndpointTrace.Proofs.Source.ClosedLiterals
import Mathlib.Data.List.DropRight

/-!
# Values across a seam

A scan for brackets either ends before a seam or takes it along.  What is read from the text
that it yields are words and string literals, and neither reaches across a seam where the
literals before it are closed.  So the method and the paths of an attribute list do not depend
on a seam in it.
-/

namespace EndpointTrace
namespace Attributes

open Text (Seam Fixed Cut)
open LexicalView (Closed ClosedFrom maskLiterals)

/-!
## Brackets
-/

section Brackets

variable (opening closing : Char)

/-- How a scan for brackets goes on behind a character, if that one is not the closing bracket
that it looks for. -/
def behindCharacter? (depth : Nat) (c : Char) : Quoting → Option (Nat × Quoting)
  | .inside escaped =>
      some (depth,
        if escaped then .inside false
        else if c = '\\' then .inside true
        else if c = '"' then .outside
        else .inside false)
  | .outside =>
      if c = '"' then some (depth, .inside false)
      else if c = opening then some (depth + 1, .outside)
      else if c = closing then if depth = 0 then none else some (depth - 1, .outside)
      else some (depth, .outside)

variable {opening closing}

theorem beforeClosing_inside (depth : Nat) (escaped : Bool) (c : Char) (rest : List Char) :
    beforeClosing opening closing depth (.inside escaped) (c :: rest) =
      c :: beforeClosing opening closing depth
        (if escaped then .inside false
          else if c = '\\' then .inside true
          else if c = '"' then .outside
          else .inside false) rest := by
  cases depth <;> rfl

theorem beforeClosing_eq (depth : Nat) (quoting : Quoting) (c : Char) (rest : List Char) :
    beforeClosing opening closing depth quoting (c :: rest) =
      match behindCharacter? opening closing depth c quoting with
      | none => []
      | some (depth, quoting) => c :: beforeClosing opening closing depth quoting rest := by
  cases quoting with
  | inside escaped =>
      exact beforeClosing_inside depth escaped c rest
  | outside =>
      rw [behindCharacter?]
      by_cases hquote : c = '"'
      · rw [if_pos hquote, hquote, Written.beforeClosing_quote]
      · by_cases hopening : c = opening
        · rw [if_neg hquote, if_pos hopening]
          cases depth <;> rw [beforeClosing, if_neg hquote, if_pos hopening]
        · by_cases hclosing : c = closing
          · rw [if_neg hquote, if_neg hopening, if_pos hclosing]
            cases depth <;> rw [beforeClosing, if_neg hquote, if_neg hopening, if_pos hclosing] <;> rfl
          · rw [if_neg hquote, if_neg hopening, if_neg hclosing]
            exact Written.beforeClosing_cons hquote hopening hclosing depth rest

theorem beforeClosing_step (opening closing : Char) (depth : Nat) (quoting : Quoting)
    (c : Char) :
    (∀ rest, beforeClosing opening closing depth quoting (c :: rest) = []) ∨
      ∃ depth' quoting', ∀ rest, beforeClosing opening closing depth quoting (c :: rest) =
        c :: beforeClosing opening closing depth' quoting' rest := by
  cases hnext : behindCharacter? opening closing depth c quoting with
  | none =>
      exact Or.inl fun rest => by rw [beforeClosing_eq, hnext]
  | some next =>
      exact Or.inr ⟨next.1, next.2, fun rest => by rw [beforeClosing_eq, hnext]⟩

/-- The scan ends within a text, or it reaches what follows with some brackets open. -/
theorem beforeClosing_append (opening closing : Char) (depth : Nat) (quoting : Quoting)
    (front : List Char) :
    (∃ piece, ∀ rest, beforeClosing opening closing depth quoting (front ++ rest) = piece) ∨
      ∃ depth' quoting', ∀ rest, beforeClosing opening closing depth quoting (front ++ rest) =
        front ++ beforeClosing opening closing depth' quoting' rest := by
  induction front generalizing depth quoting with
  | nil =>
      exact Or.inr ⟨depth, quoting, fun rest => rfl⟩
  | cons c tail ih =>
      rcases beforeClosing_step opening closing depth quoting c with
        hend | ⟨depth', quoting', hgoes⟩
      · exact Or.inl ⟨[], fun rest => hend (tail ++ rest)⟩
      · rcases ih depth' quoting' with ⟨piece, hpiece⟩ | ⟨depth'', quoting'', hrest⟩
        · refine Or.inl ⟨c :: piece, ?_⟩
          intro rest
          rw [List.cons_append, hgoes, hpiece]
        · refine Or.inr ⟨depth'', quoting'', ?_⟩
          intro rest
          rw [List.cons_append, hgoes, hrest, List.cons_append]

theorem beforeClosing_nil (depth : Nat) (quoting : Quoting) :
    beforeClosing opening closing depth quoting [] = [] := by
  cases depth <;> rfl

theorem beforeClosing_inside_gap (depth : Nat) (escaped : Bool) {back gap : List Char}
    (hseam : Seam back gap) :
    beforeClosing opening closing depth (.inside escaped) (gap ++ back) =
      gap ++ beforeClosing opening closing depth (.inside false) back := by
  have hstep : ∀ {c : Char}, Text.isBlank c = true → ∀ escaped rest,
      beforeClosing opening closing depth (.inside escaped) (c :: rest) =
        c :: beforeClosing opening closing depth (.inside false) rest := by
    intro c hc escaped rest
    rw [beforeClosing_inside, if_neg (Text.ne_of_isBlank hc rfl),
      if_neg (Text.ne_of_isBlank hc rfl), ite_self]
  have hpass : ∀ cs : List Char, cs.all Text.isBlank = true →
      beforeClosing opening closing depth (.inside false) (cs ++ back) =
        cs ++ beforeClosing opening closing depth (.inside false) back := by
    intro cs hcs
    induction cs with
    | nil =>
        rfl
    | cons c rest ih =>
        rw [List.all_cons, Bool.and_eq_true] at hcs
        rw [List.cons_append, hstep hcs.1, ih hcs.2, List.cons_append]
  cases hgap : gap with
  | nil =>
      rw [hseam.apart hgap, List.append_nil, beforeClosing_nil, beforeClosing_nil]
      rfl
  | cons c rest =>
      have hblank := hseam.blank
      rw [hgap, List.all_cons, Bool.and_eq_true] at hblank
      rw [List.cons_append, hstep hblank.1, hpass rest hblank.2, List.cons_append]

variable (hopening : Text.isBlank opening = false) (hclosing : Text.isBlank closing = false)

include hopening hclosing

theorem beforeClosing_gap (depth : Nat) (quoting : Quoting) (back : List Char) :
    ∃ left, (back = [] → left = []) ∧ ∀ gap, Seam back gap →
      beforeClosing opening closing depth quoting (gap ++ back) = gap ++ left := by
  cases quoting with
  | outside =>
      refine ⟨beforeClosing opening closing depth .outside back, ?_, ?_⟩
      · rintro rfl
        exact beforeClosing_nil depth _
      · intro gap hseam
        apply Written.beforeClosing_pass
        intro c hc
        have hblank := hseam.isBlank_of_mem hc
        exact ⟨Text.ne_of_isBlank hblank rfl, Text.ne_of_isBlank hblank hopening,
          Text.ne_of_isBlank hblank hclosing⟩
  | inside escaped =>
      refine ⟨beforeClosing opening closing depth (.inside false) back, ?_, ?_⟩
      · rintro rfl
        exact beforeClosing_nil depth _
      · intro gap hseam
        exact beforeClosing_inside_gap depth escaped hseam

theorem beforeClosing_cut (front back : List Char) :
    Cut front back fun gap =>
      beforeClosing opening closing 0 .outside (front ++ (gap ++ back)) := by
  rcases beforeClosing_append opening closing 0 .outside front with
    ⟨piece, hpiece⟩ | ⟨depth, quoting, hrest⟩
  · exact .before piece fun gap _ => hpiece _
  · rcases beforeClosing_gap hopening hclosing depth quoting back with ⟨left, hleft, hgap⟩
    apply Cut.across left hleft
    intro gap hseam
    rw [hrest, hgap gap hseam]

end Brackets

/-!
## Words
-/

theorem letterWords_append {rest : List Char} (hrest : rest.head?.any Text.isWordChar = false)
    (cs : List Char) : letterWords (cs ++ rest) = letterWords cs ++ letterWords rest := by
  cases rest with
  | nil =>
      rw [List.append_nil]
      exact (List.append_nil _).symm
  | cons c tail =>
      have hc : Text.isWordChar c = false := hrest
      rw [Written.letterWords_cons hc, letterWords, List.splitOnP_append_cons, List.filter_append]
      · rfl
      · rw [hc]
        rfl

theorem fixed_firstMethod (front back : List Char) :
    Fixed back fun gap => Written.firstMethod (front ++ (gap ++ back)) := by
  apply (Fixed.const ((Written.firstMethod front).or (Written.firstMethod back))).congr
  intro gap hseam
  have hgap : ∀ c ∈ gap, Text.isWordChar c = false := fun c hc =>
    Text.isWordChar_of_not_namePart (Text.isNamePart_of_isBlank (hseam.isBlank_of_mem hc))
  have hback := Written.firstMethod_pass hgap back
  rw [← hback, Written.firstMethod, letterWords_append hseam.not_word, List.findSome?_append]
  rfl

theorem isBeforeEnd_of_isBlank {c : Char} (hblank : Text.isBlank c = true) :
    Written.isBeforeEnd c = true :=
  Written.isBeforeEnd_of_class rfl rfl hblank

theorem listed_of_ne {c : Char} (hc : c ≠ '{') (rest : List Char) :
    Written.listed (c :: rest) = (c :: rest).takeWhile Written.isBeforeEnd := by
  unfold Written.listed
  split
  · rename_i heq
    exact absurd (List.cons.inj heq).1 hc
  · rfl

theorem fixed_listed (c : Char) (rest back : List Char) :
    Fixed back fun gap => Written.firstMethod (Written.listed (c :: (rest ++ (gap ++ back)))) := by
  by_cases hc : c = '{'
  · rw [hc]
    have hcut : Cut rest back fun gap => braced (rest ++ (gap ++ back)) :=
      beforeClosing_cut rfl rfl rest back
    exact hcut.fixed Written.firstMethod fun left => fixed_firstMethod rest left
  · have hcut := Text.takeWhile_cut (p := Written.isBeforeEnd)
      (fun _ => isBeforeEnd_of_isBlank) (c :: rest) back
    have hfixed := hcut.fixed Written.firstMethod fun left => fixed_firstMethod (c :: rest) left
    apply hfixed.congr
    intro gap _
    rw [listed_of_ne hc]
    rfl

theorem fixed_method? {front : List Char} (hclosed : Closed front) (back : List Char) :
    Fixed back fun gap => method? (front ++ (gap ++ back)) := by
  have hmask : back = [] → maskLiterals back = [] := LexicalView.maskLiterals_of_nil
  have hassigned := valueOf?_seam Written.areWords_methodKeys none (maskLiterals front)
    (maskLiterals back)
  have hfixed : Fixed (maskLiterals back) fun gap =>
      (valueOf? methodKeys none (maskLiterals front ++ (gap ++ maskLiterals back))).bind
        fun value => Written.firstMethod (Written.listed value) := by
    apply hassigned.fixed fun found =>
      found.bind fun value => Written.firstMethod (Written.listed value)
    intro head tail _
    apply Fixed.trimStart fun value => Written.firstMethod (Written.listed value)
    intro c rest _ _
    exact fixed_listed c rest (maskLiterals back)
  apply (hfixed.of_back hmask).congr
  intro gap hseam
  rw [Written.method?_eq, hclosed.maskLiterals_seam hseam]

/-!
## Literals
-/

theorem literalBody?_plain {c : Char} (hquote : c ≠ '"') (hslash : c ≠ '\\')
    (rest : List Char) :
    literalBody? (c :: rest) =
      (literalBody? rest).map fun found => (c :: found.1, found.2) := by
  rw [literalBody?]
  · exact hquote
  · exact fun hc _ => hslash hc
  · exact fun _ _ hc _ => hslash hc

/-- A literal that is closed ends where it is closed, whatever follows. -/
theorem exists_literalBody? {cs : List Char} (hclosed : ClosedFrom (.literal '"' false) cs) :
    ∃ content body left, cs = body ++ left ∧ Closed left ∧
      ∀ rest, literalBody? (cs ++ rest) = some (content, left ++ rest) := by
  fun_induction literalBody? cs with
  | case1 =>
      cases hclosed
  | case2 rest =>
      cases hclosed with
      | literal _ _ hrest =>
          exact ⟨[], ['"'], rest, rfl, hrest, fun _ => rfl⟩
  | case3 =>
      cases hclosed with
      | literal _ _ hrest =>
          cases hrest
  | case4 rest =>
      cases hclosed with
      | literal _ _ hrest =>
          cases hrest with
          | literal hline _ _ =>
              exact absurd rfl hline
  | case5 c rest hfeed ih =>
      cases hclosed with
      | literal _ _ hrest =>
          cases hrest with
          | literal _ _ hrest =>
              rcases ih hrest with ⟨content, body, left, hcs, hleft, hbody⟩
              refine ⟨'\\' :: c :: content, '\\' :: c :: body, left, ?_, hleft, ?_⟩
              · rw [hcs]
                rfl
              · intro behind
                rw [List.cons_append, List.cons_append, literalBody?, if_neg hfeed, hbody]
                rfl
  | case6 c rest hquote hlone hpair ih =>
      have hslash : c ≠ '\\' := by
        intro hc
        cases rest with
        | nil =>
            exact hlone hc rfl
        | cons d tail =>
            exact hpair d tail hc rfl
      cases hclosed with
      | literal hline _ hrest =>
          have hnext : LexicalView.Mode.afterLiteral '"' false c = .literal '"' false := by
            rw [LexicalView.Mode.afterLiteral, if_neg Bool.false_ne_true, if_neg hslash,
              if_neg (not_or.mpr ⟨hquote, hline⟩)]
          rw [hnext] at hrest
          rcases ih hrest with ⟨content, body, left, hcs, hleft, hbody⟩
          refine ⟨c :: content, c :: body, left, ?_, hleft, ?_⟩
          · rw [hcs]
            rfl
          · intro behind
            rw [List.cons_append, literalBody?_plain hquote hslash, hbody]
            rfl

theorem exists_occurrences_literal {mode : LexicalView.Mode} {front : List Char}
    (hclosed : ClosedFrom mode front) (hmode : ∀ escaped, mode ≠ .literal '"' escaped) :
    ∃ found : List (List Char), ∀ rest,
      (Text.occurrences literal? (front ++ rest)).map Prod.fst =
        found ++ (Text.occurrences literal? rest).map Prod.fst := by
  -- The search goes on behind a literal, so the induction is on the length.
  induction hsize : front.length using Nat.strongRecOn generalizing mode front with
  | ind size ih =>
      have hpass : ∀ {next : LexicalView.Mode} {c : Char} {tail : List Char}, c ≠ '"' →
          ClosedFrom next tail → (∀ escaped, next ≠ .literal '"' escaped) →
            (c :: tail).length = size →
              ∃ found : List (List Char), ∀ rest,
                (Text.occurrences literal? (c :: tail ++ rest)).map Prod.fst =
                  found ++ (Text.occurrences literal? rest).map Prod.fst := by
        intro next c tail hc hrest hnext hsize
        rw [List.length_cons] at hsize
        rcases ih tail.length (by omega) hrest hnext rfl with ⟨found, hfound⟩
        refine ⟨found, ?_⟩
        intro rest
        rw [List.cons_append, Text.occurrences_of_none (Written.literal?_of_ne hc _), hfound]
      cases hclosed with
      | nil =>
          exact ⟨[], fun rest => rfl⟩
      | @code c tail hopen hrest =>
          by_cases hc : c = '"'
          · have hnext : LexicalView.Mode.afterCode c = .literal '"' false := by
              rw [hc]
              decide
            rw [hnext] at hrest
            rcases exists_literalBody? hrest with ⟨content, body, left, rfl, hleft, hbody⟩
            rw [List.length_cons, List.length_append] at hsize
            rcases ih left.length (by omega) hleft (fun _ => LexicalView.Mode.noConfusion) rfl with
              ⟨found, hfound⟩
            refine ⟨content :: found, ?_⟩
            intro rest
            have hmatch : literal? (('"' :: body) ++ (left ++ rest)) =
                some (content, left ++ rest) := by
              rw [← hbody rest, ← List.append_assoc]
              rfl
            have hfirst := Text.occurrences_match (List.cons_ne_nil '"' body) hmatch
            rw [hc, List.cons_append, List.append_assoc, ← List.cons_append, hfirst,
              List.map_cons, hfound]
            rfl
          · have hnext : ∀ escaped, LexicalView.Mode.afterCode c ≠ .literal '"' escaped := by
              intro escaped hquoted
              unfold LexicalView.Mode.afterCode at hquoted
              split at hquoted
              · exact hc (LexicalView.Mode.literal.inj hquoted).1
              · cases hquoted
            exact hpass hc hrest hnext hsize
      | @literal quote escaped c tail hline hquote hrest =>
          have hsingle : quote = '\'' ∧ c ≠ '"' := by
            rcases hquote with hdouble | hsingle
            · exact absurd (by rw [hdouble]) (hmode escaped)
            · exact hsingle
          have hnext : ∀ other, LexicalView.Mode.afterLiteral quote escaped c ≠
              .literal '"' other := by
            intro other hdouble
            have hsame := LexicalView.Mode.eq_of_afterLiteral hdouble
            rw [hsingle.1] at hsame
            exact absurd hsame (by decide)
          exact hpass hsingle.2 hrest hnext hsize

theorem fixed_literals {front : List Char} (hclosed : Closed front) (back : List Char) :
    Fixed back fun gap => literals (front ++ (gap ++ back)) := by
  rcases exists_occurrences_literal hclosed (fun _ => LexicalView.Mode.noConfusion) with
    ⟨found, hfound⟩
  have hliterals : ∀ cs, literals cs =
      ((Text.occurrences literal? cs).map Prod.fst).map Text.trim := by
    intro cs
    rw [literals, List.map_map]
    rfl
  have hgap : ∀ gap, Seam back gap →
      Text.occurrences literal? (gap ++ back) = Text.occurrences literal? back := by
    intro gap hseam
    apply Text.occurrences_pass
    intro c hc after
    exact Written.literal?_of_ne (Text.ne_of_isBlank (hseam.isBlank_of_mem hc) rfl) after
  apply (Fixed.const ((found ++ (Text.occurrences literal? back).map Prod.fst).map Text.trim)).congr
  intro gap hseam
  rw [hliterals, hfound, hgap gap hseam]

/-!
## Paths
-/

theorem pathsOfValue?_trimStart (cs : List Char) :
    pathsOfValue? (Text.trimStart cs) = pathsOfValue? cs := by
  have htwice : Text.trimStart (Text.trimStart cs) = Text.trimStart cs :=
    List.dropWhile_idempotent Text.isBlank cs
  rw [pathsOfValue?, htwice]
  rfl

def orRoot : List (List Char) → List (List Char)
  | [] => [['/']]
  | paths => paths

theorem pathsOfValue?_opening (inner : List Char) :
    pathsOfValue? ('{' :: inner) = some (orRoot (literals (braced inner))) := by
  have hinner : pathsOfValue? ('{' :: inner) =
      match literals (braced inner) with
      | [] => some [['/']]
      | paths => some paths := rfl
  rw [hinner]
  cases literals (braced inner) <;> rfl

theorem pathsOfValue?_of_ne {c : Char} (hblank : Text.isBlank c = false) (hquote : c ≠ '"')
    (hopening : c ≠ '{') (rest : List Char) : pathsOfValue? (c :: rest) = none := by
  rw [pathsOfValue?, Text.trimStart_of_head (Text.head_of_cons hblank rest)]
  split
  · rename_i heq
    exact absurd (List.cons.inj heq).1 hquote
  · rename_i heq
    exact absurd (List.cons.inj heq).1 hopening
  · rfl

theorem closed_tail {c : Char} {rest : List Char} (hclosed : Closed (c :: rest))
    (hc : c ≠ '"' ∧ c ≠ '\'') : Closed rest := by
  cases hclosed with
  | code _ hrest =>
      rw [LexicalView.Mode.afterCode, if_neg (not_or.mpr hc)] at hrest
      exact hrest

theorem fixed_pathsOfValue?_cons {c : Char} {rest : List Char} (hblank : Text.isBlank c = false)
    (hclosed : Closed (c :: rest)) (back : List Char) :
    Fixed back fun gap => pathsOfValue? (c :: (rest ++ (gap ++ back))) := by
  by_cases hquote : c = '"'
  · apply ((fixed_literals hclosed back).map fun found =>
      found.head?.map fun path => [path]).congr
    intro gap _
    rw [hquote]
    rfl
  · by_cases hopening : c = '{'
    · have hrest := closed_tail hclosed ⟨hquote, by rw [hopening]; decide⟩
      have hcut : Cut rest back fun gap => braced (rest ++ (gap ++ back)) :=
        beforeClosing_cut rfl rfl rest back
      have hliterals := hcut.fixed literals fun left => fixed_literals hrest left
      apply (hliterals.map fun found => some (orRoot found)).congr
      intro gap _
      rw [hopening, pathsOfValue?_opening]
    · exact (Fixed.const none).congr fun gap _ =>
        pathsOfValue?_of_ne hblank hquote hopening _

theorem fixed_pathsOfValue? {front : List Char} (hclosed : Closed front) (back : List Char) :
    Fixed back fun gap => pathsOfValue? (front ++ (gap ++ back)) := by
  have htrimmed : Fixed back fun gap =>
      pathsOfValue? (Text.trimStart (front ++ (gap ++ back))) := by
    apply Fixed.trimStart pathsOfValue?
    intro c rest hblank hfront
    apply fixed_pathsOfValue?_cons hblank
    rw [← hfront]
    exact hclosed.trimStart
  exact htrimmed.congr fun gap _ => (pathsOfValue?_trimStart _).symm

theorem dropBytes_byteSize_add (piece rest : List Char) (n : Nat) :
    Text.dropBytes (Text.byteSize piece + n) (piece ++ rest) = Text.dropBytes n rest := by
  induction piece with
  | nil =>
      rw [Text.byteSize, Nat.zero_add]
      rfl
  | cons c tail ih =>
      have hfits : c.utf8Size ≤ c.utf8Size + Text.byteSize tail + n := by omega
      have hleft : c.utf8Size + Text.byteSize tail + n - c.utf8Size = Text.byteSize tail + n := by
        omega
      rw [Text.byteSize, List.cons_append, Text.dropBytes, if_pos hfits, hleft, ih]

/-- A place in the masked form of a text, as a place in the text. -/
theorem dropBytes_of_masked {front back piece left : List Char}
    (hpiece : piece ++ left = maskLiterals back) :
    Text.dropBytes (Text.byteSize (maskLiterals (front ++ back)) - Text.byteSize left)
      (front ++ back) = Text.dropBytes (Text.byteSize piece) back := by
  have hback : Text.byteSize back = Text.byteSize piece + Text.byteSize left := by
    rw [← LexicalView.byteSize_maskLiterals, ← hpiece, Text.byteSize_append]
  have hstart : Text.byteSize (maskLiterals (front ++ back)) - Text.byteSize left =
      Text.byteSize front + Text.byteSize piece := by
    rw [LexicalView.byteSize_maskLiterals, Text.byteSize_append, hback]
    omega
  rw [hstart, dropBytes_byteSize_add]

theorem dropBytes_of_masked_eq {front back : List Char} :
    Text.dropBytes (Text.byteSize (maskLiterals (front ++ back)) -
      Text.byteSize (maskLiterals back)) (front ++ back) = back := by
  rw [dropBytes_of_masked (List.nil_append (maskLiterals back))]
  exact Text.dropBytes_byteSize_append [] back

theorem paths?_of_some {attributes value : List Char}
    (hvalue : valueOf? pathKeys none (maskLiterals attributes) = some value) :
    paths? attributes = pathsOfValue?
      (Text.dropBytes (Text.byteSize (maskLiterals attributes) - Text.byteSize value)
        attributes) := by
  have hstart : pathValueStart? attributes =
      some (Text.byteSize (maskLiterals attributes) - Text.byteSize value) := by
    rw [pathValueStart?]
    simp only [hvalue, Option.map_some]
  rw [paths?, hstart]

def unkeyed (trimmed : List Char) : Option (List (List Char)) :=
  match trimmed with
  | '"' :: _ | '{' :: _ => pathsOfValue? trimmed
  | _ => some [['/']]

theorem paths?_of_none {attributes : List Char} (hnone : pathValueStart? attributes = none) :
    paths? attributes = unkeyed (Text.trimStart attributes) := by
  rw [paths?, hnone, ← pathsOfValue?_trimStart]
  rfl

theorem fixed_unkeyed {c : Char} {rest : List Char} (hblank : Text.isBlank c = false)
    (hclosed : Closed (c :: rest)) (back : List Char) :
    Fixed back fun gap => unkeyed (c :: (rest ++ (gap ++ back))) := by
  have hvalue := fixed_pathsOfValue?_cons hblank hclosed back
  by_cases hquote : c = '"'
  · exact hvalue.congr fun gap _ => by rw [hquote]; rfl
  · by_cases hopening : c = '{'
    · exact hvalue.congr fun gap _ => by rw [hopening]; rfl
    · apply (Fixed.const (some [['/']])).congr
      intro gap _
      unfold unkeyed
      split
      · rename_i heq
        exact absurd (List.cons.inj heq).1 hquote
      · rename_i heq
        exact absurd (List.cons.inj heq).1 hopening
      · rfl

theorem fixed_paths? {front : List Char} (hclosed : Closed front) (back : List Char) :
    Fixed back fun gap => paths? (front ++ (gap ++ back)) := by
  have hmask : back = [] → maskLiterals back = [] := LexicalView.maskLiterals_of_nil
  cases valueOf?_seam Written.areWords_pathKeys none (maskLiterals front) (maskLiterals back) with
  | nothing hnone =>
      have htrimmed : Fixed back fun gap => unkeyed (Text.trimStart (front ++ (gap ++ back))) := by
        apply Fixed.trimStart unkeyed
        intro c rest hblank hfront
        apply fixed_unkeyed hblank
        rw [← hfront]
        exact hclosed.trimStart
      apply htrimmed.congr
      intro gap hseam
      apply paths?_of_none
      rw [pathValueStart?, hclosed.maskLiterals_seam hseam]
      simp only [hnone gap (hseam.of_back hmask), Option.map_none]
  | before head tail hfront hvalue =>
      rcases hclosed.exists_cut rfl ⟨by decide, by decide⟩ hfront with
        ⟨first, rest, rfl, _, hrest, rfl⟩
      apply (fixed_pathsOfValue? hrest back).congr
      intro gap hseam
      have hfound := hvalue gap (hseam.of_back hmask)
      rw [← hclosed.maskLiterals_seam hseam, ← hrest.maskLiterals_seam hseam,
        LexicalView.trimStart_maskLiterals] at hfound
      have hsplit : first ++ '=' :: rest ++ (gap ++ back) =
          (first ++ '=' :: (rest ++ (gap ++ back)).takeWhile Text.isBlank) ++
            Text.trimStart (rest ++ (gap ++ back)) := by
        have hwhole : (rest ++ (gap ++ back)).takeWhile Text.isBlank ++
            Text.trimStart (rest ++ (gap ++ back)) = rest ++ (gap ++ back) :=
          List.takeWhile_append_dropWhile
        rw [List.append_assoc, List.append_assoc, List.cons_append, List.cons_append, hwhole]
      rw [paths?_of_some hfound, hsplit, dropBytes_of_masked_eq, pathsOfValue?_trimStart]
  | behind value hsuffix hvalue =>
      rcases hsuffix with ⟨piece, hpiece⟩
      apply (Fixed.const (pathsOfValue? (Text.dropBytes (Text.byteSize piece) back))).congr
      intro gap hseam
      have hfound := hvalue gap (hseam.of_back hmask)
      rw [← hclosed.maskLiterals_seam hseam] at hfound
      rw [paths?_of_some hfound, ← List.append_assoc, dropBytes_of_masked hpiece]

/-!
## Attribute lists
-/

theorem list?_of_ne {c : Char} (hblank : Text.isBlank c = false) (hc : c ≠ '(')
    (rest : List Char) : list? (c :: rest) = none := by
  rw [list?, Text.trimStart_of_head (Text.head_of_cons hblank rest)]
  split
  · rename_i heq
    exact absurd (List.cons.inj heq).1 hc
  · rfl

theorem list?_trimStart (cs : List Char) : list? (Text.trimStart cs) = list? cs := by
  have htwice : Text.trimStart (Text.trimStart cs) = Text.trimStart cs :=
    List.dropWhile_idempotent Text.isBlank cs
  rw [list?, htwice]
  rfl

theorem fixed_list? {α : Type} (read : Option (List Char) → α)
    (hread : ∀ inner left, Closed inner →
      Fixed left fun gap => read (some (inner ++ (gap ++ left))))
    {front : List Char} (hclosed : Closed front) (back : List Char) :
    Fixed back fun gap => read (list? (front ++ (gap ++ back))) := by
  have htrimmed : Fixed back fun gap =>
      read (list? (Text.trimStart (front ++ (gap ++ back)))) := by
    apply Fixed.trimStart fun cs => read (list? cs)
    intro c rest hblank hfront
    by_cases hc : c = '('
    · have hall := hclosed.trimStart
      rw [hfront] at hall
      have hrest := closed_tail hall (by rw [hc]; decide)
      have hcut : Cut rest back fun gap =>
          beforeClosing '(' ')' 0 .outside (rest ++ (gap ++ back)) :=
        beforeClosing_cut rfl rfl rest back
      have hinner := hcut.fixed (fun inner => read (some inner)) fun left =>
        hread rest left hrest
      apply hinner.congr
      intro gap _
      rw [hc]
      rfl
    · exact (Fixed.const (read none)).congr fun gap _ => by rw [list?_of_ne hblank hc]
  exact htrimmed.congr fun gap _ => by rw [list?_trimStart]

end Attributes
end EndpointTrace
