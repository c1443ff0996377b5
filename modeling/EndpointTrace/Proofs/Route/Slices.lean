import EndpointTrace.Proofs.Route.CommentedBlocks
import EndpointTrace.Proofs.Source.Positions
import EndpointTrace.Proofs.Source.Segments

/-!
# Slices of a block

A route is read from slices of the block: what stands behind the name of the annotation, between
its parentheses, behind a key, and in braces.  Some offsets of slices are found in a view of the
text, where a hidden character of several bytes has become several spaces.  Here the route is
read once more, and every slice fails if its offset lies beyond the text or inside a character.

No slice fails.  A name ends where a word begins or ends, and a value begins with a character
that is no white space, if it is not empty; so next to an offset that is found in a view stands
a visible character, and visible characters stand in the text where they stand in the view.
-/

namespace EndpointTrace

/-!
## Slices
-/

namespace Text

/-- An offset at which a text cannot be cut. -/
structure Miscut where
  offset : Nat
  text : List Char

/-- The text from an offset on. -/
def sliceFrom (offset : Nat) (cs : List Char) : Except Miscut (List Char) :=
  if isBoundary offset cs then .ok (dropBytes offset cs) else .error ⟨offset, cs⟩

def sliceTo (offset : Nat) (cs : List Char) : Except Miscut (List Char) :=
  if isBoundary offset cs then .ok (takeBytes offset cs) else .error ⟨offset, cs⟩

theorem isBoundary_append (before after : List Char) :
    isBoundary (byteSize before) (before ++ after) = true :=
  isBoundary_iff.mpr ⟨before, after, rfl, rfl⟩

theorem sliceFrom_of_isBoundary {offset : Nat} {cs : List Char}
    (hoffset : isBoundary offset cs = true) : sliceFrom offset cs = .ok (dropBytes offset cs) :=
  if_pos hoffset

theorem sliceFrom_append (before after : List Char) :
    sliceFrom (byteSize before) (before ++ after) = .ok after := by
  rw [sliceFrom_of_isBoundary (isBoundary_append before after), dropBytes_byteSize_append]

theorem sliceTo_append (before after : List Char) :
    sliceTo (byteSize before) (before ++ after) = .ok before := by
  rw [sliceTo, if_pos (isBoundary_append before after), takeBytes_byteSize_append]

theorem byteSize_sub {cs before left : List Char} (hsplit : before ++ left = cs) :
    byteSize cs - byteSize left = byteSize before := by
  rw [← hsplit, byteSize_append, Nat.add_sub_cancel]

theorem sliceFrom_suffix {cs left : List Char} (hleft : left <:+ cs) :
    sliceFrom (byteSize cs - byteSize left) cs = .ok left := by
  rcases hleft with ⟨before, rfl⟩
  rw [byteSize_sub rfl]
  exact sliceFrom_append before left

end Text

/-!
## Offsets in a view
-/

namespace LexicalView

variable {cs before after : List Char} {w : Char}

/-- A text can be cut where a visible character of its masked form begins. -/
theorem isBoundary_before (hspace : w ≠ ' ') (hmasked : maskLiterals cs = before ++ w :: after) :
    Text.isBoundary (Text.byteSize before) cs = true := by
  rcases exists_of_maskLiterals hspace hmasked with ⟨first, rest, rfl, hsize⟩
  rw [← hsize]
  exact Text.isBoundary_append first (w :: rest)

theorem isBoundary_behind (hspace : w ≠ ' ') (hmasked : maskLiterals cs = before ++ w :: after) :
    Text.isBoundary (Text.byteSize (before ++ [w])) cs = true := by
  rcases exists_of_maskLiterals hspace hmasked with ⟨first, rest, rfl, hsize⟩
  have hboundary := Text.isBoundary_append (first ++ [w]) rest
  rw [Text.byteSize_append, hsize, ← Text.byteSize_append, List.append_assoc] at hboundary
  exact hboundary

end LexicalView

namespace Attributes

open Text (Miscut sliceFrom sliceTo)

/-!
## Brackets
-/

section Brackets

variable (opening closing : Char)

def closingAt? : Nat → Quoting → List Char → Option Nat
  | _, _, [] => none
  | depth, quoting, c :: rest =>
      match behindCharacter? opening closing depth c quoting with
      | none => some 0
      | some (depth, quoting) => (closingAt? depth quoting rest).map (c.utf8Size + ·)

variable {opening closing}

theorem eq_closing_of_behindCharacter? {depth : Nat} {quoting : Quoting} {c : Char}
    (hnone : behindCharacter? opening closing depth c quoting = none) : c = closing := by
  by_contra hclosing
  cases quoting with
  | inside escaped =>
      cases hnone
  | outside =>
      rw [behindCharacter?, if_neg hclosing] at hnone
      split at hnone
      · cases hnone
      · split at hnone <;> cases hnone

/-- The offset of the closing bracket is the size of what stands before it. -/
theorem closingAt?_cases (depth : Nat) (quoting : Quoting) (cs : List Char) :
    closingAt? opening closing depth quoting cs = none ∧
        beforeClosing opening closing depth quoting cs = cs ∨
      ∃ inner left, cs = inner ++ closing :: left ∧
        closingAt? opening closing depth quoting cs = some (Text.byteSize inner) ∧
          beforeClosing opening closing depth quoting cs = inner := by
  induction cs generalizing depth quoting with
  | nil =>
      exact Or.inl ⟨rfl, beforeClosing_nil depth quoting⟩
  | cons c rest ih =>
      rw [beforeClosing_eq, closingAt?]
      cases hnext : behindCharacter? opening closing depth c quoting with
      | none =>
          rw [eq_closing_of_behindCharacter? hnext]
          exact Or.inr ⟨[], rest, rfl, rfl, rfl⟩
      | some next =>
          rcases next with ⟨depth', quoting'⟩
          rcases ih depth' quoting' with ⟨hnone, hall⟩ | ⟨inner, left, rfl, hsome, hinner⟩
          · left
            simp only [hnone, hall, Option.map_none, and_self]
          · right
            refine ⟨c :: inner, left, rfl, ?_, ?_⟩
            · simp only [hsome, Option.map_some]
              rfl
            · simp only [hinner]

end Brackets

def slicedBeforeClosing (opening closing : Char) (inner : List Char) :
    Except Miscut (List Char) :=
  match closingAt? opening closing 0 .outside inner with
  | some offset => sliceTo offset inner
  | none => pure inner

theorem slicedBeforeClosing_eq (opening closing : Char) (inner : List Char) :
    slicedBeforeClosing opening closing inner =
      .ok (beforeClosing opening closing 0 .outside inner) := by
  rw [slicedBeforeClosing]
  rcases @closingAt?_cases opening closing 0 .outside inner with
    ⟨hnone, hall⟩ | ⟨piece, left, rfl, hsome, hpiece⟩
  · rw [hnone, hall]
    rfl
  · rw [hsome, hpiece]
    exact Text.sliceTo_append piece (closing :: left)

def slicedList? (offset : Nat) (code : List Char) : Except Miscut (Option (List Char)) := do
  let rest ← sliceFrom offset code
  let start := Text.byteSize rest - Text.byteSize (Text.trimStart rest)
  match ← sliceFrom start rest with
  | '(' :: _ =>
      let inner ← sliceFrom (start + 1) rest
      some <$> slicedBeforeClosing '(' ')' inner
  | _ => pure none

theorem slicedList?_eq {offset : Nat} {code : List Char}
    (hoffset : Text.isBoundary offset code = true) :
    slicedList? offset code = .ok (list? (Text.dropBytes offset code)) := by
  have hrest := Text.sliceFrom_of_isBoundary hoffset
  generalize Text.dropBytes offset code = rest at hrest ⊢
  rcases Text.trimStart_suffix rest with ⟨gap, hgap⟩
  have hstart := Text.byteSize_sub hgap
  have hhead := Text.isBlank_of_mem_head?_trimStart rest
  rw [slicedList?, hrest, ← list?_trimStart]
  simp only [bind, Except.bind, hstart]
  generalize Text.trimStart rest = trimmed at hgap hhead ⊢
  rw [← hgap, Text.sliceFrom_append]
  dsimp only
  split
  · rename_i inner
    have hinner := Text.sliceFrom_append (gap ++ ['(']) inner
    rw [Text.byteSize_append, List.append_assoc] at hinner
    have hbehind : sliceFrom (Text.byteSize gap + 1) (gap ++ '(' :: inner) = .ok inner := hinner
    rw [hbehind]
    dsimp only
    rw [slicedBeforeClosing_eq]
    rfl
  · rename_i hopening
    cases trimmed with
    | nil =>
        rfl
    | cons c inner =>
        rw [list?_of_ne (hhead c rfl) fun hc => hopening inner (congrArg (· :: inner) hc)]
        rfl

/-!
## Lists in braces
-/

/-- Where a list in braces ends with which a text begins: behind its closing brace, or with the
text. -/
def bracesEnd (value : List Char) : Nat :=
  match closingAt? '{' '}' 0 .outside value.tail with
  | some offset => offset + 2
  | none => Text.byteSize value

theorem exists_sliceTo_bracesEnd (inner : List Char) :
    ∃ closing, (closing = [] ∨ closing = ['}']) ∧
      sliceTo (bracesEnd ('{' :: inner)) ('{' :: inner) =
        .ok ('{' :: (braced inner ++ closing)) := by
  rcases @closingAt?_cases '{' '}' 0 .outside inner with
    ⟨hnone, hall⟩ | ⟨piece, left, rfl, hsome, hpiece⟩
  · refine ⟨[], Or.inl rfl, ?_⟩
    have hslice := Text.sliceTo_append ('{' :: inner) []
    rw [bracesEnd, List.tail_cons, hnone, braced, hall, List.append_nil]
    rw [List.append_nil] at hslice
    exact hslice
  · refine ⟨['}'], Or.inr rfl, ?_⟩
    have hslice := Text.sliceTo_append ('{' :: (piece ++ ['}'])) left
    have hsize : Text.byteSize ('{' :: (piece ++ ['}'])) = Text.byteSize piece + 2 := by
      rw [Text.byteSize, Text.byteSize_append]
      exact Nat.add_comm _ _
    rw [hsize, List.cons_append, List.append_assoc] at hslice
    rw [bracesEnd, List.tail_cons, hsome, braced, hpiece]
    exact hslice

theorem literalBody?_append (cs : List Char) :
    literalBody? (cs ++ ['}']) =
      (literalBody? cs).map fun found => (found.1, found.2 ++ ['}']) := by
  fun_induction literalBody? cs with
  | case1 | case2 | case3 | case4 =>
      rfl
  | case5 c rest hfeed ih =>
      rw [List.cons_append, List.cons_append, literalBody?, if_neg hfeed, ih, Option.map_map,
        Option.map_map]
      rfl
  | case6 c rest hquote hlone hpair ih =>
      have hslash : c ≠ '\\' := by
        intro hc
        cases rest with
        | nil =>
            exact hlone hc rfl
        | cons d tail =>
            exact hpair d tail hc rfl
      rw [List.cons_append, literalBody?_plain hquote hslash, ih, Option.map_map, Option.map_map]
      rfl

theorem literals_append (cs : List Char) : literals (cs ++ ['}']) = literals cs := by
  have hbehind : ∀ c rest, literal? (c :: rest ++ ['}']) =
      (literal? (c :: rest)).map fun found => (found.1, found.2 ++ ['}']) := by
    intro c rest
    by_cases hc : c = '"'
    · rw [hc]
      exact literalBody?_append rest
    · rw [List.cons_append, Written.literal?_of_ne hc, Written.literal?_of_ne hc]
      rfl
  rw [literals, Text.occurrences_append hbehind, List.map_append, List.map_map, literals]
  exact List.append_nil _

theorem literals_braces {inner closing : List Char} (hclosing : closing = [] ∨ closing = ['}']) :
    literals ('{' :: (inner ++ closing)) = literals inner := by
  have hopening : literals ('{' :: (inner ++ closing)) = literals (inner ++ closing) := by
    rw [literals, Text.occurrences_of_none (Written.literal?_of_ne (by decide) _)]
    rfl
  rw [hopening]
  rcases hclosing with rfl | rfl
  · rw [List.append_nil]
  · exact literals_append inner

theorem firstMethod_braces {inner closing : List Char}
    (hclosing : closing = [] ∨ closing = ['}']) :
    Written.firstMethod ('{' :: (inner ++ closing)) = Written.firstMethod inner := by
  have hbreak : closing.head?.any Text.isWordChar = false := by
    rcases hclosing with rfl | rfl <;> rfl
  have hnone : letterWords closing = [] := by
    rcases hclosing with rfl | rfl <;> rfl
  rw [Written.firstMethod, Written.letterWords_cons rfl, letterWords_append hbreak, hnone,
    List.append_nil]
  rfl

/-!
## Values
-/

def slicedPathsOfValue? (value : List Char) : Except Miscut (Option (List (List Char))) :=
  match Text.trimStart value with
  | '"' :: rest => pure ((literals ('"' :: rest)).head?.map fun path => [path])
  | '{' :: inner => do
      let list ← sliceTo (bracesEnd ('{' :: inner)) ('{' :: inner)
      pure (some (orRoot (literals list)))
  | _ => pure none

theorem slicedPathsOfValue?_eq (value : List Char) :
    slicedPathsOfValue? value = .ok (pathsOfValue? value) := by
  have hhead := Text.isBlank_of_mem_head?_trimStart value
  rw [slicedPathsOfValue?, ← pathsOfValue?_trimStart]
  generalize Text.trimStart value = trimmed at hhead ⊢
  split
  · rfl
  · rename_i inner
    rcases exists_sliceTo_bracesEnd inner with ⟨closing, hclosing, hslice⟩
    have hpaths := pathsOfValue?_opening inner
    rw [← literals_braces hclosing] at hpaths
    rw [hslice]
    exact congrArg Except.ok hpaths.symm
  · rename_i hquote hopening
    cases trimmed with
    | nil =>
        rfl
    | cons c rest =>
        rw [pathsOfValue?_of_ne (hhead c rfl) (fun hc => hquote rest (congrArg (· :: rest) hc))
          fun hc => hopening rest (congrArg (· :: rest) hc)]
        rfl

def slicedPaths? (attributes : List Char) : Except Miscut (Option (List (List Char))) :=
  match pathValueStart? attributes with
  | some start => do
      let value ← sliceFrom start attributes
      slicedPathsOfValue? value
  | none => do
      let start := Text.byteSize attributes - Text.byteSize (Text.trimStart attributes)
      match ← sliceFrom start attributes with
      | '"' :: rest => slicedPathsOfValue? ('"' :: rest)
      | '{' :: rest => slicedPathsOfValue? ('{' :: rest)
      | _ => pure (some [['/']])

theorem isBoundary_pathValueStart? {attributes : List Char} {start : Nat}
    (hstart : pathValueStart? attributes = some start) :
    Text.isBoundary start attributes = true := by
  rcases Option.map_eq_some_iff.mp hstart with ⟨value, hvalue, rfl⟩
  rcases suffix_of_valueOf? hvalue with ⟨before, hbefore⟩
  rw [Text.byteSize_sub hbefore]
  cases value with
  | nil =>
      have hend := Text.isBoundary_append attributes []
      rw [List.append_nil] at hbefore hend
      rw [hbefore, LexicalView.byteSize_maskLiterals]
      exact hend
  | cons w rest =>
      rcases exists_of_valueOf? hvalue with ⟨left, _, hassigned⟩
      have hblank : Text.isBlank w = false := isBlank_of_assigned? hassigned w rfl
      apply LexicalView.isBoundary_before _ hbefore.symm
      rintro rfl
      cases hblank

theorem slicedPaths?_eq (attributes : List Char) :
    slicedPaths? attributes = .ok (paths? attributes) := by
  cases hstart : pathValueStart? attributes with
  | some start =>
      have hslice := Text.sliceFrom_of_isBoundary (isBoundary_pathValueStart? hstart)
      simp only [slicedPaths?, paths?, hstart, hslice]
      exact slicedPathsOfValue?_eq _
  | none =>
      have hslice := Text.sliceFrom_suffix (Text.trimStart_suffix attributes)
      rw [paths?_of_none hstart]
      simp only [slicedPaths?, hstart, hslice, bind, Except.bind]
      generalize Text.trimStart attributes = trimmed
      split
      · exact slicedPathsOfValue?_eq _
      · exact slicedPathsOfValue?_eq _
      · rename_i hquote hopening
        rw [unkeyed]
        · rfl
        · exact hquote
        · exact hopening

def slicedListed (value : List Char) : Except Miscut (List Char) :=
  match value with
  | '{' :: _ => sliceTo (bracesEnd value) value
  | _ => pure (value.takeWhile Written.isBeforeEnd)

def slicedMethod? (attributes : List Char) : Except Miscut (Option Method) := do
  let masked := LexicalView.maskLiterals attributes
  match valueOf? methodKeys none masked with
  | none => pure none
  | some found =>
      let value ← sliceFrom (Text.byteSize masked - Text.byteSize found) masked
      let listed ← slicedListed value
      pure (Written.firstMethod listed)

theorem slicedListed_eq (value : List Char) :
    ∃ listed, slicedListed value = .ok listed ∧
      Written.firstMethod listed = Written.firstMethod (Written.listed value) := by
  unfold slicedListed
  split
  · rename_i inner
    rcases exists_sliceTo_bracesEnd inner with ⟨closing, hclosing, hslice⟩
    exact ⟨_, hslice, firstMethod_braces hclosing⟩
  · rename_i hopening
    cases value with
    | nil =>
        exact ⟨_, rfl, rfl⟩
    | cons c rest =>
        rw [listed_of_ne fun hc => hopening rest (congrArg (· :: rest) hc)]
        exact ⟨_, rfl, rfl⟩

theorem slicedMethod?_eq (attributes : List Char) :
    slicedMethod? attributes = .ok (method? attributes) := by
  rw [slicedMethod?, Written.method?_eq]
  cases hvalue : valueOf? methodKeys none (LexicalView.maskLiterals attributes) with
  | none =>
      rfl
  | some value =>
      rcases slicedListed_eq value with ⟨listed, hlisted, hmethod⟩
      have hslice := Text.sliceFrom_suffix (suffix_of_valueOf? hvalue)
      simp only [hslice, bind, Except.bind, hlisted]
      exact congrArg Except.ok hmethod

/-!
## Paths
-/

theorem orRoot_ne_nil (paths : List (List Char)) : orRoot paths ≠ [] := by
  cases paths <;> exact List.cons_ne_nil _ _

theorem ne_nil_of_pathsOfValue? {value : List Char} {paths : List (List Char)}
    (hpaths : pathsOfValue? value = some paths) : paths ≠ [] := by
  rw [← pathsOfValue?_trimStart] at hpaths
  rcases hvalue : Text.trimStart value with _ | ⟨c, rest⟩
  · rw [hvalue] at hpaths
    cases hpaths
  · have hblank : Text.isBlank c = false :=
      Text.isBlank_of_mem_head?_trimStart value c (by rw [hvalue]; rfl)
    rw [hvalue] at hpaths
    by_cases hquote : c = '"'
    · rw [hquote] at hpaths
      rcases Option.map_eq_some_iff.mp hpaths with ⟨path, _, rfl⟩
      exact List.cons_ne_nil path []
    · by_cases hopening : c = '{'
      · rw [hopening, pathsOfValue?_opening] at hpaths
        cases hpaths
        exact orRoot_ne_nil _
      · rw [pathsOfValue?_of_ne hblank hquote hopening] at hpaths
        cases hpaths

theorem ne_nil_of_paths? {attributes : List Char} {paths : List (List Char)}
    (hpaths : paths? attributes = some paths) : paths ≠ [] := by
  unfold paths? at hpaths
  split at hpaths
  · exact ne_nil_of_pathsOfValue? hpaths
  · split at hpaths
    · exact ne_nil_of_pathsOfValue? hpaths
    · exact ne_nil_of_pathsOfValue? hpaths
    · cases hpaths
      exact List.cons_ne_nil _ _

end Attributes

/-!
## Routes
-/

namespace AnnotationName

theorem isBoundary_last? {names : List (List Char)} {cs name : List Char} {stop : Nat}
    (hfound : last? names (LexicalView.maskLiterals cs) = some (name, stop)) :
    Text.isBoundary stop cs = true := by
  rcases Option.map_eq_some_iff.mp hfound with ⟨⟨_, left⟩, hlast, hentry⟩
  cases hentry
  rcases exists_start_of_mem_all (List.mem_of_getLast? hlast) with
    ⟨start, ⟨before, hbefore⟩, hmatch⟩
  rcases eq_append_of_startingAt? hmatch with ⟨_, rfl⟩
  rw [← List.append_assoc] at hbefore
  rw [Text.byteSize_sub hbefore]
  rcases Text.isWordChar_of_isWordBoundary (isWordBoundary_of_startingAt? hmatch) with
    ⟨c, hend, hc⟩ | ⟨c, hnext, hc⟩
  · rcases List.getLast?_eq_some_iff.mp hend with ⟨initial, rfl⟩
    have hmasked : LexicalView.maskLiterals cs = (before ++ initial) ++ c :: left := by
      rw [← hbefore]
      simp only [List.append_assoc, List.singleton_append]
    rw [← List.append_assoc before]
    exact LexicalView.isBoundary_behind (Text.ne_space_of_isWordChar hc) hmasked
  · rcases List.head?_eq_some_iff.mp hnext with ⟨rest, rfl⟩
    exact LexicalView.isBoundary_before (Text.ne_space_of_isWordChar hc) hbefore.symm

end AnnotationName

namespace AnnotationRules

open LexicalView (blankComments codeOnly)
open Text (Miscut)

variable {rules : AnnotationRules}

theorem paths_ne_nil {block : List Char} {route : RouteMapping}
    (hroute : rules.route? block = some route) : route.paths ≠ [] := by
  rw [route?_eq] at hroute
  rcases Option.bind_eq_some_iff.mp hroute with ⟨⟨name, stop⟩, _, hdeclared⟩
  rcases Option.bind_eq_some_iff.mp hdeclared with ⟨rule, _, hrest⟩
  rcases Option.bind_eq_some_iff.mp hrest with ⟨paths, hpaths, hsome⟩
  cases hsome
  apply mt List.map_eq_nil_iff.mp
  cases hlist : Attributes.list? (Text.dropBytes stop (blankComments block)) with
  | none =>
      rw [hlist] at hpaths
      cases hpaths
      exact List.cons_ne_nil _ _
  | some attributes =>
      rw [hlist] at hpaths
      exact Attributes.ne_nil_of_paths? hpaths

variable (rules)

def slicedMethod : Option Method → Option (List Char) → Except Miscut Method
  | some method, _ => pure method
  | none, some attributes => (·.getD .get) <$> Attributes.slicedMethod? attributes
  | none, none => pure .get

def slicedDeclared? (name : List Char) (attributes : Option (List Char)) :
    Except Miscut (Option RouteMapping) :=
  match rules.mappings.find? fun rule => rule.name.toList == name with
  | none => pure none
  | some rule => do
      let method ← slicedMethod rule.method attributes
      let paths ← match attributes with
        | some attributes => Attributes.slicedPaths? attributes
        | none => pure (some [['/']])
      pure (paths.map fun paths => ⟨method, paths.map String.ofList⟩)

/-- The route declared by the last mapping annotation of a block, read from slices of it. -/
def slicedRoute? (block : List Char) : Except Miscut (Option RouteMapping) :=
  match AnnotationName.last? rules.mappingNames (codeOnly block) with
  | none => pure none
  | some (name, stop) => do
      let attributes ← Attributes.slicedList? stop (blankComments block)
      rules.slicedDeclared? name attributes

theorem slicedMethod_eq (method : Option Method) (attributes : Option (List Char)) :
    slicedMethod method attributes =
      .ok (method.getD ((attributes.bind Attributes.method?).getD .get)) := by
  cases method with
  | some method =>
      rfl
  | none =>
      cases attributes with
      | none =>
          rfl
      | some attributes =>
          rw [slicedMethod, Attributes.slicedMethod?_eq]
          rfl

theorem slicedDeclared?_eq (name : List Char) (attributes : Option (List Char)) :
    rules.slicedDeclared? name attributes = .ok (rules.declared? name attributes) := by
  rw [slicedDeclared?, declared?]
  cases rules.mappings.find? fun rule => rule.name.toList == name with
  | none =>
      rfl
  | some rule =>
      simp only [slicedMethod_eq, bind, Except.bind]
      cases attributes with
      | none =>
          rfl
      | some attributes =>
          simp only [Attributes.slicedPaths?_eq, Option.map_some, Option.getD_some]
          cases Attributes.paths? attributes <;> rfl

/-- No slice of a block fails, so a route is read from the slices as it is read from the
block. -/
theorem slicedRoute?_eq (block : List Char) :
    rules.slicedRoute? block = .ok (rules.route? block) := by
  rw [route?_eq, routeIn?, LexicalView.maskLiterals_blankComments, slicedRoute?]
  cases hfound : AnnotationName.last? rules.mappingNames (codeOnly block) with
  | none =>
      rfl
  | some found =>
      rcases found with ⟨name, stop⟩
      rw [← LexicalView.maskLiterals_blankComments] at hfound
      have hlist := Attributes.slicedList?_eq (AnnotationName.isBoundary_last? hfound)
      simp only [hlist, bind, Except.bind]
      exact rules.slicedDeclared?_eq name _

/-- A route is read from any block, by any rules: the end of its annotation, the inside of the
parentheses, the value of the path key, that of the method key and a list in braces all lie
between two characters of the text that they are cut from, and what is read has a path. -/
theorem route_of_slices (block : List Char) :
    rules.slicedRoute? block = .ok (rules.route? block) ∧
      ∀ route, rules.route? block = some route → route.paths ≠ [] :=
  ⟨rules.slicedRoute?_eq block, fun _ hroute => paths_ne_nil hroute⟩

/-- Characters of several bytes in comments and literals, an escaped quote, and a list and
parentheses that do not end. -/
def cutShort : List Char :=
  ("/* \"ж */ @org . RequestMapping // €\n (value /* 𝒳 */ = \x7b\"/ж\\\"\x7d)\", \"/ü\", " ++
    "method = RequestMethod.PUT/*").toList

theorem route_of_slices_cutShort :
    standard.slicedRoute? cutShort = .ok (standard.route? cutShort) ∧
      standard.route? cutShort = some ⟨.put, ["/ж\\\"\x7d)", "/ü"]⟩ ∧
        ["/ж\\\"\x7d)", "/ü"] ≠ [] := by
  have hroute : standard.route? cutShort = some ⟨.put, ["/ж\\\"\x7d)", "/ü"]⟩ := by
    decide +kernel
  rcases route_of_slices standard cutShort with ⟨hslices, hpaths⟩
  exact ⟨hslices, hroute, hpaths _ hroute⟩

end AnnotationRules

end EndpointTrace
