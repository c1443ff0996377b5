import EndpointTrace.Proofs.Route.Layouts
import EndpointTrace.Proofs.Text.Matching

/-!
# Reading values

A scan for brackets passes over everything but the brackets of its own kind, so it finds
the parenthesis that closes an attribute list and the brace that closes a list of values.
The literals of a layout are found in order, whatever stands between them.

From these two follows what is read from a value: the first literal of an expression that
starts with one, and every literal inside braces.
-/

namespace EndpointTrace
namespace Written

open Attributes

/-!
## Brackets
-/

def brackets : List Char := ['(', ')', '{', '}']

theorem not_bracket_of_isBlank {c : Char} (hblank : Text.isBlank c = true) :
    c ∉ brackets := by
  intro hc
  have hall : brackets.all (fun c => !Text.isBlank c) = true := by decide
  have hnot := List.all_eq_true.mp hall c hc
  rw [hblank] at hnot
  cases hnot

theorem not_bracket_of_isNamePart {c : Char} (hpart : AnnotationName.isNamePart c = true) :
    c ∉ brackets := by
  intro hc
  have hall : brackets.all (fun c => !AnnotationName.isNamePart c) = true := by decide
  have hnot := List.all_eq_true.mp hall c hc
  rw [hpart] at hnot
  cases hnot

section Brackets

variable {opening closing : Char}

theorem beforeClosing_cons {c : Char} (hquote : c ≠ '"') (hopening : c ≠ opening)
    (hclosing : c ≠ closing) (depth : Nat) (rest : List Char) :
    beforeClosing opening closing depth .outside (c :: rest) =
      c :: beforeClosing opening closing depth .outside rest := by
  cases depth <;> rw [beforeClosing, if_neg hquote, if_neg hopening, if_neg hclosing]

theorem beforeClosing_quote (depth : Nat) (rest : List Char) :
    beforeClosing opening closing depth .outside ('"' :: rest) =
      '"' :: beforeClosing opening closing depth (.inside false) rest := by
  cases depth <;> rfl

theorem beforeClosing_pass {piece : List Char}
    (hpiece : ∀ c ∈ piece, c ≠ '"' ∧ c ≠ opening ∧ c ≠ closing) (depth : Nat)
    (rest : List Char) :
    beforeClosing opening closing depth .outside (piece ++ rest) =
      piece ++ beforeClosing opening closing depth .outside rest := by
  induction piece with
  | nil =>
      rfl
  | cons c tail ih =>
      rcases hpiece c List.mem_cons_self with ⟨hquote, hopening, hclosing⟩
      have htail := ih fun d hd => hpiece d (List.mem_cons_of_mem _ hd)
      rw [List.cons_append, beforeClosing_cons hquote hopening hclosing, htail,
        List.cons_append]

theorem beforeClosing_content (literal : Literal) (depth : Nat) (rest : List Char) :
    beforeClosing opening closing depth (.inside false) (literal.content ++ '"' :: rest) =
      literal.content ++ '"' :: beforeClosing opening closing depth .outside rest := by
  induction literal with
  | nil =>
      rfl
  | cons part parts ih =>
      have hcontent : Literal.content (part :: parts) = part.text ++ Literal.content parts :=
        rfl
      rw [hcontent, List.append_assoc, List.append_assoc]
      cases part with
      | plain c allowed =>
          rw [LiteralPart.text, List.singleton_append, List.singleton_append, beforeClosing,
            if_neg Bool.false_ne_true, if_neg allowed.2.1, if_neg allowed.1]
          exact congrArg (c :: ·) ih
      | escape c allowed =>
          exact congrArg ('\\' :: c :: ·) ih

theorem beforeClosing_literal (literal : Literal) (depth : Nat) (rest : List Char) :
    beforeClosing opening closing depth .outside (literal.text ++ rest) =
      literal.text ++ beforeClosing opening closing depth .outside rest := by
  rw [literal.text_append, literal.text_append, beforeClosing_quote, beforeClosing_content]

variable (hopening : opening ∈ brackets) (hclosing : closing ∈ brackets)

include hopening hclosing

theorem beforeClosing_spaces (gap : Gap) (depth : Nat) (rest : List Char) :
    beforeClosing opening closing depth .outside (gap.spaces ++ rest) =
      gap.spaces ++ beforeClosing opening closing depth .outside rest := by
  apply beforeClosing_pass
  intro c hc
  have hblank := Gap.isBlank_of_mem hc
  have hbracket := not_bracket_of_isBlank hblank
  refine ⟨?_, ?_, ?_⟩
  · rintro rfl
    cases hblank
  · rintro rfl
    exact hbracket hopening
  · rintro rfl
    exact hbracket hclosing

/-- A scan for brackets passes over a layout without brackets of this kind. -/
theorem beforeClosing_layout {layout : Layout}
    (hmarks : ∀ placed ∈ layout, ∀ sign, placed.token = .mark sign →
      sign.char ≠ opening ∧ sign.char ≠ closing) (depth : Nat) (rest : List Char) :
    beforeClosing opening closing depth .outside (layout.text ++ rest) =
      layout.text ++ beforeClosing opening closing depth .outside rest := by
  induction layout with
  | nil =>
      rfl
  | cons placed tail ih =>
      have htail := ih fun other hother => hmarks other (List.mem_cons_of_mem _ hother)
      have htoken : ∀ rest,
          beforeClosing opening closing depth .outside (placed.token.text ++ rest) =
            placed.token.text ++ beforeClosing opening closing depth .outside rest := by
        intro rest
        cases heq : placed.token with
        | name identifier =>
            apply beforeClosing_pass
            intro c hc
            have hpart := Identifier.isNamePart_of_mem hc
            have hbracket := not_bracket_of_isNamePart hpart
            refine ⟨?_, ?_, ?_⟩
            · rintro rfl
              cases hpart
            · rintro rfl
              exact hbracket hopening
            · rintro rfl
              exact hbracket hclosing
        | literal written =>
            exact beforeClosing_literal written depth rest
        | mark sign =>
            apply beforeClosing_pass
            intro c hc
            rw [List.mem_singleton.mp hc]
            refine ⟨?_, hmarks placed List.mem_cons_self sign heq⟩
            cases sign <;> decide
      rw [Layout.text_cons, List.append_assoc, List.append_assoc,
        beforeClosing_spaces hopening hclosing, htoken, htail, List.append_assoc,
        List.append_assoc]

end Brackets

theorem list?_layout (gap : Gap) (layout : Layout) (trailing : Gap) (rest : List Char) :
    list? (gap.spaces ++ '(' :: (layout.text ++ (trailing.spaces ++ ')' :: rest))) =
      some (layout.text ++ trailing.spaces) := by
  have hopening : '(' ∈ brackets := by decide
  have hclosing : ')' ∈ brackets := by decide
  have hmarks : ∀ placed ∈ layout, ∀ sign, placed.token = .mark sign →
      sign.char ≠ '(' ∧ sign.char ≠ ')' := by
    intro placed _ sign _
    cases sign <;> decide
  have hend : beforeClosing '(' ')' 0 .outside (')' :: rest) = [] := rfl
  have hlist : ∀ cs, list? (gap.spaces ++ '(' :: cs) =
      some (beforeClosing '(' ')' 0 .outside cs) := by
    intro cs
    rw [list?, Gap.trimStart_spaces]
    rfl
  rw [hlist, beforeClosing_layout hopening hclosing hmarks,
    beforeClosing_spaces hopening hclosing, hend, List.append_nil]

theorem braced_layout {layout : Layout}
    (hmarks : ∀ placed ∈ layout, placed.token ≠ .mark .opening ∧ placed.token ≠ .mark .closing)
    (gap : Gap) (rest : List Char) :
    braced (layout.text ++ (gap.spaces ++ '}' :: rest)) = layout.text ++ gap.spaces := by
  have hopening : '{' ∈ brackets := by decide
  have hclosing : '}' ∈ brackets := by decide
  have hchars : ∀ placed ∈ layout, ∀ sign, placed.token = .mark sign →
      sign.char ≠ '{' ∧ sign.char ≠ '}' := by
    intro placed hplaced sign hsign
    have hnot := hmarks placed hplaced
    rw [hsign] at hnot
    cases sign with
    | opening =>
        exact absurd rfl hnot.1
    | closing =>
        exact absurd rfl hnot.2
    | comma | equals | dot | plus =>
        decide
  have hend : beforeClosing '{' '}' 0 .outside ('}' :: rest) = [] := rfl
  rw [braced, beforeClosing_layout hopening hclosing hchars,
    beforeClosing_spaces hopening hclosing, hend, List.append_nil]

/-!
## Literals
-/

theorem literalBody?_content (literal : Literal) (rest : List Char) :
    literalBody? (literal.content ++ '"' :: rest) = some (literal.content, rest) := by
  induction literal with
  | nil =>
      rfl
  | cons part parts ih =>
      have hcontent : Literal.content (part :: parts) = part.text ++ Literal.content parts :=
        rfl
      rw [hcontent, List.append_assoc]
      cases part with
      | plain c allowed =>
          have hbody : literalBody? (c :: (Literal.content parts ++ '"' :: rest)) =
              (literalBody? (Literal.content parts ++ '"' :: rest)).map
                fun found => (c :: found.1, found.2) := by
            rw [literalBody?]
            · exact allowed.1
            · intro hc _
              exact allowed.2.1 hc
            · intro d tail hc _
              exact allowed.2.1 hc
          rw [LiteralPart.text, List.singleton_append, hbody, ih]
          rfl
      | escape c allowed =>
          rw [LiteralPart.text, List.cons_append, List.singleton_append, literalBody?,
            if_neg allowed, ih]
          rfl

theorem literal?_text (literal : Literal) (rest : List Char) :
    literal? (literal.text ++ rest) = some (literal.content, rest) := by
  rw [literal.text_append]
  exact literalBody?_content literal rest

theorem literal?_of_ne {c : Char} (hc : c ≠ '"') (rest : List Char) :
    literal? (c :: rest) = none := by
  unfold literal?
  split
  · rename_i heq
    exact absurd (List.cons.inj heq).1 hc
  · rfl

def Token.literals : Token → List Literal
  | literal written => [written]
  | _ => []

def Layout.literals (layout : Layout) : List Literal :=
  (layout.map Placed.token).flatMap Token.literals

theorem occurrences_literal_spaces (gap : Gap) (rest : List Char) :
    Text.occurrences Attributes.literal? (gap.spaces ++ rest) =
      Text.occurrences Attributes.literal? rest := by
  apply Text.occurrences_pass
  intro c hc after
  apply literal?_of_ne
  rintro rfl
  cases Gap.isBlank_of_mem hc

theorem occurrences_literal_layout (layout : Layout) (rest : List Char) :
    (Text.occurrences Attributes.literal? (layout.text ++ rest)).map Prod.fst =
      layout.literals.map Literal.content ++
        (Text.occurrences Attributes.literal? rest).map Prod.fst := by
  induction layout with
  | nil =>
      rfl
  | cons placed tail ih =>
      have hliterals : Layout.literals (placed :: tail) =
          placed.token.literals ++ Layout.literals tail := rfl
      rw [Layout.text_cons, List.append_assoc, List.append_assoc, occurrences_literal_spaces,
        hliterals]
      cases heq : placed.token with
      | name identifier =>
          have hpass : Text.occurrences Attributes.literal?
              (identifier.chars ++ (Layout.text tail ++ rest)) =
                Text.occurrences Attributes.literal? (Layout.text tail ++ rest) := by
            apply Text.occurrences_pass
            intro c hc after
            apply literal?_of_ne
            rintro rfl
            cases Identifier.isNamePart_of_mem hc
          rw [Token.text, hpass, ih]
          rfl
      | literal written =>
          have hnonempty : written.text ≠ [] := List.cons_ne_nil _ _
          rw [Token.text, Text.occurrences_match hnonempty (literal?_text written _),
            List.map_cons, ih]
          rfl
      | mark sign =>
          have hpass : Text.occurrences Attributes.literal?
              ([sign.char] ++ (Layout.text tail ++ rest)) =
                Text.occurrences Attributes.literal? (Layout.text tail ++ rest) := by
            apply Text.occurrences_pass
            intro c hc after
            apply literal?_of_ne
            rw [List.mem_singleton.mp hc]
            cases sign <;> decide
          rw [Token.text, hpass, ih]
          rfl

theorem literals_layout (layout : Layout) (gap : Gap) :
    Attributes.literals (layout.text ++ gap.spaces) =
      layout.literals.map fun literal => Text.trim literal.content := by
  have hall := occurrences_literal_layout layout gap.spaces
  have hspaces := occurrences_literal_spaces gap []
  rw [List.append_nil] at hspaces
  rw [hspaces] at hall
  have hfirst : ∀ found : List (List Char × List Char),
      (found.map fun answer => Text.trim answer.1) = (found.map Prod.fst).map Text.trim := by
    intro found
    rw [List.map_map]
    rfl
  rw [Attributes.literals, hfirst, hall, List.map_append, List.map_map]
  exact List.append_nil _

/-!
## What is read from a value
-/

def Operand.literals : Operand → List Literal
  | literal written => [written]
  | constant _ _ => []

def Expression.literals (expression : Expression) : List Literal :=
  (expression.first :: expression.rest).flatMap Operand.literals

/-- The literals that are read from a value: the one an expression starts with, or all that
stand between braces. -/
def Value.taken? : Value → Option (List Literal)
  | single ⟨.literal written, _⟩ => some [written]
  | single ⟨.constant _ _, _⟩ => none
  | list expressions => some (expressions.flatMap Expression.literals)

theorem Expression.literals_tokens (expression : Expression) :
    expression.tokens.flatMap Token.literals = expression.literals := by
  have hoperand : ∀ operand : Operand,
      operand.tokens.flatMap Token.literals = operand.literals := by
    intro operand
    cases operand with
    | literal written =>
        rfl
    | constant first rest =>
        apply List.flatMap_eq_nil_iff.mpr
        intro token htoken
        rcases List.mem_cons.mp htoken with rfl | htoken
        · rfl
        · rcases List.mem_flatMap.mp htoken with ⟨identifier, _, htoken⟩
          rcases List.mem_cons.mp htoken with rfl | htoken
          · rfl
          · rw [List.mem_singleton.mp htoken]
            rfl
  have hjoined : ∀ operand : Operand,
      (Token.mark .plus :: operand.tokens).flatMap Token.literals = operand.literals :=
    hoperand
  rw [Expression.tokens, List.flatMap_append, List.flatMap_assoc, hoperand]
  simp only [hjoined]
  rfl

theorem pathsOfValue?_spaces (gap : Gap) (rest : List Char) :
    pathsOfValue? (gap.spaces ++ rest) = pathsOfValue? rest := by
  rw [pathsOfValue?, Gap.trimStart_spaces]
  rfl

theorem pathsOfValue?_literal (literal : Literal) (rest : List Char) :
    pathsOfValue? (literal.text ++ rest) = some [Text.trim literal.content] := by
  have hnonempty : literal.text ≠ [] := List.cons_ne_nil _ _
  have hvalue : pathsOfValue? (literal.text ++ rest) =
      (Attributes.literals (literal.text ++ rest)).head?.map fun path => [path] := by
    rw [literal.text_append]
    rfl
  rw [hvalue, Attributes.literals,
    Text.occurrences_match hnonempty (literal?_text literal rest)]
  rfl

theorem pathsOfValue?_name (identifier : Identifier) (rest : List Char) :
    pathsOfValue? (identifier.chars ++ rest) = none := by
  rw [pathsOfValue?, identifier.trimStart_chars]
  rcases identifier.exists_cons with ⟨c, tail, hchars, hpart⟩
  rw [hchars]
  split
  · rename_i heq
    rw [(List.cons.inj heq).1] at hpart
    cases hpart
  · rename_i heq
    rw [(List.cons.inj heq).1] at hpart
    cases hpart
  · rfl

theorem pathsOfValue?_braces {inner : List Char} {literals : List Literal}
    (hinner : Attributes.literals (braced inner) =
      literals.map fun literal => Text.trim literal.content) :
    (pathsOfValue? ('{' :: inner)).map (List.map String.ofList) = some (pathsOf literals) := by
  have htrim : Text.trimStart ('{' :: inner) = '{' :: inner := rfl
  rw [pathsOfValue?, htrim]
  simp only [hinner]
  cases literals with
  | nil =>
      rfl
  | cons first rest =>
      exact congrArg some (congrArg (first.path :: ·) (List.map_map ..))

theorem not_brace_of_mem {layout : Layout} {expressions : List Expression}
    (hlayout : layout.map Placed.token = commaSeparated (expressions.map Expression.tokens))
    {placed : Placed} (hplaced : placed ∈ layout) :
    placed.token ≠ .mark .opening ∧ placed.token ≠ .mark .closing := by
  have hmem : placed.token ∈ commaSeparated (expressions.map Expression.tokens) :=
    hlayout ▸ List.mem_map_of_mem hplaced
  have hsign : ∀ sign, placed.token = .mark sign →
      sign = .comma ∨ sign = .dot ∨ sign = .plus := by
    intro sign heq
    rw [heq] at hmem
    rcases mem_commaSeparated hmem with hcomma | ⟨item, hitem, htoken⟩
    · exact Or.inl (Token.mark.inj hcomma)
    · rcases List.mem_map.mp hitem with ⟨expression, _, rfl⟩
      exact Or.inr (Expression.mark_of_mem htoken)
  constructor
  · intro heq
    rcases hsign .opening heq with hnot | hnot | hnot <;> cases hnot
  · intro heq
    rcases hsign .closing heq with hnot | hnot | hnot <;> cases hnot

/-- What is read from a value does not depend on what follows it. -/
theorem pathsOfValue?_layout {layout : Layout} {value : Value}
    (hvalue : layout.map Placed.token = value.tokens) (rest : List Char) :
    (pathsOfValue? (layout.text ++ rest)).map (List.map String.ofList) =
      value.taken?.map pathsOf := by
  cases value with
  | single expression =>
      rcases expression with ⟨first, more⟩
      cases first with
      | literal written =>
          rcases List.map_eq_cons_iff.mp hvalue with ⟨placed, tail, rfl, htoken, _⟩
          rw [Layout.text_cons, List.append_assoc, List.append_assoc, pathsOfValue?_spaces,
            htoken, Token.text, pathsOfValue?_literal]
          rfl
      | constant first others =>
          rcases List.map_eq_cons_iff.mp hvalue with ⟨placed, tail, rfl, htoken, _⟩
          rw [Layout.text_cons, List.append_assoc, List.append_assoc, pathsOfValue?_spaces,
            htoken, Token.text, pathsOfValue?_name]
          rfl
  | list expressions =>
      rcases List.map_eq_append_iff.mp hvalue with ⟨front, back, rfl, hfront, hback⟩
      rcases List.map_eq_cons_iff.mp hfront with ⟨opened, inner, rfl, hopened, hinner⟩
      rcases List.map_eq_singleton_iff.mp hback with ⟨closed, rfl, hclosed⟩
      have hliterals : Layout.literals inner = expressions.flatMap Expression.literals := by
        rw [Layout.literals, hinner, flatMap_commaSeparated rfl, List.flatMap_map]
        simp only [Expression.literals_tokens]
      have htext : Layout.text (opened :: inner ++ [closed]) ++ rest = opened.gap.spaces ++
          '{' :: (Layout.text inner ++ (closed.gap.spaces ++ '}' :: rest)) := by
        rw [Layout.text_append, Layout.text_cons, Layout.text_cons, hopened, hclosed]
        simp only [List.append_assoc]
        rfl
      have hbraced := braced_layout (fun placed => not_brace_of_mem hinner) closed.gap rest
      rw [htext, pathsOfValue?_spaces, Value.taken?, ← hliterals]
      apply pathsOfValue?_braces
      rw [hbraced, literals_layout]

end Written
end EndpointTrace
