import EndpointTrace.Proofs.Route.ValueScans
import Mathlib.Data.List.Chain

/-!
# Searching for keys

The search for a key looks at every word of an attribute list whose literals are hidden.
In a written list a word stands before an equals sign only if it is the key of an attribute,
so the search passes over every value and ends at the first attribute with a wanted key.
-/

namespace EndpointTrace
namespace Written

open Attributes

/-!
## One word
-/

def assigned? (cs : List Char) : Option (List Char) :=
  match Text.trimStart cs with
  | '=' :: value => some (Text.trimStart value)
  | _ => none

theorem valueAt?_eq (keys : List (List Char)) (cs : List Char) :
    valueAt? keys cs = keys.findSome? fun key => (Text.after? key cs).bind assigned? := by
  unfold valueAt?
  congr 1
  funext key
  cases Text.after? key cs with
  | none =>
      rfl
  | some left =>
      unfold assigned?
      simp only [Option.map_some, Option.bind_some]
      split
      · rename_i heq
        rw [Option.some.inj heq]
        rfl
      · rename_i hnot
        split
        · rename_i heq
          exact absurd (congrArg some heq) (hnot _)
        · rfl

theorem assigned?_spaces (gap : Gap) (rest : List Char) :
    assigned? (gap.spaces ++ rest) = assigned? rest := by
  rw [assigned?, Gap.trimStart_spaces]
  rfl

theorem assigned?_equals (rest : List Char) :
    assigned? ('=' :: rest) = some (Text.trimStart rest) :=
  rfl

theorem assigned?_of_ne {c : Char} (hblank : Text.isBlank c = false) (hc : c ≠ '=')
    (rest : List Char) : assigned? (c :: rest) = none := by
  have htrim : Text.trimStart (c :: rest) = c :: rest :=
    List.dropWhile_cons_of_neg (by rw [hblank]; exact Bool.false_ne_true)
  rw [assigned?, htrim]
  split
  · rename_i heq
    exact absurd (List.cons.inj heq).1 hc
  · rfl

def AreWords (keys : List (List Char)) : Prop :=
  ∀ key ∈ keys, key ≠ [] ∧ key.all Text.isWordChar = true

theorem areWords_pathKeys : AreWords pathKeys := by
  unfold AreWords
  decide

theorem areWords_methodKeys : AreWords methodKeys := by
  unfold AreWords
  decide

/-- The text does not go on with a character of a name. -/
def Breaks (rest : List Char) : Prop :=
  rest.head?.any AnnotationName.isNamePart = false

theorem Breaks.not_word {rest : List Char} (hrest : Breaks rest) :
    rest.head?.any Text.isWordChar = false := by
  cases rest with
  | nil =>
      rfl
  | cons c tail =>
      exact Text.isWordChar_of_not_namePart hrest

theorem breaks_spaces (gap : Gap) {rest : List Char} (hrest : Breaks rest) :
    Breaks (gap.spaces ++ rest) := by
  cases hspaces : gap.spaces with
  | nil =>
      exact hrest
  | cons c tail =>
      have hblank : Text.isBlank c = true := by
        have hc : c ∈ gap.spaces := by
          rw [hspaces]
          exact List.mem_cons_self
        exact Gap.isBlank_of_mem hc
      exact Text.isNamePart_of_isBlank hblank

section Keys

variable {keys : List (List Char)} (hkeys : AreWords keys)

include hkeys

theorem valueAt?_name {chars rest : List Char}
    (hchars : chars.all AnnotationName.isNamePart = true) (hrest : Breaks rest) :
    valueAt? keys (chars ++ rest) = if chars ∈ keys then assigned? rest else none := by
  rw [valueAt?_eq]
  apply Text.findSome?_eq_ite
  intro key hkey
  cases hafter : Text.after? key (chars ++ rest) with
  | none =>
      have hne : key ≠ chars := by
        rintro rfl
        rw [Text.after?_append] at hafter
        cases hafter
      rw [if_neg hne]
      rfl
  | some left =>
      rcases Text.append_of_after? (hkeys key hkey).2 hrest.not_word hafter with
        ⟨more, rfl, rfl⟩
      cases more with
      | nil =>
          rw [List.append_nil, if_pos rfl]
          rfl
      | cons c tail =>
          have hc : AnnotationName.isNamePart c = true := by
            apply List.all_eq_true.mp hchars
            exact List.mem_append_right key List.mem_cons_self
          have hne : key ≠ key ++ c :: tail := by
            intro heq
            cases List.append_right_eq_self.mp heq.symm
          have hequals : c ≠ '=' := by
            rintro rfl
            cases hc
          rw [if_neg hne]
          exact assigned?_of_ne (Text.isBlank_of_isNamePart hc) hequals _

theorem valueOf?_cons {c : Char} (hc : Text.isWordChar c = false) (before : Option Char)
    (rest : List Char) :
    valueOf? keys before (c :: rest) = valueOf? keys none rest := by
  have hhere : valueAt? keys (c :: rest) = none := by
    rw [valueAt?_eq]
    apply List.findSome?_eq_none_iff.mpr
    intro key hkey
    have hbreak : (c :: rest).head?.any Text.isWordChar = false := hc
    cases hafter : Text.after? key ([] ++ c :: rest) with
    | none =>
        exact congrArg (Option.bind · assigned?) hafter
    | some left =>
        rcases Text.append_of_after? (hkeys key hkey).2 hbreak hafter with ⟨more, hnil, _⟩
        exact absurd (List.append_eq_nil_iff.mp hnil.symm).1 (hkeys key hkey).1
  have hafter : valueOf? keys (some c) rest = valueOf? keys none rest := by
    cases rest with
    | nil =>
        rfl
    | cons d tail =>
        rw [valueOf?, valueOf?, Option.any_some, hc]
        rfl
  rw [valueOf?, hhere, ite_self, Option.none_or, hafter]

theorem valueOf?_pass {piece : List Char}
    (hpiece : ∀ c ∈ piece, Text.isWordChar c = false) (rest : List Char) :
    valueOf? keys none (piece ++ rest) = valueOf? keys none rest := by
  induction piece with
  | nil =>
      rfl
  | cons c tail ih =>
      rw [List.cons_append, valueOf?_cons hkeys (hpiece c List.mem_cons_self)]
      exact ih fun d hd => hpiece d (List.mem_cons_of_mem _ hd)

theorem valueOf?_spaces (gap : Gap) (rest : List Char) :
    valueOf? keys none (gap.spaces ++ rest) = valueOf? keys none rest := by
  apply valueOf?_pass hkeys
  intro c hc
  exact Text.isWordChar_of_not_namePart
    (Text.isNamePart_of_isBlank (Gap.isBlank_of_mem hc))

theorem valueOf?_of_breaks {rest : List Char} (hrest : Breaks rest) (before : Option Char) :
    valueOf? keys before rest = valueOf? keys none rest := by
  cases rest with
  | nil =>
      rfl
  | cons c tail =>
      rw [valueOf?_cons hkeys hrest.not_word, valueOf?_cons hkeys hrest.not_word]

theorem valueOf?_name {chars rest : List Char}
    (hchars : chars.all AnnotationName.isNamePart = true) (hrest : Breaks rest)
    (hassigned : assigned? rest = none) (before : Option Char) :
    valueOf? keys before (chars ++ rest) = valueOf? keys none rest := by
  induction chars generalizing before with
  | nil =>
      exact valueOf?_of_breaks hkeys hrest before
  | cons c tail ih =>
      have hhere : valueAt? keys (c :: tail ++ rest) = none := by
        rw [valueAt?_name hkeys hchars hrest, hassigned, ite_self]
      rw [List.all_cons, Bool.and_eq_true] at hchars
      rw [List.cons_append] at hhere ⊢
      rw [valueOf?, hhere, ite_self, Option.none_or, ih hchars.2]

theorem valueOf?_inside {chars rest : List Char} (hchars : chars.all Text.isWordChar = true)
    (hrest : Breaks rest) {before : Char} (hbefore : Text.isWordChar before = true) :
    valueOf? keys (some before) (chars ++ rest) = valueOf? keys none rest := by
  induction chars generalizing before with
  | nil =>
      exact valueOf?_of_breaks hkeys hrest (some before)
  | cons c tail ih =>
      rw [List.all_cons, Bool.and_eq_true] at hchars
      rw [List.cons_append, valueOf?, Option.any_some, hbefore, if_pos rfl, Option.none_or,
        ih hchars.2 hchars.1]

theorem valueOf?_word (word : Word) (gap : Gap) (rest : List Char) :
    valueOf? keys none (word.chars ++ (gap.spaces ++ '=' :: rest)) =
      if word.chars ∈ keys then some (Text.trimStart rest) else valueOf? keys none rest := by
  have hbreaks : Breaks (gap.spaces ++ '=' :: rest) := breaks_spaces gap rfl
  have hassigned : assigned? (gap.spaces ++ '=' :: rest) = some (Text.trimStart rest) := by
    rw [assigned?_spaces, assigned?_equals]
  have hhere := valueAt?_name hkeys word.identifier.parts hbreaks
  have hparts := word.parts
  change valueAt? keys (word.chars ++ _) = if word.chars ∈ keys then _ else none at hhere
  cases hchars : word.chars with
  | nil =>
      exact absurd hchars word.nonempty
  | cons c tail =>
      rw [hchars] at hhere hparts
      rw [List.all_cons, Bool.and_eq_true] at hparts
      rw [List.cons_append] at hhere ⊢
      rw [valueOf?, hhere, hassigned, Option.any_none, if_neg Bool.false_ne_true,
        valueOf?_inside hkeys hparts.2 hbreaks hparts.1, valueOf?_spaces hkeys,
        valueOf?_cons hkeys rfl]
      by_cases hmem : c :: tail ∈ keys
      · rw [if_pos hmem, if_pos hmem]
        rfl
      · rw [if_neg hmem, if_neg hmem]
        rfl

end Keys

/-!
## Values
-/

/-- No two names stand side by side, and no equals sign follows a name. -/
structure Flat (tokens : List Token) : Prop where
  apart : tokens.IsChain fun first second => ∀ a b, first = .name a → second ≠ .name b
  unassigned : Token.mark .equals ∉ tokens

namespace Flat

theorem nil : Flat [] where
  apart := .nil
  unassigned := List.not_mem_nil

theorem name (identifier : Identifier) : Flat [.name identifier] where
  apart := .singleton _
  unassigned := by
    intro hmem
    cases List.mem_singleton.mp hmem

theorem literal (written : Literal) : Flat [.literal written] where
  apart := .singleton _
  unassigned := by
    intro hmem
    cases List.mem_singleton.mp hmem

theorem tail {token : Token} {rest : List Token} (hflat : Flat (token :: rest)) :
    Flat rest where
  apart := (List.isChain_cons.mp hflat.apart).2
  unassigned := fun hmem => hflat.unassigned (List.mem_cons_of_mem token hmem)

theorem append_mark {first second : List Token} (hfirst : Flat first) (hsecond : Flat second)
    {sign : Mark} (hsign : sign ≠ .equals) : Flat (first ++ .mark sign :: second) where
  apart := by
    apply hfirst.apart.append
    · apply List.isChain_cons.mpr
      refine ⟨?_, hsecond.apart⟩
      intro token _ a b hname
      cases hname
    · intro token _ other hother a b _
      rw [List.head?_cons] at hother
      rw [← Option.some.inj hother]
      exact Token.noConfusion
  unassigned := by
    intro hmem
    rcases List.mem_append.mp hmem with hmem | hmem
    · exact hfirst.unassigned hmem
    · rcases List.mem_cons.mp hmem with hmem | hmem
      · exact hsign (Token.mark.inj hmem).symm
      · exact hsecond.unassigned hmem

theorem append_flatMap {α : Type} {tokens : α → List Token} {items : List α}
    (hitems : ∀ item ∈ items, Flat (tokens item)) {sign : Mark} (hsign : sign ≠ .equals)
    {first : List Token} (hfirst : Flat first) :
    Flat (first ++ items.flatMap fun item => .mark sign :: tokens item) := by
  induction items generalizing first with
  | nil =>
      rw [List.flatMap_nil, List.append_nil]
      exact hfirst
  | cons item rest ih =>
      have hnext := hfirst.append_mark (hitems item List.mem_cons_self) hsign
      have hall := ih (fun other hother => hitems other (List.mem_cons_of_mem _ hother)) hnext
      rw [List.append_assoc] at hall
      exact hall

theorem commaSeparated {items : List (List Token)} (hitems : ∀ item ∈ items, Flat item) :
    Flat (Written.commaSeparated items) := by
  cases items with
  | nil =>
      exact nil
  | cons first rest =>
      apply append_flatMap
      · exact fun item hitem => hitems item (List.mem_cons_of_mem first hitem)
      · exact Mark.noConfusion
      · exact hitems first List.mem_cons_self

theorem inBraces {items : List (List Token)} (hitems : ∀ item ∈ items, Flat item) :
    Flat (Written.inBraces items) := by
  have hopened : Flat (.mark .opening :: Written.commaSeparated items) :=
    nil.append_mark (commaSeparated hitems) Mark.noConfusion
  exact hopened.append_mark nil Mark.noConfusion

theorem expression (written : Expression) : Flat written.tokens := by
  have hoperand : ∀ operand : Operand, Flat operand.tokens := by
    intro operand
    cases operand with
    | literal written =>
        exact literal written
    | constant first rest =>
        exact append_flatMap (fun identifier _ => name identifier) Mark.noConfusion (name first)
  exact append_flatMap (fun operand _ => hoperand operand) Mark.noConfusion
    (hoperand written.first)

theorem value (written : Value) : Flat written.tokens := by
  cases written with
  | single written =>
      exact expression written
  | list expressions =>
      apply inBraces
      intro item hitem
      rcases List.mem_map.mp hitem with ⟨written, _, rfl⟩
      exact expression written

theorem methodName (written : MethodName) : Flat written.tokens := by
  unfold MethodName.tokens
  split
  · exact (name _).append_mark (name _) Mark.noConfusion
  · exact name _

theorem methodValue (written : MethodValue) : Flat written.tokens := by
  cases written with
  | single written =>
      exact methodName written
  | list names =>
      apply inBraces
      intro item hitem
      rcases List.mem_map.mp hitem with ⟨written, _, rfl⟩
      exact methodName written

theorem valueTokens (entry : Attribute) : Flat entry.valueTokens := by
  cases entry with
  | path key written =>
      exact value written
  | method written =>
      exact methodValue written
  | other key different written =>
      exact value written

end Flat

/-- Nothing that follows makes a key or a longer name of a name. -/
structure Closed (rest : List Char) : Prop where
  breaks : Breaks rest
  unassigned : assigned? rest = none

theorem closed_nil : Closed [] where
  breaks := rfl
  unassigned := rfl

theorem closed_spaces (gap : Gap) {rest : List Char} (hrest : Closed rest) :
    Closed (gap.spaces ++ rest) where
  breaks := breaks_spaces gap hrest.breaks
  unassigned := by
    rw [assigned?_spaces, hrest.unassigned]

theorem closed_gap (gap : Gap) : Closed gap.spaces := by
  have hspaces := closed_spaces gap closed_nil
  rw [List.append_nil] at hspaces
  exact hspaces

theorem closed_of_cons {c : Char} (hpart : AnnotationName.isNamePart c = false)
    (hblank : Text.isBlank c = false) (hc : c ≠ '=') (rest : List Char) :
    Closed (c :: rest) where
  breaks := hpart
  unassigned := assigned?_of_ne hblank hc rest

theorem closed_comma (rest : List Char) : Closed (',' :: rest) :=
  closed_of_cons rfl rfl (by decide) rest

theorem closed_token {token : Token} (hname : ∀ identifier, token ≠ .name identifier)
    (hequals : token ≠ .mark .equals) (rest : List Char) :
    Closed (token.masked ++ rest) := by
  cases token with
  | name identifier =>
      exact absurd rfl (hname identifier)
  | literal written =>
      exact closed_of_cons rfl rfl (by decide) _
  | mark sign =>
      cases sign with
      | equals =>
          exact absurd rfl hequals
      | comma | dot | plus | opening | closing =>
          exact closed_of_cons rfl rfl (by decide) rest

theorem Flat.closed_tail {placed : Placed} {tail : Layout}
    (hflat : Flat ((placed :: tail).map Placed.token)) {identifier : Identifier}
    (hname : placed.token = .name identifier) {rest : List Char} (hrest : Closed rest) :
    Closed (tail.masked ++ rest) := by
  cases tail with
  | nil =>
      exact hrest
  | cons next more =>
      rw [Layout.masked_cons, List.append_assoc, List.append_assoc]
      apply closed_spaces
      apply closed_token
      · intro other hother
        exact (List.isChain_cons_cons.mp hflat.apart).1 identifier other hname hother
      · intro hequals
        apply hflat.unassigned
        rw [← hequals]
        exact List.mem_cons_of_mem _ List.mem_cons_self

section Keys

variable {keys : List (List Char)} (hkeys : AreWords keys)

include hkeys

theorem valueOf?_layout {layout : Layout} (hflat : Flat (layout.map Placed.token))
    {rest : List Char} (hrest : Closed rest) :
    valueOf? keys none (layout.masked ++ rest) = valueOf? keys none rest := by
  induction layout with
  | nil =>
      rfl
  | cons placed tail ih =>
      rw [Layout.masked_cons, List.append_assoc, List.append_assoc, valueOf?_spaces hkeys,
        ← ih hflat.tail]
      cases heq : placed.token with
      | name identifier =>
          -- What follows the name decides whether it is a key, so the next token counts.
          have hclosed := hflat.closed_tail heq hrest
          exact valueOf?_name hkeys identifier.parts hclosed.breaks hclosed.unassigned none
      | literal written =>
          apply valueOf?_pass hkeys
          intro c hc
          exact Literal.isWordChar_of_mem_masked hc
      | mark sign =>
          apply valueOf?_pass hkeys
          intro c hc
          rw [List.mem_singleton.mp hc]
          cases sign <;> rfl

theorem valueOf?_flat {layout : Layout} (hflat : Flat (layout.map Placed.token)) (gap : Gap) :
    valueOf? keys none (layout.masked ++ gap.spaces) = none := by
  have hspaces := valueOf?_spaces hkeys gap []
  rw [List.append_nil] at hspaces
  rw [valueOf?_layout hkeys hflat (closed_gap gap), hspaces]
  rfl

/-!
## Attribute lists
-/

theorem valueOf?_attribute (entry : Attribute) {layout : Layout}
    (hlayout : layout.map Placed.token = entry.tokens) (rest : List Char) :
    ∃ earlier value, layout = earlier ++ value ∧
      value.map Placed.token = entry.valueTokens ∧
      valueOf? keys none (layout.masked ++ rest) =
        if entry.key.chars ∈ keys then some (Text.trimStart (Layout.masked value ++ rest))
        else valueOf? keys none (Layout.masked value ++ rest) := by
  rcases List.map_eq_cons_iff.mp hlayout with ⟨key, tail, rfl, hkey, htail⟩
  rcases List.map_eq_cons_iff.mp htail with ⟨equals, value, rfl, hequals, hvalue⟩
  refine ⟨[key, equals], value, rfl, hvalue, ?_⟩
  have hmasked : Layout.masked (key :: equals :: value) ++ rest = key.gap.spaces ++
      (entry.key.chars ++ (equals.gap.spaces ++ '=' :: (Layout.masked value ++ rest))) := by
    rw [Layout.masked_cons, Layout.masked_cons, hkey, hequals]
    simp only [List.append_assoc]
    rfl
  rw [hmasked, valueOf?_spaces hkeys, valueOf?_word hkeys]

theorem valueOf?_others {attributes : List Attribute}
    (hothers : ∀ entry ∈ attributes, entry.key.chars ∉ keys) {layout : Layout}
    (hlayout : layout.map Placed.token =
      (attributes.map Attribute.tokens).flatMap (· ++ [.mark .comma])) (rest : List Char) :
    valueOf? keys none (layout.masked ++ rest) = valueOf? keys none rest := by
  induction attributes generalizing layout with
  | nil =>
      rw [List.map_eq_nil_iff.mp hlayout]
      rfl
  | cons entry more ih =>
      rw [List.map_cons, List.flatMap_cons] at hlayout
      rcases List.map_eq_append_iff.mp hlayout with ⟨front, back, rfl, hfront, hback⟩
      rcases List.map_eq_append_iff.mp hfront with ⟨first, last, rfl, hfirst, hlast⟩
      rcases List.map_eq_singleton_iff.mp hlast with ⟨comma, rfl, hcomma⟩
      have hmore := ih (fun other hother => hothers other (List.mem_cons_of_mem _ hother)) hback
      have hmasked : Layout.masked (first ++ [comma] ++ back) ++ rest = Layout.masked first ++
          (comma.gap.spaces ++ ',' :: (Layout.masked back ++ rest)) := by
        rw [Layout.masked_append, Layout.masked_append, Layout.masked_cons, hcomma]
        simp only [List.append_assoc]
        rfl
      have hclosed : Closed (comma.gap.spaces ++ ',' :: (Layout.masked back ++ rest)) :=
        closed_spaces comma.gap (closed_comma _)
      rcases valueOf?_attribute hkeys entry hfirst
        (comma.gap.spaces ++ ',' :: (Layout.masked back ++ rest)) with
        ⟨earlier, value, rfl, hvalue, hfound⟩
      rw [hmasked, hfound, if_neg (hothers entry List.mem_cons_self),
        valueOf?_layout hkeys (hvalue ▸ Flat.valueTokens entry) hclosed,
        valueOf?_spaces hkeys, valueOf?_cons hkeys rfl, hmore]

theorem valueOf?_absent {attributes : List Attribute}
    (habsent : ∀ entry ∈ attributes, entry.key.chars ∉ keys) {layout : Layout}
    (hlayout : layout.map Placed.token = commaSeparated (attributes.map Attribute.tokens))
    (gap : Gap) : valueOf? keys none (layout.masked ++ gap.spaces) = none := by
  rcases List.eq_nil_or_concat' attributes with rfl | ⟨before, entry, rfl⟩
  · apply valueOf?_flat hkeys
    rw [hlayout]
    exact Flat.nil
  · rw [List.map_append, List.map_singleton, commaSeparated_append] at hlayout
    rcases List.map_eq_append_iff.mp hlayout with ⟨front, back, rfl, hfront, hback⟩
    have hentry : back.map Placed.token = entry.tokens := by
      rw [hback, List.flatMap_nil, List.append_nil]
    have hother : entry.key.chars ∉ keys :=
      habsent entry (List.mem_append_right before List.mem_cons_self)
    rcases valueOf?_attribute hkeys entry hentry gap.spaces with
      ⟨earlier, value, rfl, hvalue, hfound⟩
    rw [Layout.masked_append, List.append_assoc,
      valueOf?_others hkeys (fun other hmem => habsent other (List.mem_append_left _ hmem))
        hfront,
      hfound, if_neg hother, valueOf?_flat hkeys (hvalue ▸ Flat.valueTokens entry)]

/-- The search of a list ends at the value of the first attribute with a wanted key. -/
theorem valueOf?_present {before after : List Attribute} {entry : Attribute}
    (hbefore : ∀ other ∈ before, other.key.chars ∉ keys) (hentry : entry.key.chars ∈ keys)
    {layout : Layout}
    (hlayout : layout.map Placed.token =
      commaSeparated ((before ++ entry :: after).map Attribute.tokens)) (gap : Gap) :
    ∃ earlier value later, layout = earlier ++ (value ++ later) ∧
      value.map Placed.token = entry.valueTokens ∧
      (∀ token ∈ (later.map Placed.token).head?, token = .mark .comma) ∧
      valueOf? keys none (layout.masked ++ gap.spaces) =
        some (Text.trimStart (Layout.masked (value ++ later) ++ gap.spaces)) := by
  rw [List.map_append, List.map_cons, commaSeparated_append] at hlayout
  rcases List.map_eq_append_iff.mp hlayout with ⟨front, back, rfl, hfront, hback⟩
  rcases List.map_eq_append_iff.mp hback with ⟨written, later, rfl, hwritten, hlater⟩
  rcases valueOf?_attribute hkeys entry hwritten (Layout.masked later ++ gap.spaces) with
    ⟨earlier, value, rfl, hvalue, hfound⟩
  refine ⟨front ++ earlier, value, later, ?_, hvalue, ?_, ?_⟩
  · rw [List.append_assoc, List.append_assoc]
  · intro token htoken
    rw [hlater] at htoken
    cases after with
    | nil =>
        cases htoken
    | cons next more =>
        exact (Option.some.inj htoken).symm
  · rw [Layout.masked_append, Layout.masked_append, List.append_assoc, List.append_assoc,
      valueOf?_others hkeys hbefore hfront, hfound, if_pos hentry, Layout.masked_append,
      List.append_assoc]

end Keys

end Written
end EndpointTrace
