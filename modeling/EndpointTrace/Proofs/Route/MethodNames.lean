import EndpointTrace.Proofs.Route.KeySearch

/-!
# Reading the method of an attribute list

The words of a method value are looked at in order, and the first one that names a
supported method counts.  Only words of ASCII letters are looked at, but a supported method
has no other names; and the qualifier of a method name is no method itself.
-/

namespace EndpointTrace
namespace Written

open Attributes

/-!
## Words
-/

def named (chars : List Char) : Option Method :=
  Method.all.find? fun method => Text.equalIgnoringAsciiCase method.name.toList chars

def firstMethod (cs : List Char) : Option Method :=
  (letterWords cs).findSome? Method.ofChars?

theorem isAsciiLetter_of_asciiLower {c : Char}
    (hlower : Text.isAsciiLetter (Text.asciiLower c) = true) :
    Text.isAsciiLetter c = true := by
  unfold Text.asciiLower at hlower
  split at hlower
  · rename_i hupper
    simp [Text.isAsciiLetter, hupper.1, hupper.2]
  · exact hlower

theorem letters_of_named {chars : List Char} {method : Method}
    (hnamed : named chars = some method) : chars.all Text.isAsciiLetter = true := by
  have hequal := List.find?_some hnamed
  have hname : method.name.toList.map Text.asciiLower = chars.map Text.asciiLower :=
    beq_iff_eq.mp hequal
  have hletters : (method.name.toList.map Text.asciiLower).all Text.isAsciiLetter = true := by
    cases method <;> decide
  apply List.all_eq_true.mpr
  intro c hc
  apply isAsciiLetter_of_asciiLower
  apply List.all_eq_true.mp hletters
  rw [hname]
  exact List.mem_map_of_mem hc

theorem trim_word {chars : List Char} (hchars : chars.all Text.isWordChar = true) :
    Text.trim chars = chars := by
  have hdrop : ∀ cs : List Char, (∀ c ∈ cs, Text.isWordChar c = true) →
      cs.dropWhile Text.isBlank = cs := by
    intro cs hcs
    cases cs with
    | nil =>
        rfl
    | cons c rest =>
        apply List.dropWhile_cons_of_neg
        rw [Text.isBlank_of_isNamePart
          (Text.isNamePart_of_isWordChar (hcs c List.mem_cons_self))]
        exact Bool.false_ne_true
  have hword := List.all_eq_true.mp hchars
  have hreverse : ∀ c ∈ chars.reverse, Text.isWordChar c = true :=
    fun c hc => hword c (List.mem_reverse.mp hc)
  rw [Text.trim, Text.trimStart, hdrop chars hword, Text.trimEnd, hdrop _ hreverse,
    List.reverse_reverse]

theorem letterWords_cons {c : Char} (hc : Text.isWordChar c = false) (rest : List Char) :
    letterWords (c :: rest) = letterWords rest := by
  rw [letterWords, List.splitOnP_cons_eq_if_modifyHead, hc]
  rfl

theorem letterWords_word {chars rest : List Char} (hnonempty : chars ≠ [])
    (hchars : chars.all Text.isWordChar = true)
    (hrest : rest.head?.any Text.isWordChar = false) :
    letterWords (chars ++ rest) =
      (if chars.all Text.isAsciiLetter then [chars] else []) ++ letterWords rest := by
  have hinside : ∀ c ∈ chars, (!Text.isWordChar c) = false := by
    intro c hc
    rw [List.all_eq_true.mp hchars c hc]
    rfl
  have hkept : ∀ others : List (List Char),
      ((chars :: others).filter fun word => !word.isEmpty && word.all Text.isAsciiLetter) =
        (if chars.all Text.isAsciiLetter then [chars] else []) ++
          others.filter fun word => !word.isEmpty && word.all Text.isAsciiLetter := by
    intro others
    rw [List.filter_cons, List.isEmpty_eq_false_iff.mpr hnonempty]
    cases chars.all Text.isAsciiLetter <;> rfl
  cases rest with
  | nil =>
      rw [List.append_nil, letterWords, List.splitOnP_eq_singleton hinside, hkept]
      rfl
  | cons d tail =>
      have hd : (!Text.isWordChar d) = true := by
        have hd : Text.isWordChar d = false := hrest
        rw [hd]
        rfl
      rw [letterWords, List.splitOnP_append_cons_of_forall_mem hinside d hd, hkept,
        letterWords_cons hrest]
      rfl

theorem firstMethod_pass {piece : List Char}
    (hpiece : ∀ c ∈ piece, Text.isWordChar c = false) (rest : List Char) :
    firstMethod (piece ++ rest) = firstMethod rest := by
  induction piece with
  | nil =>
      rfl
  | cons c tail ih =>
      rw [List.cons_append, firstMethod, letterWords_cons (hpiece c List.mem_cons_self)]
      exact ih fun d hd => hpiece d (List.mem_cons_of_mem _ hd)

theorem firstMethod_word {chars rest : List Char} (hnonempty : chars ≠ [])
    (hchars : chars.all Text.isWordChar = true)
    (hrest : rest.head?.any Text.isWordChar = false) :
    firstMethod (chars ++ rest) = (named chars).or (firstMethod rest) := by
  have hofChars : Method.ofChars? chars = named chars := by
    rw [Method.ofChars?, trim_word hchars]
    rfl
  rw [firstMethod, letterWords_word hnonempty hchars hrest, List.findSome?_append]
  split
  · rw [List.findSome?_singleton, hofChars]
    rfl
  · rename_i hletters
    cases hnamed : named chars with
    | none =>
        rfl
    | some method =>
        exact absurd (letters_of_named hnamed) hletters

theorem firstMethod_spaces (gap : Gap) (rest : List Char) :
    firstMethod (gap.spaces ++ rest) = firstMethod rest := by
  apply firstMethod_pass
  intro c hc
  exact Text.isWordChar_of_not_namePart
    (Text.isNamePart_of_isBlank (Gap.isBlank_of_mem hc))

/-!
## Names in a layout
-/

structure NamesOnly (tokens : List Token) : Prop where
  flat : Flat tokens
  kinds : ∀ token ∈ tokens, token = .mark .comma ∨ token = .mark .dot ∨
    ∃ word : Word, token = .name word.identifier

namespace NamesOnly

theorem methodName (name : MethodName) : NamesOnly name.tokens where
  flat := Flat.methodName name
  kinds := by
    intro token htoken
    unfold MethodName.tokens at htoken
    split at htoken
    · rcases List.mem_cons.mp htoken with rfl | htoken
      · exact Or.inr (Or.inr ⟨requestMethod, rfl⟩)
      · rcases List.mem_cons.mp htoken with rfl | htoken
        · exact Or.inr (Or.inl rfl)
        · exact Or.inr (Or.inr ⟨name.word, List.mem_singleton.mp htoken⟩)
    · exact Or.inr (Or.inr ⟨name.word, List.mem_singleton.mp htoken⟩)

theorem commaSeparated (names : List MethodName) :
    NamesOnly (Written.commaSeparated (names.map MethodName.tokens)) where
  flat := by
    apply Flat.commaSeparated
    intro item hitem
    rcases List.mem_map.mp hitem with ⟨name, _, rfl⟩
    exact Flat.methodName name
  kinds := by
    intro token htoken
    rcases mem_commaSeparated htoken with hcomma | ⟨item, hitem, htoken⟩
    · exact Or.inl hcomma
    · rcases List.mem_map.mp hitem with ⟨name, _, rfl⟩
      exact (methodName name).kinds token htoken

variable {tokens : List Token} (hnames : NamesOnly tokens)

include hnames

theorem tail {token : Token} {rest : List Token} (hcons : tokens = token :: rest) :
    NamesOnly rest := by
  subst hcons
  exact ⟨hnames.flat.tail, fun other hother =>
    hnames.kinds other (List.mem_cons_of_mem token hother)⟩

theorem isWord {identifier : Identifier} (hmem : Token.name identifier ∈ tokens) :
    identifier.chars.all Text.isWordChar = true := by
  rcases hnames.kinds _ hmem with hcomma | hdot | ⟨word, hword⟩
  · cases hcomma
  · cases hdot
  · rw [Token.name.inj hword]
    exact word.parts

theorem literal_not_mem (written : Literal) : Token.literal written ∉ tokens := by
  intro hmem
  rcases hnames.kinds _ hmem with hcomma | hdot | ⟨word, hword⟩
  · cases hcomma
  · cases hdot
  · cases hword

theorem eq_of_mark_mem {sign : Mark} (hmem : Token.mark sign ∈ tokens) :
    sign = .comma ∨ sign = .dot := by
  rcases hnames.kinds _ hmem with hcomma | hdot | ⟨word, hword⟩
  · exact Or.inl (Token.mark.inj hcomma)
  · exact Or.inr (Token.mark.inj hdot)
  · cases hword

end NamesOnly

def Token.method? : Token → Option Method
  | name identifier => named identifier.chars
  | _ => none

theorem firstMethod_layout {layout : Layout} (hnames : NamesOnly (layout.map Placed.token))
    {rest : List Char} (hrest : Closed rest) :
    firstMethod (layout.masked ++ rest) =
      ((layout.map Placed.token).findSome? Token.method?).or (firstMethod rest) := by
  induction layout with
  | nil =>
      rfl
  | cons placed tail ih =>
      have hor : ((placed :: tail).map Placed.token).findSome? Token.method? =
          placed.token.method?.or ((tail.map Placed.token).findSome? Token.method?) := by
        rw [List.map_cons, List.findSome?_cons]
        cases placed.token.method? <;> rfl
      rw [Layout.masked_cons, List.append_assoc, List.append_assoc, firstMethod_spaces, hor,
        Option.or_assoc, ← ih (hnames.tail rfl)]
      cases heq : placed.token with
      | name identifier =>
          have hclosed := hnames.flat.closed_tail heq hrest
          have hmem : Token.name identifier ∈ (placed :: tail).map Placed.token :=
            heq ▸ List.mem_cons_self
          exact firstMethod_word identifier.nonempty (hnames.isWord hmem)
            hclosed.breaks.not_word
      | literal written =>
          apply firstMethod_pass
          intro c hc
          exact Literal.isWordChar_of_mem_masked hc
      | mark sign =>
          apply firstMethod_pass
          intro c hc
          rw [List.mem_singleton.mp hc]
          cases sign <;> rfl

theorem firstMethod_value {layout : Layout} (hnames : NamesOnly (layout.map Placed.token))
    (gap : Gap) :
    firstMethod (layout.masked ++ gap.spaces) =
      (layout.map Placed.token).findSome? Token.method? := by
  have hspaces := firstMethod_spaces gap []
  rw [List.append_nil] at hspaces
  rw [firstMethod_layout hnames (closed_gap gap), hspaces]
  exact Option.or_none

theorem MethodName.findSome?_tokens (name : MethodName) :
    name.tokens.findSome? Token.method? = name.method? := by
  have hrequest : Token.method? (.name requestMethod.identifier) = none := by decide
  unfold MethodName.tokens
  split
  · rw [List.findSome?_cons, hrequest]
    exact List.findSome?_singleton
  · exact List.findSome?_singleton

theorem findSome?_commaSeparated {α : Type} {read : Token → Option α}
    (hcomma : read (.mark .comma) = none) (items : List (List Token)) :
    (commaSeparated items).findSome? read = items.findSome? (List.findSome? read) := by
  have hrest : ∀ others : List (List Token),
      (others.flatMap (Token.mark .comma :: ·)).findSome? read =
        others.findSome? (List.findSome? read) := by
    intro others
    induction others with
    | nil =>
        rfl
    | cons item rest ih =>
        rw [List.flatMap_cons, List.findSome?_append, List.findSome?_cons, hcomma, ih,
          List.findSome?_cons]
        cases item.findSome? read <;> rfl
  cases items with
  | nil =>
      rfl
  | cons first rest =>
      rw [commaSeparated, List.findSome?_append, hrest, List.findSome?_cons]
      cases first.findSome? read <;> rfl

def isBeforeEnd (c : Char) : Bool :=
  c != ',' && c != ')'

/-- What is listed under a method key: what stands in braces, or before the next comma. -/
def listed (value : List Char) : List Char :=
  match value with
  | '{' :: inner => braced inner
  | _ => value.takeWhile isBeforeEnd

theorem method?_eq (cs : List Char) :
    Attributes.method? cs =
      (valueOf? methodKeys none (LexicalView.maskLiterals cs)).bind
        fun value => firstMethod (listed value) := by
  unfold Attributes.method?
  cases valueOf? methodKeys none (LexicalView.maskLiterals cs) <;> rfl

/-!
## Method values
-/

theorem listed_name (identifier : Identifier) (rest : List Char) :
    listed (identifier.chars ++ rest) = (identifier.chars ++ rest).takeWhile isBeforeEnd := by
  rcases identifier.exists_cons with ⟨c, tail, hchars, hpart⟩
  rw [hchars, List.cons_append]
  unfold listed
  split
  · rename_i heq
    rw [(List.cons.inj heq).1] at hpart
    cases hpart
  · rfl

theorem isBeforeEnd_of_class {p : Char → Bool} (hcomma : p ',' = false)
    (hclosing : p ')' = false) {c : Char} (hc : p c = true) : isBeforeEnd c = true := by
  rw [isBeforeEnd, Bool.and_eq_true, bne_iff_ne, bne_iff_ne]
  constructor
  · rintro rfl
    rw [hcomma] at hc
    cases hc
  · rintro rfl
    rw [hclosing] at hc
    cases hc

theorem takeWhile_spaces (gap : Gap) (rest : List Char) :
    (gap.spaces ++ rest).takeWhile isBeforeEnd = gap.spaces ++ rest.takeWhile isBeforeEnd :=
  List.takeWhile_append_of_pos fun _ hc =>
    isBeforeEnd_of_class rfl rfl (Gap.isBlank_of_mem hc)

theorem takeWhile_layout {layout : Layout} (hnames : NamesOnly (layout.map Placed.token))
    (hcomma : Token.mark .comma ∉ layout.map Placed.token) (rest : List Char) :
    (layout.masked ++ rest).takeWhile isBeforeEnd =
      layout.masked ++ rest.takeWhile isBeforeEnd := by
  apply List.takeWhile_append_of_pos
  intro c hc
  rcases List.mem_flatMap.mp hc with ⟨placed, hplaced, hc⟩
  have hmem : placed.token ∈ layout.map Placed.token := List.mem_map_of_mem hplaced
  rcases List.mem_append.mp hc with hc | hc
  · exact isBeforeEnd_of_class rfl rfl (Gap.isBlank_of_mem hc)
  · rcases hnames.kinds _ hmem with heq | hdot | ⟨word, hname⟩
    · exact absurd (heq ▸ hmem) hcomma
    · rw [hdot] at hc
      rw [List.mem_singleton.mp hc]
      rfl
    · rw [hname] at hc
      exact isBeforeEnd_of_class rfl rfl (Identifier.isNamePart_of_mem hc)

/-- A value is cut at the comma behind it, if there is one. -/
theorem takeWhile_later {later : Layout}
    (hlater : ∀ token ∈ (later.map Placed.token).head?, token = .mark .comma) (gap : Gap) :
    ∃ behind : Gap, (later.masked ++ gap.spaces).takeWhile isBeforeEnd = behind.spaces := by
  cases later with
  | nil =>
      have hall := takeWhile_spaces gap []
      rw [List.append_nil, List.takeWhile_nil, List.append_nil] at hall
      exact ⟨gap, hall⟩
  | cons comma rest =>
      refine ⟨comma.gap, ?_⟩
      rw [Layout.masked_cons, hlater comma.token rfl, List.append_assoc, takeWhile_spaces]
      exact List.append_nil _

theorem MethodName.comma_not_mem (name : MethodName) : Token.mark .comma ∉ name.tokens := by
  unfold MethodName.tokens
  split <;> simp

theorem MethodName.exists_cons (name : MethodName) :
    ∃ identifier rest, name.tokens = .name identifier :: rest := by
  unfold MethodName.tokens
  split
  · exact ⟨_, _, rfl⟩
  · exact ⟨_, _, rfl⟩

theorem firstMethod_single {name : MethodName} {layout later : Layout}
    (hlayout : layout.map Placed.token = name.tokens)
    (hlater : ∀ token ∈ (later.map Placed.token).head?, token = .mark .comma) (gap : Gap) :
    firstMethod (listed (Text.trimStart (Layout.masked (layout ++ later) ++ gap.spaces))) =
      name.method? := by
  have hnames : NamesOnly (layout.map Placed.token) := hlayout ▸ NamesOnly.methodName name
  have hcomma : Token.mark .comma ∉ layout.map Placed.token := hlayout ▸ name.comma_not_mem
  rcases takeWhile_later hlater gap with ⟨behind, hbehind⟩
  -- The gap before the name is trimmed, but words do not depend on it.
  have hvalue : firstMethod (listed (Text.trimStart
      (Layout.masked (layout ++ later) ++ gap.spaces))) =
        firstMethod (layout.masked ++ behind.spaces) := by
    rw [← hbehind, ← takeWhile_layout hnames hcomma, Layout.masked_append, List.append_assoc]
    rcases name.exists_cons with ⟨identifier, rest, htokens⟩
    rw [htokens] at hlayout
    rcases List.map_eq_cons_iff.mp hlayout with ⟨placed, tail, rfl, hname, _⟩
    rw [Layout.masked_cons, hname, Token.masked, List.append_assoc, List.append_assoc,
      Gap.trimStart_spaces, identifier.trimStart_chars, listed_name, takeWhile_spaces,
      firstMethod_spaces]
  rw [hvalue, firstMethod_value hnames, hlayout, name.findSome?_tokens]

theorem firstMethod_list {names : List MethodName} {layout : Layout}
    (hlayout : layout.map Placed.token = inBraces (names.map MethodName.tokens))
    (rest : List Char) :
    firstMethod (listed (Text.trimStart (layout.masked ++ rest))) =
      names.findSome? MethodName.method? := by
  rcases List.map_eq_append_iff.mp hlayout with ⟨front, back, rfl, hfront, hback⟩
  rcases List.map_eq_cons_iff.mp hfront with ⟨opened, inner, rfl, hopened, hinner⟩
  rcases List.map_eq_singleton_iff.mp hback with ⟨closed, rfl, hclosed⟩
  have hnames : NamesOnly (inner.map Placed.token) :=
    hinner ▸ NamesOnly.commaSeparated names
  have hbraces : ∀ placed ∈ inner,
      placed.token ≠ .mark .opening ∧ placed.token ≠ .mark .closing := by
    intro placed hplaced
    have hmem : placed.token ∈ inner.map Placed.token := List.mem_map_of_mem hplaced
    constructor
    · intro hopening
      rcases hnames.eq_of_mark_mem (hopening ▸ hmem) with hsign | hsign <;> cases hsign
    · intro hclosing
      rcases hnames.eq_of_mark_mem (hclosing ▸ hmem) with hsign | hsign <;> cases hsign
  have hsame : Layout.masked inner = Layout.text inner := by
    apply Layout.masked_eq_text
    intro placed hplaced written hliteral
    exact hnames.literal_not_mem written (hliteral ▸ List.mem_map_of_mem hplaced)
  have hmasked : Layout.masked (opened :: inner ++ [closed]) ++ rest = opened.gap.spaces ++
      '{' :: (Layout.text inner ++ (closed.gap.spaces ++ '}' :: rest)) := by
    rw [Layout.masked_append, Layout.masked_cons, Layout.masked_cons, hopened, hclosed, hsame]
    simp only [List.append_assoc]
    rfl
  have hvalue : listed (Text.trimStart
      (Layout.masked (opened :: inner ++ [closed]) ++ rest)) =
        Layout.masked inner ++ closed.gap.spaces := by
    rw [hmasked, Gap.trimStart_spaces, hsame]
    exact braced_layout hbraces closed.gap rest
  rw [hvalue, firstMethod_value hnames, hinner, findSome?_commaSeparated rfl,
    List.findSome?_map]
  congr 1
  funext name
  exact name.findSome?_tokens

/-!
## Attribute lists
-/

theorem Attribute.key_of_methodValue? {entry : Attribute} {value : MethodValue}
    (hvalue : entry.methodValue? = some value) :
    entry.key.chars ∈ methodKeys ∧ entry.valueTokens = value.tokens := by
  cases entry with
  | path key written =>
      cases hvalue
  | method written =>
      cases hvalue
      exact ⟨List.mem_cons_self, rfl⟩
  | other key different written =>
      cases hvalue

theorem Attribute.not_methodKey {entry : Attribute} (hvalue : entry.methodValue? = none) :
    entry.key.chars ∉ methodKeys := by
  cases entry with
  | path key written =>
      cases key with
      | value =>
          have hnot : valueKey.chars ∉ methodKeys := by decide
          exact hnot
      | path =>
          have hnot : pathKey.chars ∉ methodKeys := by decide
          exact hnot
  | method written =>
      cases hvalue
  | other key different written =>
      exact fun hmem => different (List.mem_append_right _ hmem)

def AttributeList.method? (attributes : AttributeList) : Option Method :=
  ((attributes.methodValue?.map MethodValue.names).getD []).findSome? MethodName.method?

theorem method?_written {attributes : AttributeList} {layout : Layout}
    (hlayout : layout.map Placed.token = attributes.tokens) (gap : Gap) :
    Attributes.method? (layout.text ++ gap.spaces) = attributes.method? := by
  rw [method?_eq, Layout.maskLiterals_text]
  cases attributes with
  | positional value =>
      have hflat : Flat (layout.map Placed.token) := hlayout ▸ Flat.value value
      rw [valueOf?_flat areWords_methodKeys hflat]
      rfl
  | keyed attributes =>
      cases hmethod : attributes.findSome? Attribute.methodValue? with
      | none =>
          rw [valueOf?_absent areWords_methodKeys
            (fun entry hentry => Attribute.not_methodKey
              (List.findSome?_eq_none_iff.mp hmethod entry hentry)) hlayout gap,
            AttributeList.method?, AttributeList.methodValue?, hmethod]
          rfl
      | some value =>
          rcases List.findSome?_eq_some_iff.mp hmethod with
            ⟨before, entry, after, rfl, hentry, hbefore⟩
          rcases Attribute.key_of_methodValue? hentry with ⟨hkey, htokens⟩
          rcases valueOf?_present areWords_methodKeys
            (fun other hother => Attribute.not_methodKey (hbefore other hother)) hkey hlayout
            gap with ⟨earlier, written, later, rfl, hwritten, hlater, hfound⟩
          rw [htokens] at hwritten
          rw [hfound, Option.bind_some, AttributeList.method?, AttributeList.methodValue?,
            hmethod]
          cases value with
          | single name =>
              rw [firstMethod_single hwritten hlater gap]
              exact List.findSome?_singleton.symm
          | list names =>
              rw [Layout.masked_append, List.append_assoc, firstMethod_list hwritten]
              rfl

end Written
end EndpointTrace
