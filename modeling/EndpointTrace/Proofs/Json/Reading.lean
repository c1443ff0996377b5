import EndpointTrace.Proofs.Json.Written
import Mathlib.Data.List.Chain
import Mathlib.Data.List.TakeWhile

/-!
# Reading written JSON

Reading undoes writing: the tokens of a layout are scanned one by one, whatever the gaps
between them and however the characters of a text are written, and the reader makes of the
tokens of a value that value, provided that no more lists and objects are inside one
another than it allows.
-/

namespace EndpointTrace
namespace JsonText

/-!
## Texts
-/

theorem unit?_chars (code : CodeUnit) :
    JsonToken.unit? code.chars = some code.value := by
  simp only [CodeUnit.chars, JsonToken.unit?, code.first.reads, code.second.reads,
    code.third.reads, code.fourth.reads]
  show some _ = some _
  rw [CodeUnit.value]
  congr 1
  omega

theorem escaped?_of_mem {letter c : Char} (hmem : (letter, c) ∈ shortForms) :
    letter ≠ 'u' ∧ JsonToken.escaped? letter = some c := by
  have hall : ∀ form ∈ shortForms,
      form.1 ≠ 'u' ∧ JsonToken.escaped? form.1 = some form.2 := by
    decide
  exact hall _ hmem

theorem not_surrogate (c : Char) :
    JsonToken.isHighSurrogate c.toNat = false ∧ JsonToken.isLowSurrogate c.toNat = false := by
  have hvalid : c.toNat < 0xD800 ∨ 0xDFFF < c.toNat ∧ c.toNat < 0x110000 := c.valid
  simp only [JsonToken.isHighSurrogate, JsonToken.isLowSurrogate, Bool.and_eq_false_iff,
    decide_eq_false_iff_not]
  omega

theorem text?_char (part : QuotedChar) {rest : List Char} {value : List Char}
    {after : List Char} (hrest : JsonToken.text? rest = some (value, after)) :
    JsonToken.text? (part.chars ++ rest) = some (part.value :: value, after) := by
  cases part with
  | plain c allowed =>
      have hallowed : ¬ (c.toNat < 0x20 ∨ c = '\\') := by
        simp only [not_or]
        exact ⟨Nat.not_lt.mpr allowed.1, allowed.2.2⟩
      rw [QuotedChar.chars, List.singleton_append, JsonToken.text?, if_neg hallowed, hrest]
      · rfl
      · exact allowed.2.1
      · intro _ _ _ _ _ heq
        exact absurd heq allowed.2.2
      · intro _ _ heq
        exact absurd heq allowed.2.2
  | short letter c stands =>
      rcases escaped?_of_mem stands with ⟨hletter, hescaped⟩
      simp only [QuotedChar.chars, List.cons_append, List.nil_append]
      rw [JsonToken.text?, hescaped]
      · simp only [Option.bind_eq_bind, Option.bind_some, hrest]
        rfl
      · intro _ _ _ _ _ heq
        exact absurd heq hletter
  | unit code c names =>
      have hunit := unit?_chars code
      rw [names] at hunit
      simp only [QuotedChar.chars, CodeUnit.chars, List.cons_append, List.nil_append] at hunit ⊢
      rw [JsonToken.text?]
      simp only [hunit, Option.bind_eq_bind, Option.bind_some, (not_surrogate c).1,
        (not_surrogate c).2, Bool.false_eq_true, if_false, hrest, Char.ofNat_toNat]
      rfl
  | pair high low c inHigh inLow names =>
      have hhigh := unit?_chars high
      have hlow := unit?_chars low
      have hfirst : JsonToken.isHighSurrogate high.value = true := by
        simp [JsonToken.isHighSurrogate, inHigh]
      have hsecond : JsonToken.isLowSurrogate low.value = true := by
        simp [JsonToken.isLowSurrogate, inLow]
      simp only [QuotedChar.chars, CodeUnit.chars, List.cons_append, List.nil_append]
        at hhigh hlow ⊢
      rw [JsonToken.text?]
      simp only [hhigh, hlow, Option.bind_eq_bind, Option.bind_some, hfirst, hsecond, if_true,
        hrest, JsonToken.ofSurrogates, names, Char.ofNat_toNat]
      rfl

theorem text?_quoted (quoted : Quoted) (rest : List Char) :
    JsonToken.text? (quoted.chars ++ '"' :: rest) =
      some (quoted.map QuotedChar.value, rest) := by
  induction quoted with
  | nil =>
      rfl
  | cons part others ih =>
      show JsonToken.text? ((part.chars ++ Quoted.chars others) ++ '"' :: rest) = _
      rw [List.append_assoc]
      exact text?_char part ih

/-!
## Numbers

A number ends where no character follows that could go on with it.
-/

/-- Text that does not go on with a number before it. -/
def Ended (rest : List Char) : Prop :=
  ∀ c ∈ rest.head?, c.isDigit = false ∧ c ≠ '.' ∧ c ≠ 'e' ∧ c ≠ 'E'

theorem takeWhile_digits {digits rest : List Char} (hdigits : digits.all Char.isDigit = true)
    (hrest : ∀ c ∈ rest.head?, c.isDigit = false) :
    (digits ++ rest).takeWhile Char.isDigit = digits ∧
      (digits ++ rest).dropWhile Char.isDigit = rest := by
  have hall := List.all_eq_true.mp hdigits
  rw [List.takeWhile_append_of_pos hall, List.dropWhile_append_of_pos hall]
  cases rest with
  | nil =>
      simp
  | cons c rest =>
      have hc := hrest c rfl
      simp [hc]

theorem whole?_chars (whole : Whole) {rest : List Char}
    (hrest : ∀ c ∈ rest.head?, c.isDigit = false) :
    JsonToken.whole? (whole.chars ++ rest) = some (whole.chars, rest) := by
  cases whole with
  | zero =>
      rfl
  | digits first others nonzero digits =>
      rcases takeWhile_digits digits hrest with ⟨htake, hdrop⟩
      rw [Whole.chars]
      rw [List.cons_append, JsonToken.whole?]
      · simp only [← List.cons_append, htake, hdrop]
        rfl
      · intro _ heq
        rw [List.cons.injEq] at heq
        exact absurd heq.1 nonzero

theorem fraction?_some (digits : Digits) {rest : List Char}
    (hrest : ∀ c ∈ rest.head?, c.isDigit = false) :
    JsonToken.fraction? ('.' :: (digits.chars ++ rest)) = some (digits.chars, rest) := by
  rcases takeWhile_digits digits.digits hrest with ⟨htake, hdrop⟩
  simp only [JsonToken.fraction?, htake, hdrop, List.isEmpty_iff, digits.nonempty, if_false]

theorem fraction?_none {rest : List Char} (hrest : ∀ c ∈ rest.head?, c ≠ '.') :
    JsonToken.fraction? rest = some ([], rest) := by
  cases rest with
  | nil =>
      rfl
  | cons c rest =>
      rw [JsonToken.fraction?]
      intro _ heq
      rw [List.cons.injEq] at heq
      exact absurd heq.1 (hrest c rfl)

theorem Digits.exists_cons (digits : Digits) :
    ∃ first rest, digits.chars = first :: rest ∧ first.isDigit = true := by
  rcases List.exists_cons_of_ne_nil digits.nonempty with ⟨first, rest, hchars⟩
  have hall := digits.digits
  rw [hchars, List.all_cons, Bool.and_eq_true] at hall
  exact ⟨first, rest, hchars, hall.1⟩

theorem Whole.exists_cons (whole : Whole) :
    ∃ first rest, whole.chars = first :: rest ∧ first.isDigit = true := by
  cases whole with
  | zero =>
      exact ⟨'0', [], rfl, rfl⟩
  | digits first rest nonzero digits =>
      rw [List.all_cons, Bool.and_eq_true] at digits
      exact ⟨first, rest, rfl, digits.1⟩

theorem ne_of_isDigit {c other : Char} (hdigit : c.isDigit = true)
    (hother : other.isDigit = false) : c ≠ other := by
  rintro rfl
  rw [hdigit] at hother
  cases hother

theorem sign_chars (sign : Sign) (digits : Digits) (rest : List Char) :
    JsonToken.sign (sign.chars ++ (digits.chars ++ rest)) =
      (decide (sign = .minus), digits.chars ++ rest) := by
  cases sign with
  | minus =>
      rfl
  | plus =>
      rfl
  | unwritten =>
      rcases digits.exists_cons with ⟨first, others, hchars, hfirst⟩
      rw [Sign.chars, List.nil_append, hchars, List.cons_append, JsonToken.sign]
      · rfl
      · intro _ heq
        rw [List.cons.injEq] at heq
        exact absurd heq.1 (ne_of_isDigit hfirst rfl)
      · intro _ heq
        rw [List.cons.injEq] at heq
        exact absurd heq.1 (ne_of_isDigit hfirst rfl)

theorem exponent?_some (exponent : Exponent) {rest : List Char}
    (hrest : ∀ c ∈ rest.head?, c.isDigit = false) :
    JsonToken.exponent? (exponent.chars ++ rest) = some (some exponent.value, rest) := by
  rcases takeWhile_digits exponent.digits.digits hrest with ⟨htake, hdrop⟩
  have hletter : (if exponent.capital then 'E' else 'e') = 'e' ∨
      (if exponent.capital then 'E' else 'e') = 'E' := by
    cases exponent.capital <;> simp
  simp only [Exponent.chars, List.cons_append, List.append_assoc, JsonToken.exponent?,
    if_pos hletter, sign_chars, htake, hdrop, List.isEmpty_iff, exponent.digits.nonempty,
    if_false, Exponent.value, decide_eq_true_eq]

theorem exponent?_none {rest : List Char} (hrest : ∀ c ∈ rest.head?, c ≠ 'e' ∧ c ≠ 'E') :
    JsonToken.exponent? rest = some (none, rest) := by
  cases rest with
  | nil =>
      rfl
  | cons c rest =>
      have hc := hrest c rfl
      simp [JsonToken.exponent?, hc]

theorem exponent?_chars (number : Number) {rest : List Char} (hrest : Ended rest) :
    JsonToken.exponent? (number.exponentChars ++ rest) =
      some (number.exponent.map Exponent.value, rest) := by
  rw [Number.exponentChars]
  cases number.exponent with
  | none =>
      exact exponent?_none fun c hc => (hrest c hc).2.2
  | some exponent =>
      exact exponent?_some exponent fun c hc => (hrest c hc).1

theorem head_exponentChars (number : Number) {rest : List Char} (hrest : Ended rest) :
    ∀ c ∈ (number.exponentChars ++ rest).head?, c.isDigit = false ∧ c ≠ '.' := by
  rw [Number.exponentChars]
  cases number.exponent with
  | none =>
      exact fun c hc => ⟨(hrest c hc).1, (hrest c hc).2.1⟩
  | some exponent =>
      intro c hc
      cases Option.mem_some.mp hc
      cases exponent.capital <;> decide

theorem fraction?_chars (number : Number) {rest : List Char} (hrest : Ended rest) :
    JsonToken.fraction? (number.fractionChars ++ (number.exponentChars ++ rest)) =
      some ((number.fraction.map Digits.chars).getD [], number.exponentChars ++ rest) := by
  rw [Number.fractionChars]
  cases number.fraction with
  | none =>
      exact fraction?_none fun c hc => (head_exponentChars number hrest c hc).2
  | some digits =>
      exact fraction?_some digits fun c hc => (head_exponentChars number hrest c hc).1

theorem head_fractionChars (number : Number) {rest : List Char} (hrest : Ended rest) :
    ∀ c ∈ (number.fractionChars ++ (number.exponentChars ++ rest)).head?,
      c.isDigit = false := by
  rw [Number.fractionChars]
  cases number.fraction with
  | none =>
      exact fun c hc => (head_exponentChars number hrest c hc).1
  | some digits =>
      intro c hc
      cases Option.mem_some.mp hc
      rfl

theorem numeral?_chars (number : Number) {rest : List Char} (hrest : Ended rest) :
    JsonToken.numeral? (number.chars ++ rest) = some (number.numeral, rest) := by
  have hparts : ((JsonToken.whole? (number.whole.chars ++
      (number.fractionChars ++ (number.exponentChars ++ rest)))).bind fun whole =>
        (JsonToken.fraction? whole.2).bind fun fraction =>
          (JsonToken.exponent? fraction.2).bind fun exponent =>
            some (JsonToken.Numeral.mk number.negative whole.1 fraction.1 exponent.1,
              exponent.2)) = some (number.numeral, rest) := by
    simp only [whole?_chars number.whole (head_fractionChars number hrest),
      fraction?_chars number hrest, exponent?_chars number hrest, Option.bind_some]
    rfl
  rw [Number.chars]
  simp only [List.append_assoc]
  cases hnegative : number.negative with
  | true =>
      rw [hnegative] at hparts
      exact hparts
  | false =>
      rcases number.whole.exists_cons with ⟨first, others, hchars, hfirst⟩
      rw [hnegative, hchars] at hparts
      simp only [Bool.false_eq_true, if_false, List.nil_append, hchars, JsonToken.numeral?]
      split
      · rename_i heq
        rw [List.cons_append, List.cons.injEq] at heq
        exact absurd heq.1 (ne_of_isDigit hfirst rfl)
      · exact hparts

/-!
## Tokens

A token is scanned without a look at what follows, unless it is a number: the next token
must then be a mark.  In a value it always is one.
-/

theorem Number.exists_cons (number : Number) :
    ∃ first rest, number.chars = first :: rest ∧ (first.isDigit = true ∨ first = '-') := by
  rcases number.whole.exists_cons with ⟨first, rest, hchars, hfirst⟩
  rw [Number.chars]
  cases number.negative with
  | true =>
      exact ⟨'-', _, rfl, Or.inr rfl⟩
  | false =>
      rw [hchars]
      exact ⟨first, _, rfl, Or.inl hfirst⟩

theorem Token.exists_cons (token : Token) :
    ∃ first rest, token.chars = first :: rest ∧ JsonToken.isBlank first = false := by
  cases token with
  | mark sign =>
      exact ⟨sign.char, [], rfl, by cases sign <;> decide⟩
  | null =>
      exact ⟨'n', _, rfl, rfl⟩
  | bool value =>
      cases value with
      | true =>
          exact ⟨'t', _, rfl, rfl⟩
      | false =>
          exact ⟨'f', _, rfl, rfl⟩
  | number written value fits =>
      rcases written.exists_cons with ⟨first, rest, hchars, hfirst⟩
      refine ⟨first, rest, hchars, ?_⟩
      rcases hfirst with hdigit | rfl
      · simp [JsonToken.isBlank, ne_of_isDigit hdigit]
      · rfl
  | text quoted =>
      exact ⟨'"', _, rfl, rfl⟩

theorem first?_number {first : Char} (hfirst : first.isDigit = true ∨ first = '-')
    (rest : List Char) :
    JsonToken.first? (first :: rest) = (do
      let (numeral, rest) ← JsonToken.numeral? (first :: rest)
      let number ← numeral.number?
      pure (.scalar (.number number), rest)) := by
  have hother : ∀ c : Char, c.isDigit = false → c ≠ '-' → first ≠ c := by
    rintro c hdigit hminus rfl
    rcases hfirst with htrue | heq
    · rw [hdigit] at htrue
      cases htrue
    · exact hminus heq
  have hstart : (first.isDigit || decide (first = '-')) = true := by
    simpa using hfirst
  rw [JsonToken.first?, if_pos hstart]
  all_goals
    intro heq
    exact absurd heq (hother _ (by decide) (by decide))

theorem first?_chars (token : Token) {rest : List Char} (hended : token.IsNumber → Ended rest) :
    JsonToken.first? (token.chars ++ rest) = some (token.token, rest) := by
  cases token with
  | mark sign =>
      cases sign <;> rfl
  | null =>
      rfl
  | bool value =>
      cases value <;> rfl
  | text quoted =>
      show JsonToken.first? ('"' :: (quoted.chars ++ ['"'] ++ rest)) = _
      rw [JsonToken.first?, List.append_assoc, List.singleton_append, text?_quoted]
      rfl
  | number written value fits =>
      rcases written.exists_cons with ⟨first, others, hchars, hfirst⟩
      have hnumeral := numeral?_chars written (hended trivial)
      rw [hchars] at hnumeral
      rw [Token.chars, hchars, List.cons_append, first?_number hfirst, ← List.cons_append,
        hnumeral]
      simp only [Option.bind_eq_bind, Option.bind_some, fits]
      rfl

theorem scanWith_token (fuel : Nat) (placed : Placed) {rest : List Char}
    (hended : placed.token.IsNumber → Ended rest) :
    JsonToken.scanWith (fuel + 1) (placed.chars ++ rest) =
      (JsonToken.scanWith fuel rest).map (placed.token.token :: ·) := by
  rcases placed.token.exists_cons with ⟨first, others, hchars, hfirst⟩
  have hblank := List.all_eq_true.mp placed.gap.blank
  have hscan := first?_chars placed.token hended
  rw [hchars, List.cons_append] at hscan
  rw [Placed.chars, List.append_assoc, JsonToken.scanWith,
    List.dropWhile_append_of_pos hblank, hchars, List.cons_append,
    List.dropWhile_cons_of_neg (by simp [hfirst])]
  simp only [hscan, Option.bind_eq_bind, Option.bind_some]
  cases JsonToken.scanWith fuel rest <;> rfl

def Spaced (tokens : List Token) : Prop :=
  tokens.IsChain fun token next => token.IsNumber → next.IsMark

theorem ended_of_isBlank {c : Char} (hblank : JsonToken.isBlank c = true) :
    c.isDigit = false ∧ c ≠ '.' ∧ c ≠ 'e' ∧ c ≠ 'E' := by
  simp only [JsonToken.isBlank, Bool.or_eq_true, decide_eq_true_eq] at hblank
  rcases hblank with ((rfl | rfl) | rfl) | rfl <;> decide

theorem ended_cons {c : Char} (hc : c.isDigit = false ∧ c ≠ '.' ∧ c ≠ 'e' ∧ c ≠ 'E')
    (rest : List Char) : Ended (c :: rest) := by
  intro other hother
  cases Option.mem_some.mp hother
  exact hc

theorem ended_gap (gap : Gap) {rest : List Char} (hrest : Ended rest) :
    Ended (gap.chars ++ rest) := by
  cases hchars : gap.chars with
  | nil =>
      exact hrest
  | cons c others =>
      have hblank := gap.blank
      rw [hchars, List.all_cons, Bool.and_eq_true] at hblank
      exact ended_cons (ended_of_isBlank hblank.1) _

theorem ended_layout {placed : Placed} {layout : Layout} (gap : Gap)
    (hspaced : Spaced ((placed :: layout).map Placed.token))
    (hnumber : placed.token.IsNumber) : Ended (layout.chars ++ gap.chars) := by
  cases layout with
  | nil =>
      have hend : Ended (gap.chars ++ []) := ended_gap gap nofun
      rwa [List.append_nil] at hend
  | cons next layout =>
      have hmark : next.token.IsMark :=
        (List.isChain_cons_cons.mp hspaced).1 hnumber
      show Ended (((next.gap.chars ++ next.token.chars) ++ Layout.chars layout) ++ gap.chars)
      rw [List.append_assoc, List.append_assoc]
      apply ended_gap
      cases htoken : next.token with
      | mark sign =>
          apply ended_cons
          cases sign <;> decide
      | _ =>
          rw [htoken] at hmark
          cases hmark

theorem scanWith_layout (layout : Layout) (gap : Gap) {fuel : Nat}
    (hspaced : Spaced (layout.map Placed.token)) (hfuel : layout.length < fuel) :
    JsonToken.scanWith fuel (layout.chars ++ gap.chars) =
      some ((layout.map Placed.token).map Token.token) := by
  induction layout generalizing fuel with
  | nil =>
      cases fuel with
      | zero =>
          cases hfuel
      | succ fuel =>
          have hblank := List.all_eq_true.mp gap.blank
          have hnil : gap.chars.dropWhile JsonToken.isBlank = [] :=
            List.dropWhile_eq_nil_iff.mpr hblank
          show JsonToken.scanWith (fuel + 1) gap.chars = _
          rw [JsonToken.scanWith, hnil]
          rfl
  | cons placed layout ih =>
      cases fuel with
      | zero =>
          cases hfuel
      | succ fuel =>
          show JsonToken.scanWith (fuel + 1)
            ((placed.chars ++ Layout.chars layout) ++ gap.chars) = _
          rw [List.append_assoc, scanWith_token fuel placed (ended_layout gap hspaced),
            ih hspaced.of_cons (Nat.lt_of_succ_lt_succ hfuel)]
          rfl

theorem length_le_length_chars (layout : Layout) : layout.length ≤ layout.chars.length := by
  induction layout with
  | nil =>
      exact Nat.le_refl _
  | cons placed layout ih =>
      rcases placed.token.exists_cons with ⟨first, others, hchars, _⟩
      show _ ≤ ((placed.gap.chars ++ placed.token.chars) ++ Layout.chars layout).length
      rw [hchars]
      simp only [List.length_append, List.length_cons]
      omega

theorem scan_layout (layout : Layout) (gap : Gap)
    (hspaced : Spaced (layout.map Placed.token)) :
    JsonToken.scan (layout.chars ++ gap.chars) =
      some ((layout.map Placed.token).map Token.token) := by
  have hlength := length_le_length_chars layout
  apply scanWith_layout layout gap hspaced
  rw [List.length_append]
  omega

/-!
## Values
-/

theorem spaced_cons {token : Token} (hother : ¬ token.IsNumber) {rest : List Token}
    (hrest : Spaced rest) : Spaced (token :: rest) := by
  cases rest with
  | nil =>
      exact List.isChain_singleton token
  | cons next rest =>
      exact List.isChain_cons_cons.mpr ⟨fun hnumber => absurd hnumber hother, hrest⟩

theorem spaced_mark (sign : Mark) {rest : List Token} (hrest : Spaced rest) :
    Spaced (.mark sign :: rest) := by
  apply spaced_cons _ hrest
  exact not_false

theorem spaced_text (quoted : Quoted) {rest : List Token} (hrest : Spaced rest) :
    Spaced (.text quoted :: rest) := by
  apply spaced_cons _ hrest
  exact not_false

/-- Tokens that follow a value. -/
structure Follows (after : List Token) : Prop where
  mark : ∀ token ∈ after.head?, token.IsMark
  spaced : Spaced after

theorem follows_nil : Follows [] where
  mark := by
    rintro _ ⟨⟩
  spaced := List.isChain_nil

theorem follows_mark (sign : Mark) {rest : List Token} (hrest : Spaced rest) :
    Follows (.mark sign :: rest) where
  mark := by
    rintro _ ⟨⟩
    trivial
  spaced := spaced_mark sign hrest

theorem spaced_of_follows (token : Token) {after : List Token} (hafter : Follows after) :
    Spaced (token :: after) := by
  cases after with
  | nil =>
      exact List.isChain_singleton token
  | cons next after =>
      exact List.isChain_cons_cons.mpr ⟨fun _ => hafter.mark next rfl, hafter.spaced⟩

namespace Value

mutual

theorem spaced_tokens : ∀ (value : Value) {after : List Token}, Follows after →
    Spaced (value.tokens ++ after)
  | .null, _, hafter => by
      rw [tokens]
      exact spaced_of_follows .null hafter
  | .bool value, _, hafter => by
      rw [tokens]
      exact spaced_of_follows (.bool value) hafter
  | .number written value fits, _, hafter => by
      rw [tokens]
      exact spaced_of_follows (.number written value fits) hafter
  | .text quoted, _, hafter => by
      rw [tokens]
      exact spaced_of_follows (.text quoted) hafter
  | .list [], _, hafter => by
      rw [tokens]
      exact spaced_mark _ (spaced_mark _ hafter.spaced)
  | .list (first :: rest), _, hafter => by
      rw [tokens, List.cons_append, List.append_assoc, List.append_assoc]
      apply spaced_mark
      exact spaced_tokens first (follows_itemTokens rest (follows_mark _ hafter.spaced))
  | .object [], _, hafter => by
      rw [tokens]
      exact spaced_mark _ (spaced_mark _ hafter.spaced)
  | .object ((key, first) :: rest), _, hafter => by
      rw [tokens, List.cons_append, List.cons_append, List.cons_append, List.append_assoc,
        List.append_assoc]
      apply spaced_mark
      apply spaced_text
      apply spaced_mark
      exact spaced_tokens first (follows_fieldTokens rest (follows_mark _ hafter.spaced))

theorem follows_itemTokens : ∀ (items : List Value) {after : List Token}, Follows after →
    Follows (itemTokens items ++ after)
  | [], _, hafter => hafter
  | item :: rest, _, hafter => by
      rw [itemTokens, List.cons_append, List.append_assoc]
      exact follows_mark _ (spaced_tokens item (follows_itemTokens rest hafter))

theorem follows_fieldTokens : ∀ (fields : List (Quoted × Value)) {after : List Token},
    Follows after → Follows (fieldTokens fields ++ after)
  | [], _, hafter => hafter
  | (key, value) :: rest, _, hafter => by
      rw [fieldTokens, List.cons_append, List.cons_append, List.cons_append,
        List.append_assoc]
      apply follows_mark
      apply spaced_text
      apply spaced_mark
      exact spaced_tokens value (follows_fieldTokens rest hafter)

end

theorem exists_tokens (value : Value) :
    ∃ token rest, value.tokens = token :: rest ∧ token.token ≠ .closeList := by
  cases value with
  | null =>
      exact ⟨.null, [], by rw [tokens], JsonToken.noConfusion⟩
  | bool value =>
      exact ⟨.bool value, [], by rw [tokens], JsonToken.noConfusion⟩
  | number written value fits =>
      exact ⟨.number written value fits, [], by rw [tokens], JsonToken.noConfusion⟩
  | text quoted =>
      exact ⟨.text quoted, [], by rw [tokens], JsonToken.noConfusion⟩
  | list items =>
      cases items <;> exact ⟨.mark .openList, _, by rw [tokens], JsonToken.noConfusion⟩
  | object fields =>
      cases fields <;> exact ⟨.mark .openObject, _, by rw [tokens], JsonToken.noConfusion⟩

theorem read_first (value : Value) (frames : List JsonReader.Frame) (after : List JsonToken) :
    (value.tokens.map Token.token ++ after).foldlM JsonReader.step
        ⟨.list [] :: frames, .valueOrEnd⟩ =
      (value.tokens.map Token.token ++ after).foldlM JsonReader.step
        ⟨.list [] :: frames, .value⟩ := by
  rcases value.exists_tokens with ⟨token, rest, htokens, hopen⟩
  rw [htokens, List.map_cons, List.cons_append, List.foldlM_cons, List.foldlM_cons]
  have hstep : JsonReader.step ⟨.list [] :: frames, .valueOrEnd⟩ token.token =
      JsonReader.step ⟨.list [] :: frames, .value⟩ token.token := by
    cases htoken : token.token with
    | closeList =>
        exact absurd htoken hopen
    | _ => rfl
  rw [hstep]

mutual

theorem read_tokens : ∀ (value : Value) (frames : List JsonReader.Frame)
    (after : List JsonToken), frames.length + value.depth ≤ JsonReader.depthLimit →
    (value.tokens.map Token.token ++ after).foldlM JsonReader.step ⟨frames, .value⟩ =
      after.foldlM JsonReader.step (JsonReader.complete value.meaning frames)
  | .null, _, _, _ => rfl
  | .bool _, _, _, _ => rfl
  | .text _, _, _, _ => rfl
  | .number _ _ _, _, _, _ => rfl
  | .list [], frames, after, hdepth => by
      have hroom : frames.length < JsonReader.depthLimit := by
        rw [depth] at hdepth
        omega
      have hstep : JsonReader.step ⟨frames, .value⟩ .openList =
          some ⟨.list [] :: frames, .valueOrEnd⟩ := if_pos hroom
      rw [tokens, List.map_cons, List.cons_append, List.foldlM_cons]
      simp only [Token.token, Mark.token, hstep]
      rfl
  | .list (first :: rest), frames, after, hdepth => by
      simp only [depth, depthItems] at hdepth
      have hroom : frames.length < JsonReader.depthLimit := by
        omega
      have hstep : JsonReader.step ⟨frames, .value⟩ .openList =
          some ⟨.list [] :: frames, .valueOrEnd⟩ := if_pos hroom
      have hfirst := read_tokens first (.list [] :: frames)
        ((itemTokens rest).map Token.token ++ .closeList :: after)
        (by rw [List.length_cons]; omega)
      have hrest := read_itemTokens rest [] first.meaning frames after (by omega)
      rw [tokens, List.map_cons, List.cons_append, List.foldlM_cons]
      simp only [Token.token, Mark.token, hstep, List.map_append, List.map_cons, List.map_nil,
        List.append_assoc, List.cons_append, List.nil_append]
      show List.foldlM _ _ _ = _
      rw [read_first, hfirst]
      exact hrest
  | .object [], frames, after, hdepth => by
      have hroom : frames.length < JsonReader.depthLimit := by
        rw [depth] at hdepth
        omega
      have hstep : JsonReader.step ⟨frames, .value⟩ .openObject =
          some ⟨frames, .keyOrEnd []⟩ := if_pos hroom
      rw [tokens, List.map_cons, List.cons_append, List.foldlM_cons]
      simp only [Token.token, Mark.token, hstep]
      rfl
  | .object ((key, first) :: rest), frames, after, hdepth => by
      simp only [depth, depthFields] at hdepth
      have hroom : frames.length < JsonReader.depthLimit := by
        omega
      have hstep : JsonReader.step ⟨frames, .value⟩ .openObject =
          some ⟨frames, .keyOrEnd []⟩ := if_pos hroom
      have hfirst := read_tokens first (.object [] key.value :: frames)
        ((fieldTokens rest).map Token.token ++ .closeObject :: after)
        (by rw [List.length_cons]; omega)
      have hrest := read_fieldTokens rest [] key.value first.meaning frames after (by omega)
      rw [tokens, List.map_cons, List.cons_append, List.foldlM_cons]
      simp only [Token.token, Mark.token, hstep, List.map_append, List.map_cons, List.map_nil,
        List.append_assoc, List.cons_append, List.nil_append]
      exact hfirst.trans hrest

theorem read_itemTokens : ∀ (items : List Value) (known : List JsonValue) (last : JsonValue)
    (frames : List JsonReader.Frame) (after : List JsonToken),
    frames.length + (depthItems items + 1) ≤ JsonReader.depthLimit →
    ((itemTokens items).map Token.token ++ .closeList :: after).foldlM JsonReader.step
        ⟨.list known :: frames, .commaOrEnd last⟩ =
      after.foldlM JsonReader.step
        (JsonReader.complete (.list (known ++ last :: meanings items)) frames)
  | [], _, _, _, _, _ => rfl
  | item :: rest, known, last, frames, after, hdepth => by
      simp only [depthItems] at hdepth
      have hitem := read_tokens item (.list (known ++ [last]) :: frames)
        ((itemTokens rest).map Token.token ++ .closeList :: after)
        (by rw [List.length_cons]; omega)
      have hrest := read_itemTokens rest (known ++ [last]) item.meaning frames after (by omega)
      rw [List.append_assoc, List.singleton_append] at hrest
      rw [itemTokens, List.map_cons, List.map_append, List.cons_append, List.append_assoc]
      exact hitem.trans hrest

theorem read_fieldTokens : ∀ (fields : List (Quoted × Value))
    (known : List (String × JsonValue)) (key : String) (last : JsonValue)
    (frames : List JsonReader.Frame) (after : List JsonToken),
    frames.length + (depthFields fields + 1) ≤ JsonReader.depthLimit →
    ((fieldTokens fields).map Token.token ++ .closeObject :: after).foldlM JsonReader.step
        ⟨.object known key :: frames, .commaOrEnd last⟩ =
      after.foldlM JsonReader.step
        (JsonReader.complete (.ofFields (known ++ (key, last) :: fieldMeanings fields)) frames)
  | [], _, _, _, _, _, _ => rfl
  | (key, value) :: rest, known, other, last, frames, after, hdepth => by
      simp only [depthFields] at hdepth
      have hvalue := read_tokens value (.object (known ++ [(other, last)]) key.value :: frames)
        ((fieldTokens rest).map Token.token ++ .closeObject :: after)
        (by rw [List.length_cons]; omega)
      have hrest := read_fieldTokens rest (known ++ [(other, last)]) key.value value.meaning
        frames after (by omega)
      rw [List.append_assoc, List.singleton_append] at hrest
      rw [fieldTokens, List.map_cons, List.map_cons, List.map_cons, List.map_append,
        List.cons_append, List.cons_append, List.cons_append, List.append_assoc]
      exact hvalue.trans hrest

end

end Value

end JsonText

/-- A JSON text is read as what it means, unless too many of its lists and objects are
inside one another. -/
theorem JsonText.parse?_chars (text : JsonText)
    (hdepth : text.value.depth ≤ JsonReader.depthLimit) :
    JsonValue.parse? text.chars = some text.value.meaning := by
  have hspaced : Spaced (text.layout.map Placed.token) := by
    have htokens := text.value.spaced_tokens follows_nil
    rw [List.append_nil, ← text.tokens_eq] at htokens
    exact htokens
  have hroom : ([] : List JsonReader.Frame).length + text.value.depth
      ≤ JsonReader.depthLimit := by
    rw [List.length_nil, Nat.zero_add]
    exact hdepth
  have hread := text.value.read_tokens [] [] hroom
  rw [List.append_nil] at hread
  rw [JsonValue.parse?, JsonText.chars, scan_layout text.layout text.gap hspaced,
    text.tokens_eq]
  simp only [Option.bind_eq_bind, Option.bind_some, JsonReader.start, hread]
  rfl

end EndpointTrace
