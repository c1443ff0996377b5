import EndpointTrace.Proofs.Route.AnnotationSeams
import EndpointTrace.Proofs.Route.ReadBack
import EndpointTrace.Proofs.Route.ValueSeams
import EndpointTrace.Proofs.Source.Comments

/-!
# Blocks with comments

A block is read with its comments blanked, so what a comment leaves is white space between
what stands before it and what stands behind it.  Neither the annotations that are found nor
what is read behind them depends on that white space; so comments may be put in the place of
others, or taken away, and the route of the block and whether it marks a controller stay the
same.
-/

namespace EndpointTrace
namespace AnnotationRules

open AnnotationName (OfWordChars)
open LexicalView (Closed Comment LiteralsClosed blankComments codeOnly maskLiterals)
open Text (Fixed Seam Steady)
open Written (AreWords)

structure Worded (rules : AnnotationRules) : Prop where
  mappings : AreWords rules.mappingNames
  markers : AreWords (rules.markers.map String.toList)

variable {rules : AnnotationRules}

theorem Worded.ofWordChars_markerNames (hworded : rules.Worded) :
    OfWordChars rules.markerNames := by
  rw [OfWordChars, markerNames]
  split
  · intro name hname
    rw [List.mem_singleton.mp hname]
    rfl
  · exact fun name hname => (hworded.markers name hname).2

/-!
## Reading a text without comments
-/

variable (rules)

def declared? (name : List Char) (attributes : Option (List Char)) : Option RouteMapping := do
  let rule ← rules.mappings.find? fun rule => rule.name.toList == name
  let method := rule.method.getD ((attributes.bind Attributes.method?).getD .get)
  let paths ← (attributes.map Attributes.paths?).getD (some [['/']])
  pure ⟨method, paths.map String.ofList⟩

/-- The route of a text that has no comments. -/
def routeIn? (text : List Char) : Option RouteMapping :=
  (AnnotationName.last? rules.mappingNames (maskLiterals text)).bind fun found =>
    rules.declared? found.1 (Attributes.list? (Text.dropBytes found.2 text))

def marksIn (text : List Char) : Bool :=
  !(AnnotationName.all rules.markerNames (maskLiterals text)).isEmpty

theorem route?_eq (block : List Char) :
    rules.route? block = rules.routeIn? (blankComments block) := by
  rw [routeIn?, LexicalView.maskLiterals_blankComments]
  rfl

theorem isController_eq (block : List Char) :
    rules.isController block = rules.marksIn (blankComments block) := by
  rw [marksIn, LexicalView.maskLiterals_blankComments]
  rfl

variable {rules}

theorem fixed_declared? (name : List Char) {front : List Char} (hclosed : Closed front)
    (back : List Char) :
    Fixed back fun gap => rules.declared? name (some (front ++ (gap ++ back))) := by
  rcases Attributes.fixed_method? hclosed back with ⟨method, hmethod⟩
  rcases Attributes.fixed_paths? hclosed back with ⟨paths, hpaths⟩
  refine ⟨(rules.mappings.find? fun rule => rule.name.toList == name).bind fun rule =>
    paths.bind fun paths =>
      some ⟨rule.method.getD (method.getD .get), paths.map String.ofList⟩, ?_⟩
  intro gap hseam
  simp only [declared?, Option.bind_some, Option.map_some, Option.getD_some, hmethod gap hseam,
    hpaths gap hseam]
  rfl

theorem exists_behind_name {names : List (List Char)} (hnames : AreWords names)
    {front back name left : List Char} (hclosed : Closed front)
    (hfound : (AnnotationName.all names (maskLiterals front ++ back)).getLast? =
      some (name, left ++ back)) :
    ∃ first rest, front = first ++ rest ∧ Closed rest ∧ maskLiterals rest = left := by
  rcases AnnotationName.exists_start_of_mem_all (List.mem_of_getLast? hfound) with
    ⟨start, ⟨before, hbefore⟩, hmatch⟩
  rcases AnnotationName.eq_append_of_startingAt? hmatch with ⟨hname, hstart⟩
  rcases hnames name hname with ⟨hnonempty, hword⟩
  rcases List.eq_nil_or_concat name with rfl | ⟨initial, last, rfl⟩
  · exact absurd rfl hnonempty
  · have hlast : Text.isWordChar last = true := by
      apply List.all_eq_true.mp hword
      rw [List.concat_eq_append]
      exact List.mem_append_right initial (List.mem_singleton_self last)
    have hblank : Text.isBlank last = false :=
      Text.isBlank_of_isNamePart (Text.isNamePart_of_isWordChar hlast)
    have hquote : last ≠ '"' ∧ last ≠ '\'' := by
      constructor
      · rintro rfl
        cases hlast
      · rintro rfl
        cases hlast
    have hmasked : maskLiterals front ++ back = (before ++ initial) ++ last :: left ++ back := by
      rw [← hbefore, hstart]
      simp only [List.append_assoc, List.cons_append, List.concat_eq_append, List.nil_append]
    rcases hclosed.exists_cut hblank hquote (List.append_cancel_right hmasked) with
      ⟨first, rest, rfl, _, hrest, hleft⟩
    refine ⟨first ++ [last], rest, ?_, hrest, hleft⟩
    rw [List.append_assoc, List.singleton_append]

theorem fixed_routeIn? (hworded : rules.Worded) {front : List Char} (hclosed : Closed front)
    (back : List Char) : Fixed back fun gap => rules.routeIn? (front ++ (gap ++ back)) := by
  have hmask : back = [] → maskLiterals back = [] := LexicalView.maskLiterals_of_nil
  have hnames : OfWordChars rules.mappingNames :=
    fun name hname => (hworded.mappings name hname).2
  have hroute : ∀ gap, Seam back gap → rules.routeIn? (front ++ (gap ++ back)) =
      (AnnotationName.all rules.mappingNames
        (maskLiterals front ++ (gap ++ maskLiterals back))).getLast?.bind fun entry =>
          rules.declared? entry.1 (Attributes.list? (Text.dropBytes
            (Text.byteSize (maskLiterals (front ++ (gap ++ back))) - Text.byteSize entry.2)
            (front ++ (gap ++ back)))) := by
    intro gap hseam
    rw [routeIn?, AnnotationName.last?, hclosed.maskLiterals_seam hseam, Option.bind_map]
    rfl
  have hsteady : Steady (maskLiterals back) fun gap => (AnnotationName.all rules.mappingNames
      (maskLiterals front ++ (gap ++ maskLiterals back))).getLast? :=
    AnnotationName.steady_getLast?_all hnames (maskLiterals front)
  cases hsteady with
  | nothing hnone =>
      apply (Fixed.const none).congr
      intro gap hseam
      rw [hroute gap hseam, hnone gap (hseam.of_back hmask)]
      rfl
  | before name left hfound =>
      have hspace := hfound [' '] (Seam.space _)
      rcases exists_behind_name hworded.mappings hclosed hspace with
        ⟨first, rest, rfl, hrest, rfl⟩
      apply (Attributes.fixed_list? (rules.declared? name)
        (fun inner left hinner => fixed_declared? name hinner left) hrest back).congr
      intro gap hseam
      rw [hroute gap hseam, hfound gap (hseam.of_back hmask), Option.bind_some,
        ← hrest.maskLiterals_seam hseam, List.append_assoc, Attributes.dropBytes_of_masked_eq]
  | behind name left hleft hfound =>
      rcases hleft with ⟨piece, hpiece⟩
      apply (Fixed.const (rules.declared? name
        (Attributes.list? (Text.dropBytes (Text.byteSize piece) back)))).congr
      intro gap hseam
      rw [hroute gap hseam, hfound gap (hseam.of_back hmask), Option.bind_some,
        ← List.append_assoc front gap back, Attributes.dropBytes_of_masked hpiece]

theorem fixed_marksIn (hworded : rules.Worded) {front : List Char} (hclosed : Closed front)
    (back : List Char) : Fixed back fun gap => rules.marksIn (front ++ (gap ++ back)) := by
  have hmask : back = [] → maskLiterals back = [] := LexicalView.maskLiterals_of_nil
  rcases AnnotationName.all_seam hworded.ofWordChars_markerNames (maskLiterals front)
    (maskLiterals back) with ⟨early, late, _, hall⟩
  apply (Fixed.const (!(early.isEmpty && late.isEmpty))).congr
  intro gap hseam
  rw [marksIn, hclosed.maskLiterals_seam hseam, hall gap (hseam.of_back hmask)]
  cases early <;> rfl

/-!
## Comments
-/

/-- What is read in the place of a comment is the same, whatever stands there. -/
theorem eq_of_replacedBy {α : Type} {read : List Char → α} {before after new : List Char}
    {comment : Comment} (hfound : comment.FoundIn before after)
    (hclosed : LiteralsClosed (before ++ (comment.text ++ after)))
    (hreplaced : comment.ReplacedBy after new)
    (hread : ∀ front back, Closed front → Fixed back fun gap => read (front ++ (gap ++ back))) :
    read (blankComments (before ++ (new ++ after))) =
      read (blankComments (before ++ (comment.text ++ after))) := by
  rcases hfound.exists_seam with ⟨back, hback⟩
  rcases hread _ back (hfound.closed_before hclosed) with ⟨value, hvalue⟩
  have hall : ∀ new, comment.ReplacedBy after new →
      read (blankComments (before ++ (new ++ after))) = value := by
    intro new hreplaced
    rcases hback new hreplaced with ⟨gap, hseam, hblank⟩
    rw [hblank]
    exact hvalue gap hseam
  rw [hall new hreplaced, hall comment.text (.comment comment rfl hfound.ends)]

/-- Comments never influence what is read from a block.  Blanking all of them changes
nothing; and where literals are closed, neither does another comment in the place of one, nor
white space in the place of a block comment, nor nothing in the place of a line comment. -/
theorem comments_without_influence (rules : AnnotationRules) :
    (∀ block, rules.route? (blankComments block) = rules.route? block ∧
      rules.isController (blankComments block) = rules.isController block) ∧
    (rules.Worded → ∀ (comment : Comment) (before after new : List Char),
      comment.FoundIn before after →
      LiteralsClosed (before ++ (comment.text ++ after)) →
      comment.ReplacedBy after new →
        rules.route? (before ++ (new ++ after)) =
          rules.route? (before ++ (comment.text ++ after)) ∧
        rules.isController (before ++ (new ++ after)) =
          rules.isController (before ++ (comment.text ++ after))) := by
  constructor
  · intro block
    rw [route?_eq, route?_eq, isController_eq, isController_eq,
      LexicalView.blankComments_blankComments]
    exact ⟨rfl, rfl⟩
  · intro hworded comment before after new hfound hclosed hreplaced
    rw [route?_eq, route?_eq, isController_eq, isController_eq]
    constructor
    · exact eq_of_replacedBy hfound hclosed hreplaced fun front back hfront =>
        fixed_routeIn? hworded hfront back
    · exact eq_of_replacedBy hfound hclosed hreplaced fun front back hfront =>
        fixed_marksIn hworded hfront back

theorem worded_standard : standard.Worded where
  mappings := Written.areWords_mappingNames
  markers := by
    unfold AreWords
    decide

def keyBefore : List Char :=
  "@RestController @GetMapping(value ".toList

def oldValue : Comment :=
  .block " = \"/b\") @Controller ".toList (by decide +kernel)

def valueBehind : List Char :=
  " = \"/a\")".toList

/-- The comment stands between a key and its equals sign, and a line feed takes its place. -/
theorem comments_without_influence_before_equals :
    standard.Worded ∧ oldValue.FoundIn keyBefore valueBehind ∧
      LiteralsClosed (keyBefore ++ (oldValue.text ++ valueBehind)) ∧
      oldValue.ReplacedBy valueBehind ['\n'] ∧
      (standard.route? (keyBefore ++ (['\n'] ++ valueBehind)) =
        standard.route? (keyBefore ++ (oldValue.text ++ valueBehind)) ∧
      standard.isController (keyBefore ++ (['\n'] ++ valueBehind)) =
        standard.isController (keyBefore ++ (oldValue.text ++ valueBehind))) ∧
      standard.route? (keyBefore ++ (oldValue.text ++ valueBehind)) = some ⟨.get, ["/a"]⟩ := by
  have hfound : oldValue.FoundIn keyBefore valueBehind :=
    ⟨by decide +kernel, by decide +kernel, trivial⟩
  have hclosed : LiteralsClosed (keyBefore ++ (oldValue.text ++ valueBehind)) := by
    have hmode : LexicalView.modeAfter .code (keyBefore ++ (oldValue.text ++ valueBehind)) =
        .code := by
      decide +kernel
    have hline : ∀ entry ∈ LexicalView.scan .code (keyBefore ++ (oldValue.text ++ valueBehind)),
        entry.2 ≠ '\n' := by
      decide +kernel
    constructor
    · intro quote escaped
      rw [hmode]
      exact LexicalView.Mode.noConfusion
    · exact fun quote hmem => hline _ hmem rfl
    · decide +kernel
  have hreplaced : oldValue.ReplacedBy valueBehind ['\n'] :=
    .blank ['\n'] rfl (List.cons_ne_nil _ _) rfl
  exact ⟨worded_standard, hfound, hclosed, hreplaced,
    (comments_without_influence standard).2 worded_standard oldValue keyBefore valueBehind ['\n']
      hfound hclosed hreplaced,
    by decide +kernel⟩

end AnnotationRules
end EndpointTrace
