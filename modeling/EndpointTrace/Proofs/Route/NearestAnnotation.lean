import EndpointTrace.Proofs.Route.CommentedBlocks
import Mathlib

/-!
# The annotation nearest the end

A route is read from the last mapping annotation of a block of text.  What stands before the
block has no part in it, if only the scan is back in code where the block begins: then the
comments and literals of the block are found as if it stood alone, and its annotations are
the last ones.  An annotation that begins earlier may reach into the block, but not beyond an
at sign.  The attributes are looked for behind the name, so nothing that stands before the
block can open or close their list.
-/

namespace EndpointTrace

namespace LexicalView

/-- What follows the text is read as if it stood alone. -/
structure EndsInCode (front : List Char) : Prop where
  mode : modeAfter .code front = .code
  /-- No slash is left that could open a comment. -/
  slash : (scan .code front).getLast? ≠ some (.code, '/')

instance (front : List Char) : Decidable (EndsInCode front) :=
  decidable_of_iff (_ ∧ _) ⟨fun hboth => ⟨hboth.1, hboth.2⟩, fun hends => ⟨hends.1, hends.2⟩⟩

variable {front : List Char}

theorem EndsInCode.of_getLast? (hmode : modeAfter .code front = .code)
    (hslash : front.getLast? ≠ some '/') : EndsInCode front where
  mode := hmode
  slash := by
    intro hlast
    have hchar := congrArg (Option.map Prod.snd) hlast
    rw [← List.getLast?_map, ← Labelled.text, text_scan] at hchar
    exact hslash hchar

theorem EndsInCode.codeOnly_append (hends : EndsInCode front) (back : List Char) :
    codeOnly (front ++ back) = codeOnly front ++ codeOnly back := by
  rw [Labelled.codeOnly_eq, scan_append_of_code hends.mode hends.slash]
  exact Labelled.live_append _ _

theorem EndsInCode.blankComments_append (hends : EndsInCode front) (back : List Char) :
    blankComments (front ++ back) = blankComments front ++ blankComments back := by
  rw [Labelled.blankComments_eq, scan_append_of_code hends.mode hends.slash]
  exact Labelled.bare_append _ _

end LexicalView

/-!
## Annotations of two texts side by side
-/

namespace AnnotationName

variable {names : List (List Char)}

theorem mem_all_of_afterAtSign? {cs : List Char} {entry : List Char × List Char}
    (hfound : afterAtSign? names cs = some entry) : entry ∈ all names cs := by
  rcases eq_append_of_afterAtSign? hfound with ⟨_, qualifier, rfl⟩
  rw [all, Text.occurrences_of_some suffix_of_afterAtSign? hfound]
  exact List.mem_cons_self

variable (hnames : ∀ name ∈ names, '@' ∉ name)

include hnames

theorem all_append (front back : List Char) :
    ∃ earlier, all names (front ++ back) = earlier ++ all names back := by
  have hpass : ∀ {before : List Char}, '@' ∉ before → ∀ rest,
      all names (before ++ rest) = all names rest := by
    intro before hbefore rest
    apply Text.occurrences_pass
    intro c hc after
    apply Written.afterAtSign?_of_ne
    rintro rfl
    exact hbefore hc
  by_cases hback : '@' ∈ back
  · rcases List.eq_append_cons_of_mem hback with ⟨before, tail, rfl, hbefore⟩
    rw [hpass hbefore]
    have hsuffix : '@' :: tail <:+ front ++ (before ++ '@' :: tail) :=
      (List.suffix_append before _).trans (List.suffix_append front _)
    exact Text.occurrences_suffix (Written.suffix_afterAtSign? hnames) hsuffix
  · refine ⟨all names (front ++ back), ?_⟩
    have hnone := hpass hback []
    rw [List.append_nil] at hnone
    rw [hnone]
    exact (List.append_nil _).symm

theorem getLast?_all_append {back : List Char} (hback : all names back ≠ [])
    (front : List Char) :
    (all names (front ++ back)).getLast? = (all names back).getLast? := by
  rcases all_append hnames front back with ⟨earlier, hall⟩
  rw [hall, List.getLast?_append_of_ne_nil _ hback]

end AnnotationName

namespace AnnotationRules

open LexicalView (EndsInCode blankComments codeOnly maskLiterals modeAfter)

def Annotates (rules : AnnotationRules) (text : List Char) : Prop :=
  AnnotationName.all rules.mappingNames (codeOnly text) ≠ []

instance (rules : AnnotationRules) (text : List Char) : Decidable (rules.Annotates text) :=
  inferInstanceAs (Decidable (_ ≠ _))

variable {rules : AnnotationRules}

theorem annotates_of_route? {text : List Char} {route : RouteMapping}
    (hroute : rules.route? text = some route) : rules.Annotates text := by
  intro hnone
  rw [route?, AnnotationName.last?, hnone] at hroute
  cases hroute

variable (hnames : ∀ name ∈ rules.mappingNames, '@' ∉ name)

include hnames

theorem route?_append {front back : List Char} (hends : EndsInCode front)
    (hback : rules.Annotates back) : rules.route? (front ++ back) = rules.route? back := by
  have hlast : (AnnotationName.all rules.mappingNames (codeOnly (front ++ back))).getLast? =
      (AnnotationName.all rules.mappingNames (codeOnly back)).getLast? := by
    rw [hends.codeOnly_append]
    exact AnnotationName.getLast?_all_append hnames hback _
  cases hentry : (AnnotationName.all rules.mappingNames (codeOnly back)).getLast? with
  | none =>
      exact absurd (List.getLast?_eq_none_iff.mp hentry) hback
  | some entry =>
      rcases Text.suffix_of_mem_occurrences AnnotationName.suffix_of_afterAtSign?
        (List.mem_of_getLast? hentry) with ⟨piece, hpiece⟩
      rw [← LexicalView.maskLiterals_blankComments] at hpiece
      -- Behind the name both texts go on in the same way.
      have hboth : Text.dropBytes (Text.byteSize (codeOnly (front ++ back)) -
            Text.byteSize entry.2) (blankComments (front ++ back)) =
          Text.dropBytes (Text.byteSize (codeOnly back) - Text.byteSize entry.2)
            (blankComments back) := by
        have hwhole := @Attributes.dropBytes_of_masked (blankComments front) _ _ _ hpiece
        have halone := @Attributes.dropBytes_of_masked [] _ _ _ hpiece
        rw [← hends.blankComments_append, LexicalView.maskLiterals_blankComments] at hwhole
        rw [List.nil_append, LexicalView.maskLiterals_blankComments] at halone
        exact hwhole.trans halone.symm
      rw [route?_eq, route?_eq, routeIn?, routeIn?, LexicalView.maskLiterals_blankComments,
        LexicalView.maskLiterals_blankComments, AnnotationName.last?, AnnotationName.last?,
        hlast, hentry, Option.map_some, Option.bind_some, Option.map_some, Option.bind_some,
        hboth]

/-- A block with a mapping annotation declares the same route behind any text that ends in
code: the block is read in the same way, and its annotations are the last ones. -/
theorem route?_behind {before block : List Char} (hmode : modeAfter .code before = .code)
    (hslash : before.getLast? ≠ some '/') (hblock : rules.Annotates block) :
    rules.route? (before ++ block) = rules.route? block ∧
      codeOnly (before ++ block) = codeOnly before ++ codeOnly block ∧
      ∃ earlier, AnnotationName.all rules.mappingNames (codeOnly (before ++ block)) =
        earlier ++ AnnotationName.all rules.mappingNames (codeOnly block) := by
  have hends : EndsInCode before := .of_getLast? hmode hslash
  refine ⟨route?_append hnames hends hblock, hends.codeOnly_append block, ?_⟩
  rw [hends.codeOnly_append]
  exact AnnotationName.all_append hnames _ _

omit hnames

/-- An annotation with an open list, a comment with a bracket and an unfinished qualifier,
which takes up the word that follows. -/
def unfinished : List Char :=
  "@GetMapping(\x7b\"/old\", (( /* ) */ @org.".toList

def qualifiedBlock : List Char :=
  "web. PutMapping @PostMapping(path = \"/new\") void f".toList

theorem route?_behind_unfinished :
    ((AnnotationName.all standard.mappingNames (codeOnly (unfinished ++ qualifiedBlock))).map
        fun entry => String.ofList entry.1) = ["GetMapping", "PutMapping", "PostMapping"] ∧
      standard.Annotates qualifiedBlock ∧
      standard.route? (unfinished ++ qualifiedBlock) = standard.route? qualifiedBlock ∧
      standard.route? qualifiedBlock = some ⟨.post, ["/new"]⟩ := by
  have hblock : standard.Annotates qualifiedBlock := by
    decide +kernel
  refine ⟨by cbv, hblock, ?_, by cbv⟩
  exact (route?_behind (by decide) (by decide +kernel) (by decide +kernel) hblock).1

end AnnotationRules
end EndpointTrace
