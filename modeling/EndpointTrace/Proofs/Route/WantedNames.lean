import EndpointTrace.Proofs.Route.CommentedBlocks
import Mathlib.Data.List.Find
import Mathlib.Data.List.Nodup

/-!
# Wanted names as a set

A name ends where a word ends.  So at one place of a text no two of the wanted names can be
recognised, even if one begins with the other, and what is found depends on which names are
wanted and not on their order.  A name that does not occur in the live part of a text can be
wanted or not without any difference.
-/

namespace EndpointTrace

namespace AnnotationName

open Written (AreWords)

/-!
## One place
-/

section

variable {names : List (List Char)}

/-- A name is recognised where it stands as a word, and only there. -/
theorem startingAt?_eq_some_iff (hnames : AreWords names) {cs name left : List Char} :
    startingAt? names cs = some (name, left) ↔
      name ∈ names ∧ cs = name ++ left ∧ left.head?.any Text.isWordChar = false := by
  constructor
  · intro hfound
    rcases List.exists_of_findSome?_eq_some hfound with ⟨wanted, hwanted, hmatch⟩
    split at hmatch
    · rename_i rest hafter
      split at hmatch
      · rename_i hboundary
        cases hmatch
        refine ⟨hwanted, Text.eq_append_of_after? hafter, ?_⟩
        rw [Text.isWordBoundary, Written.isWordChar_getLast? hnames hwanted] at hboundary
        cases hnext : left.head?.any Text.isWordChar with
        | false =>
            rfl
        | true =>
            rw [hnext] at hboundary
            cases hboundary
      · cases hmatch
    · cases hmatch
  · rintro ⟨hname, rfl, hleft⟩
    exact Written.startingAt?_word hnames hname hleft

theorem startingAt?_congr (hnames : AreWords names) {others : List (List Char)}
    (hsame : ∀ name, name ∈ others ↔ name ∈ names) : startingAt? others = startingAt? names := by
  have hothers : AreWords others := fun name hname => hnames name ((hsame name).mp hname)
  funext cs
  apply Option.ext
  intro entry
  rcases entry with ⟨name, left⟩
  rw [startingAt?_eq_some_iff hothers, startingAt?_eq_some_iff hnames, hsame]

theorem startingAt?_insert {first rest : List (List Char)} {name cs : List Char}
    (habsent : ¬ name <+: cs) :
    startingAt? (first ++ name :: rest) cs = startingAt? (first ++ rest) cs := by
  have hnone : Text.after? name cs = none := by
    cases hafter : Text.after? name cs with
    | none =>
        rfl
    | some left =>
        rw [Text.eq_append_of_after? hafter] at habsent
        exact absurd (List.prefix_append name left) habsent
  unfold startingAt?
  rw [List.findSome?_append, List.findSome?_append, List.findSome?_cons, hnone]

end

/-!
## Whole texts
-/

theorem all_congr {names others : List (List Char)} (hnames : AreWords names)
    (hsame : ∀ name, name ∈ others ↔ name ∈ names) (live : List Char) :
    all others live = all names live := by
  have hrecognise : afterAtSign? others = afterAtSign? names := by
    funext cs
    unfold afterAtSign?
    rw [startingAt?_congr hnames hsame]
  rw [all, hrecognise, all]

theorem all_insert (first rest : List (List Char)) {name live : List Char}
    (habsent : ¬ name <:+: live) : all (first ++ name :: rest) live = all (first ++ rest) live := by
  apply Text.occurrences_congr
  intro cs hcs
  unfold afterAtSign?
  split
  · rename_i behind
    rw [← List.head?_filterMap, ← List.head?_filterMap]
    apply congrArg List.head?
    apply List.filterMap_congr
    intro start hstart
    apply startingAt?_insert
    intro hfront
    have hsuffix := (suffix_of_mem_starts hstart).trans ((List.suffix_cons '@' behind).trans hcs)
    exact habsent (hfront.isInfix.trans hsuffix.isInfix)
  · rfl

theorem whole_of_mem_all {names : List (List Char)} (hnames : AreWords names)
    {live name left : List Char} (hentry : (name, left) ∈ all names live) :
    name ∈ names ∧ (∃ before, live = before ++ (name ++ left)) ∧
      left.head?.any Text.isWordChar = false := by
  rcases exists_start_of_mem_all hentry with ⟨start, ⟨before, hbefore⟩, hfound⟩
  rcases (startingAt?_eq_some_iff hnames).mp hfound with ⟨hname, rfl, hleft⟩
  exact ⟨hname, ⟨before, hbefore.symm⟩, hleft⟩

end AnnotationName

namespace AnnotationRules

open LexicalView (codeOnly)
open Written (AreWords)

def routeBy (mappings : List MappingRule) (markers : List String) (block : List Char) :
    Except Failure (Option RouteMapping) :=
  (ofLists mappings markers).map fun rules => rules.route? block

def marksBy (mappings : List MappingRule) (markers : List String) (block : List Char) :
    Except Failure Bool :=
  (ofLists mappings markers).map fun rules => rules.isController block

theorem map_ofLists_congr {α : Type} {read : AnnotationRules → α}
    {mappings others : List MappingRule} {markers otherMarkers : List String}
    (hempty : others = [] ↔ mappings = [])
    (hsame : read ⟨others, otherMarkers⟩ = read ⟨mappings, markers⟩) :
    (ofLists others otherMarkers).map read = (ofLists mappings markers).map read := by
  have hisEmpty : others.isEmpty = mappings.isEmpty := by
    rw [Bool.eq_iff_iff, List.isEmpty_iff, List.isEmpty_iff, hempty]
  unfold ofLists
  rw [hisEmpty]
  split
  · rfl
  · exact congrArg Except.ok hsame

theorem route?_congr {rules others : AnnotationRules} {block : List Char}
    (hall : AnnotationName.all others.mappingNames (codeOnly block) =
      AnnotationName.all rules.mappingNames (codeOnly block))
    (hrule : ∀ entry ∈ AnnotationName.all rules.mappingNames (codeOnly block),
      (others.mappings.find? fun rule => rule.name.toList == entry.1) =
        rules.mappings.find? fun rule => rule.name.toList == entry.1) :
    others.route? block = rules.route? block := by
  unfold route? AnnotationName.last?
  rw [hall]
  cases hlast : (AnnotationName.all rules.mappingNames (codeOnly block)).getLast? with
  | none =>
      rfl
  | some entry =>
      have hfind := hrule entry (List.mem_of_getLast? hlast)
      simp only [Option.map_some, Option.bind_eq_bind, Option.bind_some, hfind]

theorem find?_of_perm {mappings others : List MappingRule} (hperm : others.Perm mappings)
    (hdistinct : (mappings.map MappingRule.name).Nodup) (name : List Char) :
    (others.find? fun rule => rule.name.toList == name) =
      mappings.find? fun rule => rule.name.toList == name := by
  apply (List.find?_eq_find?_of_perm hperm.symm ?_).symm
  rintro first ⟨hfirst, hfirstName⟩ second ⟨hsecond, hsecondName⟩
  apply List.inj_on_of_nodup_map hdistinct hfirst hsecond
  apply String.toList_injective
  rw [beq_iff_eq.mp hfirstName, beq_iff_eq.mp hsecondName]

theorem markerNames_eq {rules : AnnotationRules} (hmarkers : rules.markers ≠ []) :
    rules.markerNames = rules.markers.map String.toList := by
  unfold markerNames
  split
  · rename_i hnil
    exact absurd hnil hmarkers
  · rfl

/-!
## Mappings
-/

section

variable {mappings : List MappingRule} {block : List Char}

theorem routeBy_of_perm (hnames : AreWords (mappings.map fun rule => rule.name.toList))
    (hdistinct : (mappings.map MappingRule.name).Nodup) {permuted : List MappingRule}
    (hperm : permuted.Perm mappings) (markers : List String) :
    routeBy permuted markers block = routeBy mappings markers block := by
  apply map_ofLists_congr
  · constructor
    · rintro rfl
      exact hperm.nil_eq.symm
    · rintro rfl
      exact hperm.eq_nil
  · apply route?_congr
    · apply AnnotationName.all_congr hnames
      exact fun name => (hperm.map _).mem_iff
    · exact fun entry _ => find?_of_perm hperm hdistinct entry.1

theorem routeBy_insert {first rest : List MappingRule} {rule : MappingRule}
    (hnames : AreWords ((first ++ rest).map fun rule => rule.name.toList))
    (hsome : first ++ rest ≠ []) (habsent : ¬ rule.name.toList <:+: codeOnly block)
    (markers : List String) :
    routeBy (first ++ rule :: rest) markers block = routeBy (first ++ rest) markers block := by
  have hall := AnnotationName.all_insert (first.map fun rule => rule.name.toList)
    (rest.map fun rule => rule.name.toList) habsent
  apply map_ofLists_congr
  · exact iff_of_false (List.append_ne_nil_of_right_ne_nil _ (List.cons_ne_nil _ _)) hsome
  · apply route?_congr
    · simp only [mappingNames, List.map_append, List.map_cons, hall]
    · intro entry hentry
      -- The name of the entry stands in the block and that of the further rule does not.
      have hne : (rule.name.toList == entry.1) = false := by
        rcases AnnotationName.whole_of_mem_all hnames hentry with ⟨_, ⟨before, hbefore⟩, _⟩
        rw [beq_eq_false_iff_ne]
        intro heq
        apply habsent
        rw [hbefore, heq]
        exact (List.prefix_append _ _).isInfix.trans (List.suffix_append _ _).isInfix
      rw [List.find?_append, List.find?_append, List.find?_cons, hne]

end

/-!
## Markers
-/

section

variable {markers : List String} {block : List Char}

theorem marksBy_of_perm (hmarkers : markers ≠ []) (hwords : AreWords (markers.map String.toList))
    {shuffled : List String} (hperm : shuffled.Perm markers) (mappings : List MappingRule) :
    marksBy mappings shuffled block = marksBy mappings markers block := by
  have hshuffled : shuffled ≠ [] := by
    rintro rfl
    exact hmarkers hperm.nil_eq.symm
  apply map_ofLists_congr Iff.rfl
  unfold isController
  rw [markerNames_eq hshuffled, markerNames_eq hmarkers,
    AnnotationName.all_congr hwords fun name => (hperm.map _).mem_iff]

theorem marksBy_insert {first rest : List String} {marker : String}
    (hsome : first ++ rest ≠ []) (habsent : ¬ marker.toList <:+: codeOnly block)
    (mappings : List MappingRule) :
    marksBy mappings (first ++ marker :: rest) block =
      marksBy mappings (first ++ rest) block := by
  have hall := AnnotationName.all_insert (first.map String.toList) (rest.map String.toList)
    habsent
  have hgrown : first ++ marker :: rest ≠ [] :=
    List.append_ne_nil_of_right_ne_nil _ (List.cons_ne_nil _ _)
  apply map_ofLists_congr Iff.rfl
  unfold isController
  rw [markerNames_eq hgrown, markerNames_eq hsome, List.map_append, List.map_cons, hall,
    List.map_append]

end

/-- Mapping rules with different words as names give the same route in any order, and with
one rule more, in any place, whose name does not occur in the live part of the block.  It is
the same with the words of markers.  An annotation is taken for a mapping or a marker only if
the wanted name stands in the block as it is and no word goes on behind it. -/
theorem answers_of_any_order (block : List Char) :
    (∀ mappings markers, mappings ≠ [] →
      AreWords (mappings.map fun rule => rule.name.toList) →
      (mappings.map MappingRule.name).Nodup →
        (∃ route, routeBy mappings markers block = .ok route) ∧
        (∀ permuted, permuted.Perm mappings →
          routeBy permuted markers block = routeBy mappings markers block) ∧
        (∀ first rule rest, mappings = first ++ rest →
          ¬ rule.name.toList <:+: codeOnly block →
            routeBy (first ++ rule :: rest) markers block = routeBy mappings markers block) ∧
        ∀ name left,
          (name, left) ∈ AnnotationName.all (mappingNames ⟨mappings, markers⟩) (codeOnly block) →
            name ∈ mappingNames ⟨mappings, markers⟩ ∧
              (∃ before, codeOnly block = before ++ (name ++ left)) ∧
                left.head?.any Text.isWordChar = false) ∧
    ∀ mappings markers, mappings ≠ [] → markers ≠ [] → AreWords (markers.map String.toList) →
      (∃ marks, marksBy mappings markers block = .ok marks) ∧
      (∀ shuffled, shuffled.Perm markers →
        marksBy mappings shuffled block = marksBy mappings markers block) ∧
      (∀ first marker rest, markers = first ++ rest → ¬ marker.toList <:+: codeOnly block →
        marksBy mappings (first ++ marker :: rest) block = marksBy mappings markers block) ∧
      ∀ name left,
        (name, left) ∈ AnnotationName.all (markerNames ⟨mappings, markers⟩) (codeOnly block) →
          name ∈ markerNames ⟨mappings, markers⟩ ∧
            (∃ before, codeOnly block = before ++ (name ++ left)) ∧
              left.head?.any Text.isWordChar = false := by
  constructor
  · intro mappings markers hsome hnames hdistinct
    refine ⟨?_, ?_, ?_, ?_⟩
    · rcases List.exists_cons_of_ne_nil hsome with ⟨rule, rest, rfl⟩
      exact ⟨_, rfl⟩
    · exact fun permuted hperm => routeBy_of_perm hnames hdistinct hperm markers
    · rintro first rule rest rfl habsent
      exact routeBy_insert hnames hsome habsent markers
    · exact fun name left hentry => AnnotationName.whole_of_mem_all hnames hentry
  · intro mappings markers hsome hmarkers hwords
    refine ⟨?_, ?_, ?_, ?_⟩
    · rcases List.exists_cons_of_ne_nil hsome with ⟨rule, rest, rfl⟩
      exact ⟨_, rfl⟩
    · exact fun shuffled hperm => marksBy_of_perm hmarkers hwords hperm mappings
    · rintro first marker rest rfl habsent
      exact marksBy_insert hmarkers habsent mappings
    · intro name left hentry
      apply AnnotationName.whole_of_mem_all _ hentry
      rw [markerNames_eq hmarkers]
      exact hwords

def growing : List MappingRule :=
  [⟨"Get", some .put⟩, ⟨"GetMapping", some .get⟩, ⟨"GetMapping2", some .post⟩]

def growingMarkers : List String := ["Rest", "RestController"]

def growingBlock : List Char :=
  "@RestController @GetMapping2(\"/a\") @web. GetMapping (\"/b\") @GetMapping3(\"/c\")".toList

theorem answers_of_any_order_growing :
    growing ≠ [] ∧ AreWords (growing.map fun rule => rule.name.toList) ∧
      (growing.map MappingRule.name).Nodup ∧ growing.reverse.Perm growing ∧
      routeBy growing.reverse growingMarkers growingBlock =
        routeBy growing growingMarkers growingBlock ∧
      ¬ "GetMapping33".toList <:+: codeOnly growingBlock ∧
      routeBy (growing.take 1 ++ ⟨"GetMapping33", none⟩ :: growing.drop 1) growingMarkers
          growingBlock = routeBy growing growingMarkers growingBlock ∧
      routeBy growing growingMarkers growingBlock = .ok (some ⟨.get, ["/b"]⟩) ∧
      (∃ left, ("GetMapping".toList, left) ∈
          AnnotationName.all (mappingNames ⟨growing, growingMarkers⟩) (codeOnly growingBlock) ∧
        left.head?.any Text.isWordChar = false) ∧
    growingMarkers ≠ [] ∧ AreWords (growingMarkers.map String.toList) ∧
      growingMarkers.reverse.Perm growingMarkers ∧
      marksBy growing growingMarkers.reverse growingBlock =
        marksBy growing growingMarkers growingBlock ∧
      marksBy growing growingMarkers growingBlock = .ok true ∧
      ∃ left, ("RestController".toList, left) ∈
          AnnotationName.all (markerNames ⟨growing, growingMarkers⟩) (codeOnly growingBlock) ∧
        left.head?.any Text.isWordChar = false := by
  have hnames : AreWords (growing.map fun rule => rule.name.toList) := by
    unfold AreWords
    decide
  have hwords : AreWords (growingMarkers.map String.toList) := by
    unfold AreWords
    decide
  have hdistinct : (growing.map MappingRule.name).Nodup := by decide
  have habsent : ¬ "GetMapping33".toList <:+: codeOnly growingBlock := by decide +kernel
  rcases answers_of_any_order growingBlock with ⟨hroute, hmarks⟩
  rcases hroute growing growingMarkers (List.cons_ne_nil _ _) hnames hdistinct with
    ⟨_, hperm, hinsert, hwhole⟩
  rcases hmarks growing growingMarkers (List.cons_ne_nil _ _) (List.cons_ne_nil _ _) hwords with
    ⟨_, hshuffle, _, hmarker⟩
  have hmapping : ("GetMapping".toList, " (\"  \") @GetMapping3(\"  \")".toList) ∈
      AnnotationName.all (mappingNames ⟨growing, growingMarkers⟩) (codeOnly growingBlock) := by
    decide +kernel
  have hcontroller : ("RestController".toList,
      " @GetMapping2(\"  \") @web. GetMapping (\"  \") @GetMapping3(\"  \")".toList) ∈
        AnnotationName.all (markerNames ⟨growing, growingMarkers⟩) (codeOnly growingBlock) := by
    decide +kernel
  exact ⟨List.cons_ne_nil _ _, hnames, hdistinct, List.reverse_perm _,
    hperm _ (List.reverse_perm _), habsent, hinsert _ ⟨"GetMapping33", none⟩ _ rfl habsent,
    by decide +kernel, ⟨_, hmapping, (hwhole _ _ hmapping).2.2⟩, List.cons_ne_nil _ _, hwords,
    List.reverse_perm _, hshuffle _ (List.reverse_perm _), by decide +kernel,
    ⟨_, hcontroller, (hmarker _ _ hcontroller).2.2⟩⟩

end AnnotationRules
end EndpointTrace
