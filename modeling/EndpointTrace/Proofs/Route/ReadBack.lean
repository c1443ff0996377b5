import EndpointTrace.Proofs.Route.AnnotationSearch
import EndpointTrace.Proofs.Route.MethodNames
import EndpointTrace.Proofs.Route.PathValues

/-!
# Reading back written annotations

An annotation that is written in the middle of a text, with any layout and any qualifier,
is read back as what it says, as long as the text before it leaves the scan in code and no
other mapping annotation follows.

What is read from a path value is the same as what the value says if it consists of string
literals.  Of any other value the literals are read as if nothing else stood there, and a
constant without a key is read as the root.
-/

namespace EndpointTrace
namespace Written

open LexicalView (Labelled)

/-!
## Views of an annotation
-/

theorem areWords_mappingNames : AreWords AnnotationRules.standard.mappingNames := by
  unfold AreWords
  decide +kernel

namespace Mapping

variable (mapping : Mapping)

theorem name_mem : mapping.rule.name.toList ∈ AnnotationRules.standard.mappingNames :=
  List.mem_map_of_mem mapping.known

def name : Identifier where
  chars := mapping.rule.name.toList
  nonempty := (areWords_mappingNames _ mapping.name_mem).1
  parts := List.all_eq_true.mpr fun c hc => Text.isNamePart_of_isWordChar
    (List.all_eq_true.mp (areWords_mappingNames _ mapping.name_mem).2 c hc)

theorem find?_name :
    AnnotationRules.standard.mappings.find?
        (fun rule => rule.name.toList == mapping.name.chars) = some mapping.rule := by
  have hall : ∀ rule ∈ AnnotationRules.defaultMappings,
      AnnotationRules.defaultMappings.find?
        (fun other => other.name.toList == rule.name.toList) = some rule := by
    decide +kernel
  exact hall mapping.rule mapping.known

theorem sound : Labelled.Sound mapping.labelled := by
  have hsign : Labelled.Sound (.ofCode ['@']) := Labelled.sound_ofCode rfl
  have hopening : Labelled.Sound (.ofCode ['(']) := Labelled.sound_ofCode rfl
  have hclosing : Labelled.Sound (.ofCode [')']) := Labelled.sound_ofCode rfl
  have hname : Labelled.Sound (.ofCode mapping.rule.name.toList) :=
    (Token.name mapping.name).sound
  have hhead : Labelled.Sound mapping.head :=
    .append (.flatMap fun segment _ => segment.sound) hname
  have hinner : Labelled.Sound mapping.inner :=
    mapping.layout.sound.append mapping.trailing.sound
  have hlist : Labelled.Sound mapping.list :=
    ((mapping.gap.sound.append hopening).append hinner).append hclosing
  exact (hsign.append hhead).append hlist

theorem live_head :
    Labelled.live mapping.head =
      mapping.qualifier.flatMap Segment.text ++ mapping.name.chars := by
  have hqualifier : ∀ qualifier : List Segment,
      Labelled.live (qualifier.flatMap Segment.labelled) = qualifier.flatMap Segment.text := by
    intro qualifier
    induction qualifier with
    | nil =>
        rfl
    | cons segment more ih =>
        rw [List.flatMap_cons, Labelled.live_append, segment.live_labelled, ih,
          List.flatMap_cons]
  rw [head, Labelled.live_append, hqualifier, Labelled.live_ofCode]
  rfl

theorem live_list :
    Labelled.live mapping.list = mapping.gap.spaces ++
      '(' :: (mapping.layout.masked ++ (mapping.trailing.spaces ++ [')'])) := by
  rw [list, inner, Labelled.live_append, Labelled.live_append, Labelled.live_append,
    Labelled.live_append, Labelled.live_ofCode, Labelled.live_ofCode, Gap.live_labelled,
    Gap.live_labelled, Layout.live_labelled]
  simp only [List.append_assoc, List.cons_append, List.nil_append]

theorem bare_list :
    Labelled.bare mapping.list = mapping.gap.spaces ++
      '(' :: (mapping.layout.text ++ (mapping.trailing.spaces ++ [')'])) := by
  rw [list, inner, Labelled.bare_append, Labelled.bare_append, Labelled.bare_append,
    Labelled.bare_append, Labelled.bare_ofCode, Labelled.bare_ofCode, Gap.bare_labelled,
    Gap.bare_labelled, Layout.bare_labelled]
  simp only [List.append_assoc, List.cons_append, List.nil_append]

theorem ne_at_of_mem_live {c : Char} (hc : c ∈ Labelled.live mapping.list) : c ≠ '@' := by
  have hspaces : ∀ gap : Gap, c ∈ gap.spaces → c ≠ '@' := by
    rintro gap hc rfl
    cases Gap.isBlank_of_mem hc
  have htoken : ∀ token : Token, c ∈ token.masked → c ≠ '@' := by
    intro token hc
    cases token with
    | name identifier =>
        rintro rfl
        cases Identifier.isNamePart_of_mem hc
    | literal written =>
        rintro rfl
        rcases Literal.of_mem_masked hc with hquote | hblank
        · cases hquote
        · cases hblank
    | mark sign =>
        rw [List.mem_singleton.mp hc]
        cases sign <;> decide
  rw [mapping.live_list] at hc
  rcases List.mem_append.mp hc with hc | hc
  · exact hspaces _ hc
  · rcases List.mem_cons.mp hc with rfl | hc
    · decide
    · rcases List.mem_append.mp hc with hc | hc
      · rcases List.mem_flatMap.mp hc with ⟨placed, _, hc⟩
        rcases List.mem_append.mp hc with hc | hc
        · exact hspaces _ hc
        · exact htoken _ hc
      · rcases List.mem_append.mp hc with hc | hc
        · exact hspaces _ hc
        · rw [List.mem_singleton.mp hc]
          decide

/-!
## An annotation in a text
-/

theorem text_eq_cons : ∃ more, Labelled.text mapping.labelled = '@' :: more :=
  ⟨_, rfl⟩

variable {mapping} {pre post : List Char} (hpre : LexicalView.modeAfter .code pre = .code)

include hpre

theorem scan_block :
    LexicalView.scan .code (pre ++ mapping.text ++ post) =
      LexicalView.scan .code pre ++ (mapping.labelled ++ LexicalView.scan .code post) := by
  rcases mapping.text_eq_cons with ⟨more, hmore⟩
  exact mapping.sound.scan_between hmore (by decide) (by decide) hpre post

theorem last?_block
    (hpost : AnnotationName.all AnnotationRules.standard.mappingNames
      (LexicalView.codeOnly post) = []) :
    AnnotationName.last? AnnotationRules.standard.mappingNames
        (LexicalView.codeOnly (pre ++ mapping.text ++ post)) =
      some (mapping.name.chars, Text.byteSize
        (LexicalView.codeOnly pre ++ '@' :: Labelled.live mapping.head)) := by
  have hnames : ∀ name ∈ AnnotationRules.standard.mappingNames, '@' ∉ name := by
    intro name hname hmem
    cases List.all_eq_true.mp (areWords_mappingNames name hname).2 _ hmem
  have hlive : LexicalView.codeOnly (pre ++ mapping.text ++ post) =
      LexicalView.codeOnly pre ++ ('@' :: Labelled.live mapping.head ++
        (Labelled.live mapping.list ++ LexicalView.codeOnly post)) := by
    rw [Labelled.codeOnly_eq, scan_block hpre, Labelled.live_append, Labelled.live_append,
      labelled, Labelled.live_append, Labelled.live_append, Labelled.live_ofCode]
    simp only [List.append_assoc]
    rfl
  have hmatch : AnnotationName.afterAtSign? AnnotationRules.standard.mappingNames
      ('@' :: Labelled.live mapping.head ++
        (Labelled.live mapping.list ++ LexicalView.codeOnly post)) =
      some (mapping.name.chars,
        Labelled.live mapping.list ++ LexicalView.codeOnly post) := by
    have hmem : mapping.name.chars ∈ AnnotationRules.standard.mappingNames :=
      mapping.name_mem
    have hfound := afterAtSign?_qualified areWords_mappingNames hmem mapping.qualifier
      mapping.gap (mapping.layout.masked ++
        (mapping.trailing.spaces ++ ')' :: LexicalView.codeOnly post))
    rw [mapping.live_head, mapping.live_list]
    simp only [List.append_assoc, List.cons_append, List.nil_append]
    exact hfound
  have hrest : AnnotationName.all AnnotationRules.standard.mappingNames
      (Labelled.live mapping.list ++ LexicalView.codeOnly post) = [] := by
    rw [← hpost]
    apply Text.occurrences_pass
    intro c hc after
    exact afterAtSign?_of_ne (mapping.ne_at_of_mem_live hc) after
  rw [hlive]
  exact last?_of_match hnames hmatch hrest (LexicalView.codeOnly pre)

theorem list?_block :
    Attributes.list? (Text.dropBytes
        (Text.byteSize (LexicalView.codeOnly pre ++ '@' :: Labelled.live mapping.head))
        (LexicalView.blankComments (pre ++ mapping.text ++ post))) =
      some (mapping.layout.text ++ mapping.trailing.spaces) := by
  have hbare : LexicalView.blankComments (pre ++ mapping.text ++ post) =
      (LexicalView.blankComments pre ++ '@' :: Labelled.bare mapping.head) ++
        (mapping.gap.spaces ++ '(' :: (mapping.layout.text ++
          (mapping.trailing.spaces ++ ')' :: LexicalView.blankComments post))) := by
    rw [Labelled.blankComments_eq, scan_block hpre, Labelled.bare_append, Labelled.bare_append,
      labelled, Labelled.bare_append, Labelled.bare_append, Labelled.bare_ofCode,
      mapping.bare_list]
    simp only [List.append_assoc, List.cons_append, List.nil_append]
    rfl
  -- The place is found where literals are hidden, and used where they are not.
  have hsize : Text.byteSize (LexicalView.codeOnly pre ++ '@' :: Labelled.live mapping.head) =
      Text.byteSize (LexicalView.blankComments pre ++ '@' :: Labelled.bare mapping.head) := by
    rw [Text.byteSize_append, Text.byteSize_append, Text.byteSize, Text.byteSize,
      Labelled.byteSize_live, Labelled.codeOnly_eq, Labelled.blankComments_eq,
      Labelled.byteSize_live]
  rw [hsize, hbare, Text.dropBytes_byteSize_append, list?_layout]

/-- What is read from a text is what is read from the annotation itself. -/
theorem route?_block
    (hpost : AnnotationName.all AnnotationRules.standard.mappingNames
      (LexicalView.codeOnly post) = []) :
    AnnotationRules.standard.route? (pre ++ mapping.text ++ post) =
      mapping.attributes.read?.map fun paths => ⟨mapping.method, paths⟩ := by
  have hmethod := method?_written mapping.laidOut mapping.trailing
  have hpaths := paths?_written mapping.laidOut mapping.trailing
  rw [AnnotationRules.route?, last?_block hpre hpost]
  simp only [Option.bind_eq_bind, Option.bind_some]
  rw [mapping.find?_name, list?_block hpre]
  simp only [Option.bind_some, Option.map_some, Option.getD_some]
  rw [hmethod, ← hpaths, Option.map_map]
  cases Attributes.paths? (mapping.layout.text ++ mapping.trailing.spaces) <;> rfl

end Mapping

/-!
## Values that are text
-/

theorem Expression.literals_of_literal? {expression : Expression} {written : Literal}
    (hliteral : expression.literal? = some written) : expression.literals = [written] := by
  rcases expression with ⟨first, rest⟩
  cases first with
  | literal other =>
      cases rest with
      | nil =>
          cases hliteral
          rfl
      | cons next more =>
          cases hliteral
  | constant first others =>
      cases hliteral

theorem Value.taken?_of_literals? {value : Value} {literals : List Literal}
    (hliterals : value.literals? = some literals) : value.taken? = some literals := by
  cases value with
  | single expression =>
      rcases Option.map_eq_some_iff.mp hliterals with ⟨written, hwritten, rfl⟩
      rcases expression with ⟨first, rest⟩
      cases first with
      | literal other =>
          cases rest with
          | nil =>
              cases hwritten
              rfl
          | cons next more =>
              cases hwritten
      | constant first others =>
          cases hwritten
  | list expressions =>
      have hall : expressions.flatMap Expression.literals = literals := by
        have hmap : expressions.mapM Expression.literal? = some literals := hliterals
        clear hliterals
        induction expressions generalizing literals with
        | nil =>
            cases hmap
            rfl
        | cons expression rest ih =>
            rw [List.mapM_cons] at hmap
            rcases Option.bind_eq_some_iff.mp hmap with ⟨written, hwritten, hmap⟩
            rcases Option.bind_eq_some_iff.mp hmap with ⟨others, hothers, hmap⟩
            cases hmap
            rw [List.flatMap_cons, Expression.literals_of_literal? hwritten, ih hothers]
            rfl
      exact congrArg some hall

theorem Value.eq_constant_of_taken? {value : Value} (hnone : value.taken? = none) :
    ∃ first rest operands, value = .single ⟨.constant first rest, operands⟩ := by
  cases value with
  | single expression =>
      rcases expression with ⟨first, operands⟩
      cases first with
      | literal written =>
          cases hnone
      | constant first rest =>
          exact ⟨first, rest, operands, rfl⟩
  | list expressions =>
      cases hnone

namespace Mapping

variable {mapping : Mapping}

theorem read?_of_pathValue? {value : Value}
    (hvalue : mapping.attributes.pathValue? = some value) :
    mapping.attributes.read? =
      match mapping.attributes with
      | .positional _ => some ((value.taken?.map pathsOf).getD ["/"])
      | .keyed _ => value.taken?.map pathsOf := by
  cases hattributes : mapping.attributes with
  | positional other =>
      rw [hattributes] at hvalue
      cases hvalue
      rfl
  | keyed attributes =>
      rw [hattributes, AttributeList.pathValue?] at hvalue
      rw [AttributeList.read?, hvalue]

theorem read?_of_paths? {paths : List String} (hpaths : mapping.paths? = some paths) :
    mapping.attributes.read? = some paths := by
  unfold paths? at hpaths
  cases hvalue : mapping.attributes.pathValue? with
  | none =>
      rw [hvalue] at hpaths
      cases hattributes : mapping.attributes with
      | positional value =>
          rw [hattributes] at hvalue
          cases hvalue
      | keyed attributes =>
          rw [hattributes, AttributeList.pathValue?] at hvalue
          rw [AttributeList.read?, hvalue]
          exact hpaths
  | some value =>
      rw [hvalue] at hpaths
      rcases Option.map_eq_some_iff.mp hpaths with ⟨literals, hliterals, rfl⟩
      rw [read?_of_pathValue? hvalue, Value.taken?_of_literals? hliterals]
      cases mapping.attributes <;> rfl

variable {pre post : List Char}

/-- A written annotation whose paths are literals is read back as what it says. -/
theorem route?_written (hpre : LexicalView.modeAfter .code pre = .code)
    (hpost : AnnotationName.all AnnotationRules.standard.mappingNames
      (LexicalView.codeOnly post) = [])
    {paths : List String} (hpaths : mapping.paths? = some paths) :
    AnnotationRules.standard.route? (pre ++ mapping.text ++ post) =
      some ⟨mapping.method, paths⟩ := by
  rw [route?_block hpre hpost, read?_of_paths? hpaths]
  rfl

def commented : Mapping where
  qualifier := [⟨'w', "eb".toList, by decide, by decide, [.blank ' ' rfl], []⟩]
  rule := ⟨"RequestMapping", none⟩
  known := by decide
  gap := [.blockComment " :) ".toList (by decide)]
  attributes := .keyed
    [.other ⟨"name".toList, by decide, by decide⟩ (by decide)
      (.single ⟨.literal [.plain '@' (by decide), .plain ')' (by decide)], []⟩),
    .method (.list [⟨true, ⟨"TRACE".toList, by decide, by decide⟩⟩,
      ⟨false, ⟨"post".toList, by decide, by decide⟩⟩]),
    .path .path (.list [⟨.literal [.plain ' ' (by decide), .plain '/' (by decide),
      .escape '"' (by decide), .plain '}' (by decide)], []⟩])]
  layout := evenly [.blockComment ",)".toList (by decide), .blank '\n' rfl] _
  laidOut := map_token_evenly _ _
  trailing := [.blank ' ' rfl]

theorem route?_written_commented :
    LexicalView.modeAfter .code "// @GetMapping(\"/old\")\n".toList = .code ∧
      AnnotationName.all AnnotationRules.standard.mappingNames
        (LexicalView.codeOnly " class A".toList) = [] ∧
      commented.paths? = some ["/\\\"\x7d"] ∧ commented.method = .post ∧
      AnnotationRules.standard.route?
        ("// @GetMapping(\"/old\")\n".toList ++ commented.text ++ " class A".toList) =
          some ⟨commented.method, ["/\\\"\x7d"]⟩ := by
  have hpre : LexicalView.modeAfter .code "// @GetMapping(\"/old\")\n".toList = .code := by
    decide +kernel
  have hpost : AnnotationName.all AnnotationRules.standard.mappingNames
      (LexicalView.codeOnly " class A".toList) = [] := by
    decide +kernel
  have hpaths : commented.paths? = some ["/\\\"\x7d"] := by decide +kernel
  exact ⟨hpre, hpost, hpaths, by decide, route?_written hpre hpost hpaths⟩

/-!
## Values that are no text
-/

/-- Nothing is read only if a path key is given an expression that starts with a constant. -/
theorem route?_eq_none_iff (hpre : LexicalView.modeAfter .code pre = .code)
    (hpost : AnnotationName.all AnnotationRules.standard.mappingNames
      (LexicalView.codeOnly post) = []) :
    AnnotationRules.standard.route? (pre ++ mapping.text ++ post) = none ↔
      ∃ attributes first rest operands, mapping.attributes = .keyed attributes ∧
        mapping.attributes.pathValue? = some (.single ⟨.constant first rest, operands⟩) := by
  rw [route?_block hpre hpost, Option.map_eq_none_iff]
  constructor
  · intro hread
    cases hattributes : mapping.attributes with
    | positional value =>
        rw [hattributes] at hread
        cases hread
    | keyed attributes =>
        rw [hattributes, AttributeList.read?] at hread
        cases hvalue : attributes.findSome? Attribute.pathValue? with
        | none =>
            rw [hvalue] at hread
            cases hread
        | some value =>
            rw [hvalue] at hread
            rcases Value.eq_constant_of_taken? (Option.map_eq_none_iff.mp hread) with
              ⟨first, rest, operands, rfl⟩
            exact ⟨attributes, first, rest, operands, rfl, hvalue⟩
  · rintro ⟨attributes, first, rest, operands, hattributes, hvalue⟩
    rw [read?_of_pathValue? hvalue, hattributes]
    rfl

def constant (chars : List Char) (nonempty : chars ≠ [])
    (parts : chars.all AnnotationName.isNamePart = true) : Operand :=
  .constant ⟨chars, nonempty, parts⟩ []

def ofConstant : Mapping where
  qualifier := []
  rule := ⟨"GetMapping", some .get⟩
  known := by decide
  gap := []
  attributes := .keyed
    [.path .value (.single ⟨constant "USERS".toList (by decide) (by decide), []⟩)]
  layout := evenly [] _
  laidOut := map_token_evenly _ _
  trailing := []

theorem route?_eq_none_iff_ofConstant :
    LexicalView.modeAfter .code "@Deprecated ".toList = .code ∧
      AnnotationName.all AnnotationRules.standard.mappingNames
        (LexicalView.codeOnly " void list".toList) = [] ∧
      AnnotationRules.standard.route?
        ("@Deprecated ".toList ++ ofConstant.text ++ " void list".toList) = none := by
  have hpre : LexicalView.modeAfter .code "@Deprecated ".toList = .code := by
    decide +kernel
  have hpost : AnnotationName.all AnnotationRules.standard.mappingNames
      (LexicalView.codeOnly " void list".toList) = [] := by
    decide +kernel
  exact ⟨hpre, hpost, (route?_eq_none_iff hpre hpost).mpr ⟨_, _, _, _, rfl, rfl⟩⟩

def ofConcatenation : Mapping where
  qualifier := []
  rule := ⟨"GetMapping", some .get⟩
  known := by decide
  gap := []
  attributes := .positional (.single
    ⟨.literal [.plain '/' (by decide), .plain 'a' (by decide)],
      [constant "BASE".toList (by decide) (by decide)]⟩)
  layout := evenly [] _
  laidOut := map_token_evenly _ _
  trailing := []

/-- A literal is read as a path even where it is only the start of a longer expression. -/
theorem route?_ofConcatenation :
    ofConcatenation.text = "@GetMapping(\"/a\"+BASE)".toList ∧
      ofConcatenation.paths? = none ∧
      AnnotationRules.standard.route? ofConcatenation.text = some ⟨.get, ["/a"]⟩ := by
  decide +kernel

end Mapping

end Written
end EndpointTrace
