import EndpointTrace.Proofs.Route.KeySearch

/-!
# Reading the paths of an attribute list

The paths that are read from a written attribute list are those of its path value.  Without
a path value it stands for the root, and so does a constant without a key.
-/

namespace EndpointTrace
namespace Written

open Attributes

def AttributeList.read? : AttributeList → Option (List String)
  | positional value => some ((value.taken?.map pathsOf).getD ["/"])
  | keyed attributes =>
      match attributes.findSome? Attribute.pathValue? with
      | none => some ["/"]
      | some value => value.taken?.map pathsOf

theorem Attribute.key_of_pathValue? {entry : Attribute} {value : Value}
    (hvalue : entry.pathValue? = some value) :
    entry.key.chars ∈ pathKeys ∧ entry.valueTokens = value.tokens := by
  cases entry with
  | path key written =>
      cases hvalue
      refine ⟨?_, rfl⟩
      cases key with
      | value =>
          exact List.mem_cons_self
      | path =>
          exact List.mem_cons_of_mem _ List.mem_cons_self
  | method written =>
      cases hvalue
  | other key different written =>
      cases hvalue

theorem Attribute.not_pathKey {entry : Attribute} (hvalue : entry.pathValue? = none) :
    entry.key.chars ∉ pathKeys := by
  cases entry with
  | path key written =>
      cases hvalue
  | method written =>
      have hnot : methodKey.chars ∉ pathKeys := by decide
      exact hnot
  | other key different written =>
      exact fun hmem => different (List.mem_append_left _ hmem)

theorem Value.exists_cons (value : Value) : ∃ token rest, value.tokens = token :: rest := by
  cases value with
  | single expression =>
      rcases expression with ⟨first, rest⟩
      cases first with
      | literal written =>
          exact ⟨_, _, rfl⟩
      | constant first others =>
          exact ⟨_, _, rfl⟩
  | list expressions =>
      exact ⟨_, _, rfl⟩

/-- The value is read where the search for its key has ended. -/
theorem paths?_of_found {earlier rest : Layout} {gap : Gap} (hrest : rest ≠ [])
    (hfound : valueOf? pathKeys none ((earlier ++ rest).masked ++ gap.spaces) =
      some (Text.trimStart (rest.masked ++ gap.spaces))) :
    Attributes.paths? (Layout.text (earlier ++ rest) ++ gap.spaces) =
      pathsOfValue? (rest.text ++ gap.spaces) := by
  cases rest with
  | nil =>
      exact absurd rfl hrest
  | cons placed more =>
      have hmasked : (Layout.masked (earlier ++ placed :: more) ++ gap.spaces) =
          (earlier.masked ++ placed.gap.spaces) ++
            (placed.token.masked ++ (Layout.masked more ++ gap.spaces)) := by
        rw [Layout.masked_append, Layout.masked_cons]
        simp only [List.append_assoc]
      have htext : (Layout.text (earlier ++ placed :: more) ++ gap.spaces) =
          (earlier.text ++ placed.gap.spaces) ++
            (placed.token.text ++ (Layout.text more ++ gap.spaces)) := by
        rw [Layout.text_append, Layout.text_cons]
        simp only [List.append_assoc]
      have hstart : pathValueStart? (Layout.text (earlier ++ placed :: more) ++ gap.spaces) =
          some (Text.byteSize (earlier.text ++ placed.gap.spaces)) := by
        rw [pathValueStart?, Layout.maskLiterals_text, hfound, Layout.masked_cons,
          List.append_assoc, List.append_assoc, Gap.trimStart_spaces, Token.trimStart_masked,
          hmasked, Option.map_some, Text.byteSize_append, Nat.add_sub_cancel,
          Text.byteSize_append, Text.byteSize_append, earlier.byteSize_masked]
      rw [Attributes.paths?, hstart, htext]
      dsimp only
      rw [Text.dropBytes_byteSize_append, Layout.text_cons, List.append_assoc,
        List.append_assoc, pathsOfValue?_spaces]

theorem pathValueStart?_of_absent {layout : Layout} {gap : Gap}
    (habsent : valueOf? pathKeys none (layout.masked ++ gap.spaces) = none) :
    pathValueStart? (layout.text ++ gap.spaces) = none := by
  rw [pathValueStart?, Layout.maskLiterals_text, habsent]
  rfl

theorem paths?_of_name {placed : Placed} {tail : Layout} {gap : Gap} {identifier : Identifier}
    (hname : placed.token = .name identifier)
    (habsent : valueOf? pathKeys none (Layout.masked (placed :: tail) ++ gap.spaces) = none) :
    Attributes.paths? (Layout.text (placed :: tail) ++ gap.spaces) = some [['/']] := by
  rw [Attributes.paths?, pathValueStart?_of_absent habsent]
  dsimp only
  rw [Layout.text_cons, List.append_assoc, List.append_assoc, Gap.trimStart_spaces,
    Token.trimStart_text, hname, Token.text]
  rcases identifier.exists_cons with ⟨c, rest, hchars, hpart⟩
  rw [hchars, List.cons_append]
  split
  · rename_i heq
    rw [(List.cons.inj heq).1] at hpart
    cases hpart
  · rename_i heq
    rw [(List.cons.inj heq).1] at hpart
    cases hpart
  · rfl

theorem paths?_of_value {placed : Placed} {tail : Layout} {gap : Gap}
    (htoken : (∃ written, placed.token = .literal written) ∨ placed.token = .mark .opening)
    (habsent : valueOf? pathKeys none (Layout.masked (placed :: tail) ++ gap.spaces) = none) :
    Attributes.paths? (Layout.text (placed :: tail) ++ gap.spaces) =
      pathsOfValue? (Layout.text (placed :: tail) ++ gap.spaces) := by
  rw [Attributes.paths?, pathValueStart?_of_absent habsent]
  dsimp only
  rw [Layout.text_cons, List.append_assoc, List.append_assoc, Gap.trimStart_spaces,
    Token.trimStart_text]
  rcases htoken with ⟨written, hwritten⟩ | hopening
  · rw [hwritten]
    rfl
  · rw [hopening]
    rfl

theorem paths?_keyed (attributes : List Attribute) {layout : Layout}
    (hlayout : layout.map Placed.token = commaSeparated (attributes.map Attribute.tokens))
    (gap : Gap) :
    (Attributes.paths? (layout.text ++ gap.spaces)).map (List.map String.ofList) =
      (AttributeList.keyed attributes).read? := by
  cases hread : attributes.findSome? Attribute.pathValue? with
  | none =>
      have hroot : (AttributeList.keyed attributes).read? = some ["/"] := by
        rw [AttributeList.read?, hread]
      have habsent := valueOf?_absent areWords_pathKeys
        (fun entry hentry => Attribute.not_pathKey
          (List.findSome?_eq_none_iff.mp hread entry hentry)) hlayout gap
      rw [hroot]
      cases attributes with
      | nil =>
          have hnil : layout = [] := List.map_eq_nil_iff.mp hlayout
          subst hnil
          have htrim := gap.trimStart_spaces []
          rw [List.append_nil] at htrim
          rw [Attributes.paths?, pathValueStart?_of_absent habsent]
          dsimp only
          rw [Layout.text, List.flatMap_nil, List.nil_append, htrim]
          rfl
      | cons entry rest =>
          rcases List.map_eq_cons_iff.mp hlayout with ⟨placed, tail, rfl, htoken, _⟩
          rw [paths?_of_name htoken habsent]
          rfl
  | some value =>
      rcases List.findSome?_eq_some_iff.mp hread with
        ⟨before, entry, after, rfl, hentry, hbefore⟩
      rcases Attribute.key_of_pathValue? hentry with ⟨hkey, htokens⟩
      rcases valueOf?_present areWords_pathKeys
        (fun other hother => Attribute.not_pathKey (hbefore other hother)) hkey hlayout gap
        with ⟨earlier, written, later, rfl, hwritten, _, hfound⟩
      rw [htokens] at hwritten
      have hnonempty : written ++ later ≠ [] := by
        rcases value.exists_cons with ⟨token, rest, hvalue⟩
        rw [hvalue] at hwritten
        rcases List.map_eq_cons_iff.mp hwritten with ⟨placed, tail, rfl, _⟩
        exact List.cons_ne_nil _ _
      rw [paths?_of_found hnonempty hfound, Layout.text_append, List.append_assoc,
        pathsOfValue?_layout hwritten, AttributeList.read?, hread]

theorem paths?_positional (value : Value) {layout : Layout}
    (hlayout : layout.map Placed.token = value.tokens) (gap : Gap) :
    (Attributes.paths? (layout.text ++ gap.spaces)).map (List.map String.ofList) =
      (AttributeList.positional value).read? := by
  have hflat : Flat (layout.map Placed.token) := hlayout ▸ Flat.value value
  have habsent := valueOf?_flat areWords_pathKeys hflat gap
  have hread := pathsOfValue?_layout hlayout gap.spaces
  cases value with
  | single expression =>
      rcases expression with ⟨first, rest⟩
      rcases first with written | ⟨first, others⟩
      · rcases List.map_eq_cons_iff.mp hlayout with ⟨placed, tail, rfl, htoken, _⟩
        rw [paths?_of_value (Or.inl ⟨written, htoken⟩) habsent, hread]
        rfl
      · rcases List.map_eq_cons_iff.mp hlayout with ⟨placed, tail, rfl, htoken, _⟩
        rw [paths?_of_name htoken habsent]
        rfl
  | list expressions =>
      rcases List.map_eq_cons_iff.mp hlayout with ⟨placed, tail, rfl, htoken, _⟩
      rw [paths?_of_value (Or.inr htoken) habsent, hread]
      rfl

theorem paths?_written {attributes : AttributeList} {layout : Layout}
    (hlayout : layout.map Placed.token = attributes.tokens) (gap : Gap) :
    (Attributes.paths? (layout.text ++ gap.spaces)).map (List.map String.ofList) =
      attributes.read? := by
  cases attributes with
  | positional value =>
      exact paths?_positional value hlayout gap
  | keyed attributes =>
      exact paths?_keyed attributes hlayout gap

end Written
end EndpointTrace
