import EndpointTrace.Proofs.Diagram.Lines

/-!
# Ids of participants

Every identity has an id that a diagram can use: letters, digits and underscores, with a dot
at most between two parts, and neither a keyword nor the name of the external caller.  An id
says which reduced texts it was made of.  A dot is in an id of two parts only, and an
underscore at the end only where a reserved word was escaped, as no reduced text has either.
-/

namespace EndpointTrace

namespace Diagram

/-!
## Reduced texts
-/

structure Reduced (text : List Char) : Prop where
  ne_nil : text ≠ []
  idChars : ∀ c ∈ text, isIdChar c = true
  unended : text.getLast? ≠ some '_'

theorem getLast?_sanitize (cs : List Char) : (sanitize cs).getLast? ≠ some '_' := by
  intro hlast
  rw [sanitize, trimUnderscores, List.getLast?_reverse] at hlast
  have hfirst := List.head?_dropWhile_not (· == '_')
    ((cs.map fun c => if isIdChar c then c else '_').dropWhile (· == '_')).reverse
  rw [hlast] at hfirst
  exact Bool.false_ne_true hfirst.symm

theorem reduced_sanitize {cs : List Char} (hsome : sanitize cs ≠ []) :
    Reduced (sanitize cs) :=
  ⟨hsome, fun _ hmem => mem_sanitize hmem, getLast?_sanitize cs⟩

namespace Reduced

variable {text : List Char} (htext : Reduced text)

include htext

theorem dot_not_mem : '.' ∉ text := by
  intro hmem
  have hchar := htext.idChars '.' hmem
  have hdot : isIdChar '.' = false := by
    decide
  rw [hdot] at hchar
  cases hchar

theorem ne_concat (cs : List Char) : text ≠ cs ++ ['_'] := by
  intro heq
  apply htext.unended
  rw [heq, List.getLast?_concat]

end Reduced

/-!
## Parts of an id
-/

/-- What an id is made of: a context and a name, or the one of them that is left. -/
inductive Parts where
  | qualified (context name : List Char)
  | bare (text : List Char)
  deriving DecidableEq, Repr

def parts? (identity : Identity) : Option Parts :=
  match sanitize (lastSegment identity.context.toList), sanitize identity.name.toList with
  | [], [] => none
  | [], name => some (.bare name)
  | context, [] => some (.bare context)
  | context, name => some (.qualified context name)

namespace Parts

def id : Parts → List Char
  | qualified context name => context ++ '.' :: name
  | bare text => unreserved text

def IsReduced : Parts → Prop
  | qualified context name => Reduced context ∧ Reduced name
  | bare text => Reduced text

end Parts

theorem participant_eq (identity : Identity) :
    (participant identity).toList = ((parts? identity).map Parts.id).getD placeholder := by
  rw [participant, String.toList_ofList, participantChars, parts?]
  cases sanitize (lastSegment identity.context.toList) with
  | nil =>
      cases sanitize identity.name.toList with
      | nil =>
          rfl
      | cons c rest =>
          rfl
  | cons c rest =>
      cases sanitize identity.name.toList with
      | nil =>
          rfl
      | cons c rest =>
          rfl

theorem isReduced_of_parts? {identity : Identity} {parts : Parts}
    (hparts : parts? identity = some parts) : parts.IsReduced := by
  have hcontext := @reduced_sanitize (lastSegment identity.context.toList)
  have hname := @reduced_sanitize identity.name.toList
  rw [parts?] at hparts
  cases hleft : sanitize (lastSegment identity.context.toList) with
  | nil =>
      rw [hleft] at hparts
      cases hright : sanitize identity.name.toList with
      | nil =>
          rw [hright] at hparts
          cases hparts
      | cons c rest =>
          rw [hright] at hparts hname
          cases hparts
          exact hname (List.cons_ne_nil _ _)
  | cons c rest =>
      rw [hleft] at hparts hcontext
      cases hright : sanitize identity.name.toList with
      | nil =>
          rw [hright] at hparts
          cases hparts
          exact hcontext (List.cons_ne_nil _ _)
      | cons d others =>
          rw [hright] at hparts hname
          cases hparts
          exact ⟨hcontext (List.cons_ne_nil _ _), hname (List.cons_ne_nil _ _)⟩

/-!
## Different parts, different ids
-/

theorem dot_not_mem_unreserved {text : List Char} (htext : Reduced text) :
    '.' ∉ unreserved text := by
  intro hmem
  rcases mem_unreserved hmem with hold | heq
  · exact htext.dot_not_mem hold
  · cases heq

theorem unreserved_injective {first second : List Char} (hfirst : Reduced first)
    (hsecond : Reduced second) (hsame : unreserved first = unreserved second) :
    first = second := by
  rw [unreserved, unreserved] at hsame
  -- If only one of them is escaped, the other one would end in an underscore.
  split at hsame
  · split at hsame
    · exact List.append_cancel_right hsame
    · exact absurd hsame.symm (hsecond.ne_concat first)
  · split at hsame
    · exact absurd hsame (hfirst.ne_concat second)
    · exact hsame

theorem Parts.id_injective {a b : Parts} (ha : a.IsReduced) (hb : b.IsReduced)
    (hsame : a.id = b.id) : a = b := by
  cases a with
  | qualified context name =>
      cases b with
      | qualified otherContext otherName =>
          have hparts := (List.append_cons_inj_of_notMem ha.1.dot_not_mem
            ha.2.dot_not_mem).mp hsame
          rw [hparts.1, hparts.2.2]
      | bare text =>
          have hdot : '.' ∈ unreserved text := by
            rw [← show context ++ '.' :: name = unreserved text from hsame]
            exact List.mem_append_right _ List.mem_cons_self
          exact absurd hdot (dot_not_mem_unreserved hb)
  | bare text =>
      cases b with
      | qualified context name =>
          have hdot : '.' ∈ unreserved text := by
            rw [show unreserved text = context ++ '.' :: name from hsame]
            exact List.mem_append_right _ List.mem_cons_self
          exact absurd hdot (dot_not_mem_unreserved ha)
      | bare other =>
          rw [unreserved_injective ha hb hsame]

/-!
## Usable ids
-/

/-- A diagram can use the id: it has the characters of an id, and is neither the external
caller nor a keyword in any ASCII case. -/
structure Usable (id : List Char) : Prop where
  ne_nil : id ≠ []
  chars : ∀ c ∈ id, Text.isAlphanumeric c = true ∨ c = '_' ∨ c = '.'
  dots : id.count '.' ≤ 1
  not_client : id ≠ client
  not_keyword : ∀ keyword ∈ keywords, Text.equalIgnoringAsciiCase id keyword = false

theorem equal_keyword_iff {id keyword : List Char} (hkeyword : keyword ∈ keywords) :
    Text.equalIgnoringAsciiCase id keyword = true ↔ id.map Text.asciiLower = keyword := by
  have hlower : ∀ keyword ∈ keywords, keyword.map Text.asciiLower = keyword := by
    decide
  rw [Text.equalIgnoringAsciiCase, hlower keyword hkeyword, beq_iff_eq]

theorem not_keyword_of_mem {id : List Char} (hdot : '.' ∈ id) :
    ∀ keyword ∈ keywords, Text.equalIgnoringAsciiCase id keyword = false := by
  have hplain : ∀ keyword ∈ keywords, '.' ∉ keyword := by
    decide
  intro keyword hkeyword
  rw [Bool.eq_false_iff]
  intro hequal
  rw [equal_keyword_iff hkeyword] at hequal
  apply hplain keyword hkeyword
  rw [← hequal]
  exact List.mem_map.mpr ⟨'.', hdot, rfl⟩

theorem not_keyword_concat (text : List Char) :
    ∀ keyword ∈ keywords, Text.equalIgnoringAsciiCase (text ++ ['_']) keyword = false := by
  have hplain : ∀ keyword ∈ keywords, keyword.getLast? ≠ some '_' := by
    decide
  intro keyword hkeyword
  rw [Bool.eq_false_iff]
  intro hequal
  rw [equal_keyword_iff hkeyword, List.map_append] at hequal
  apply hplain keyword hkeyword
  rw [← hequal]
  exact List.getLast?_concat

theorem alphanumeric_or_of_isIdChar {c : Char} (hchar : isIdChar c = true) :
    Text.isAlphanumeric c = true ∨ c = '_' := by
  rw [isIdChar, Bool.or_eq_true, beq_iff_eq] at hchar
  exact hchar

theorem chars_participant (identity : Identity) :
    ∀ c ∈ (participant identity).toList, Text.isAlphanumeric c = true ∨ c = '_' ∨ c = '.' := by
  intro c hmem
  rw [participant, String.toList_ofList] at hmem
  rcases mem_participantChars hmem with hchar | hdot
  · exact (alphanumeric_or_of_isIdChar hchar).imp_right Or.inl
  · exact Or.inr (Or.inr hdot)

theorem Parts.id_ne_nil {parts : Parts} (hparts : parts.IsReduced) : parts.id ≠ [] := by
  cases parts with
  | qualified context name =>
      exact List.append_ne_nil_of_right_ne_nil _ (List.cons_ne_nil _ _)
  | bare text =>
      rw [Parts.id, unreserved]
      split
      · exact List.concat_ne_nil _ _
      · exact hparts.ne_nil

theorem Parts.count_dot_id {parts : Parts} (hparts : parts.IsReduced) :
    parts.id.count '.' ≤ 1 := by
  cases parts with
  | qualified context name =>
      rw [Parts.id, List.count_append, List.count_cons_self,
        List.count_eq_zero.mpr hparts.1.dot_not_mem,
        List.count_eq_zero.mpr hparts.2.dot_not_mem]
  | bare text =>
      rw [Parts.id, List.count_eq_zero.mpr (dot_not_mem_unreserved hparts)]
      exact Nat.zero_le 1

theorem Parts.unreserved_id {parts : Parts} :
    parts.id ≠ client ∧
      ∀ keyword ∈ keywords, Text.equalIgnoringAsciiCase parts.id keyword = false := by
  cases parts with
  | qualified context name =>
      have hdot : '.' ∈ (Parts.qualified context name).id :=
        List.mem_append_right _ List.mem_cons_self
      refine ⟨?_, not_keyword_of_mem hdot⟩
      intro hclient
      rw [hclient] at hdot
      exact absurd hdot (by decide)
  | bare text =>
      rw [Parts.id, unreserved]
      split
      · refine ⟨?_, not_keyword_concat text⟩
        intro hclient
        have hlast := congrArg List.getLast? hclient
        rw [List.getLast?_concat] at hlast
        exact absurd hlast (by decide)
      · rename_i hfree
        rw [isReserved, Bool.or_eq_true, beq_iff_eq, List.contains_iff_mem] at hfree
        refine ⟨fun hclient => hfree (Or.inl hclient), ?_⟩
        intro keyword hkeyword
        rw [Bool.eq_false_iff]
        intro hequal
        rw [equal_keyword_iff hkeyword] at hequal
        rw [← hequal] at hkeyword
        exact hfree (Or.inr hkeyword)

theorem usable_participant (identity : Identity) : Usable (participant identity).toList := by
  have hchars := chars_participant identity
  rw [participant_eq] at hchars ⊢
  cases hparts : parts? identity with
  | none =>
      rw [hparts] at hchars
      exact ⟨by decide, hchars, by decide, by decide, by decide⟩
  | some parts =>
      rw [hparts] at hchars
      have hreduced := isReduced_of_parts? hparts
      exact ⟨parts.id_ne_nil hreduced, hchars, parts.count_dot_id hreduced,
        parts.unreserved_id.1, parts.unreserved_id.2⟩

/-- Every id is usable, and two ids of which something was left are equal only if they have
the same parts: the same context and the same name, or the same text on its own. -/
theorem participant_tells_parts :
    (∀ identity, Usable (participant identity).toList) ∧
    ∀ {a b : Identity} {partsA partsB : Parts}, parts? a = some partsA →
      parts? b = some partsB → (participant a = participant b ↔ partsA = partsB) := by
  refine ⟨usable_participant, ?_⟩
  intro a b partsA partsB ha hb
  have hid : ∀ {identity : Identity} {parts : Parts}, parts? identity = some parts →
      (participant identity).toList = parts.id := by
    intro identity parts hparts
    rw [participant_eq, hparts]
    rfl
  rw [← String.toList_inj, hid ha, hid hb]
  constructor
  · exact Parts.id_injective (isReduced_of_parts? ha) (isReduced_of_parts? hb)
  · intro hsame
    rw [hsame]

/-- A name without a context, and a context whose name has no usable character: both are the
keyword alone, so they are one participant, and its id is escaped. -/
theorem participant_tells_parts_keyword :
    parts? ⟨"END", "", Ledger.place⟩ = some (.bare "END".toList) ∧
    parts? ⟨"->", "com.acme$END", Ledger.place⟩ = some (.bare "END".toList) ∧
    participant ⟨"END", "", Ledger.place⟩ = participant ⟨"->", "com.acme$END", Ledger.place⟩ ∧
    Usable (participant ⟨"END", "", Ledger.place⟩).toList ∧
    participant ⟨"END", "", Ledger.place⟩ = "END_" := by
  have hname : parts? ⟨"END", "", Ledger.place⟩ = some (.bare "END".toList) := by
    decide
  have hcontext : parts? ⟨"->", "com.acme$END", Ledger.place⟩ = some (.bare "END".toList) := by
    decide
  exact ⟨hname, hcontext, (participant_tells_parts.2 hname hcontext).mpr rfl,
    participant_tells_parts.1 _, by decide⟩

end Diagram

end EndpointTrace
