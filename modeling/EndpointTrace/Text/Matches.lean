/-!
# Matches in a text

One text may occur inside another, as it is.  A recogniser looks at the text from one place on and answers what it has read and
what is left.  Its matches are taken from left to right; the search goes on where
the last match ended.
-/

namespace EndpointTrace
namespace Text

def after? (part cs : List Char) : Option (List Char) :=
  match part, cs with
  | [], cs => some cs
  | _ :: _, [] => none
  | p :: ps, c :: rest => if p = c then after? ps rest else none

/-- The matches from here on, when the first `skip` characters belong to the match
before. -/
def matchesAfter {α : Type} (recognise : List Char → Option (α × List Char)) :
    Nat → List Char → List (α × List Char)
  | _, [] => []
  | skip + 1, _ :: rest => matchesAfter recognise skip rest
  | 0, c :: rest =>
      match recognise (c :: rest) with
      | some (found, left) =>
          (found, left) :: matchesAfter recognise (rest.length - left.length) rest
      | none => matchesAfter recognise 0 rest

/-- Every match with the text that follows it. -/
def occurrences {α : Type} (recognise : List Char → Option (α × List Char))
    (cs : List Char) : List (α × List Char) :=
  matchesAfter recognise 0 cs

theorem after?_append (part rest : List Char) : after? part (part ++ rest) = some rest := by
  induction part with
  | nil =>
      cases rest <;> rfl
  | cons p ps ih =>
      simp [after?, ih]

theorem eq_append_of_after? {part cs rest : List Char} (found : after? part cs = some rest) :
    cs = part ++ rest := by
  fun_induction after? part cs with
  | case1 cs =>
      simp_all
  | case2 =>
      simp at found
  | case3 ps c tail ih =>
      rw [ih found]
      rfl
  | case4 =>
      simp at found

def occursIn (part : List Char) : List Char → Bool
  | [] => part.isEmpty
  | c :: rest => part.isPrefixOf (c :: rest) || occursIn part rest

theorem occursIn_iff {part whole : List Char} :
    occursIn part whole = true ↔ part <:+: whole := by
  induction whole with
  | nil =>
      cases part <;> simp [occursIn]
  | cons c rest ih =>
      simp [occursIn, ih, List.infix_cons_iff]

end Text
end EndpointTrace
