import EndpointTrace.Text.Character

/-!
# Route paths

A route path in normal form starts with a slash and does not end with one, unless
it is the root.  Combining a base path with the path below it never adds a slash
of its own.
-/

namespace EndpointTrace
namespace RoutePath

def rooted : List Char → List Char
  | '/' :: rest => '/' :: rest
  | cs => '/' :: cs

def withoutLastSlash (cs : List Char) : List Char :=
  if 1 < cs.length ∧ cs.getLast? = some '/' then cs.dropLast else cs

def normalizeChars (cs : List Char) : List Char :=
  withoutLastSlash (rooted (Text.trim cs))

def combineChars (base path : List Char) : List Char :=
  let base := normalizeChars base
  let path := normalizeChars path
  if base = ['/'] then path
  else if path = ['/'] then base
  else base ++ path

/-- White space at the ends does not count, a leading slash is supplied, and one
trailing slash is dropped. -/
def normalize (path : String) : String :=
  String.ofList (normalizeChars path.toList)

/-- The path of a route below a base path; the root on either side adds nothing. -/
def combine (base path : String) : String :=
  String.ofList (combineChars base.toList path.toList)

theorem toList_normalize (path : String) :
    (normalize path).toList = normalizeChars path.toList := by
  simp [normalize]

theorem toList_combine (base path : String) :
    (combine base path).toList = combineChars base.toList path.toList := by
  simp [combine]

/-!
## What normalizing leaves
-/

def Trailing (path : List Char) : Prop :=
  path ≠ ['/'] ∧ path.getLast? = some '/'

instance (path : List Char) : Decidable (Trailing path) :=
  inferInstanceAs (Decidable (_ ∧ _))

theorem rooted_cases (cs : List Char) :
    cs.head? = some '/' ∧ rooted cs = cs ∨ cs.head? ≠ some '/' ∧ rooted cs = '/' :: cs := by
  unfold rooted
  split
  · exact Or.inl ⟨rfl, rfl⟩
  · rename_i hother
    right
    constructor
    · intro hhead
      rcases List.head?_eq_some_iff.mp hhead with ⟨rest, hrest⟩
      exact hother rest hrest
    · rfl

theorem normalizeChars_cases (cs : List Char) :
    (∃ rest, rooted (Text.trim cs) = '/' :: (rest ++ ['/']) ∧ normalizeChars cs = '/' :: rest) ∨
      ¬ Trailing (rooted (Text.trim cs)) ∧ normalizeChars cs = rooted (Text.trim cs) := by
  obtain ⟨rest, hrooted⟩ : ∃ rest, rooted (Text.trim cs) = '/' :: rest := by
    rcases rooted_cases (Text.trim cs) with ⟨hhead, hsame⟩ | ⟨_, hslash⟩
    · rw [hsame]
      exact List.head?_eq_some_iff.mp hhead
    · exact ⟨_, hslash⟩
  rw [normalizeChars, withoutLastSlash, hrooted]
  by_cases hdropped : 1 < ('/' :: rest).length ∧ ('/' :: rest).getLast? = some '/'
  · left
    have hsome : rest ≠ [] := by
      rintro rfl
      exact absurd hdropped.1 (Nat.lt_irrefl 1)
    have hlast := hdropped.2
    rw [List.getLast?_cons_of_ne_nil hsome] at hlast
    rcases List.getLast?_eq_some_iff.mp hlast with ⟨kept, rfl⟩
    refine ⟨kept, rfl, ?_⟩
    rw [if_pos hdropped, ← List.cons_append, List.dropLast_concat]
  · right
    rw [if_neg hdropped]
    refine ⟨?_, rfl⟩
    rintro ⟨hroot, hlast⟩
    apply hdropped
    refine ⟨?_, hlast⟩
    cases rest with
    | nil =>
        exact absurd rfl hroot
    | cons c others =>
        simp only [List.length_cons]
        omega

theorem head?_normalizeChars (cs : List Char) : (normalizeChars cs).head? = some '/' := by
  rcases normalizeChars_cases cs with ⟨rest, _, hnormal⟩ | ⟨_, hnormal⟩
  · rw [hnormal]
    rfl
  · rw [hnormal]
    rcases rooted_cases (Text.trim cs) with ⟨hhead, hsame⟩ | ⟨_, hslash⟩
    · rw [hsame, hhead]
    · rw [hslash]
      rfl

end RoutePath
end EndpointTrace
