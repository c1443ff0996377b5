import EndpointTrace.Proofs.Route.KeySearch
import EndpointTrace.Proofs.Text.Seams

/-!
# Keys across a seam

White space may stand around the equals sign behind a key, and it ends every word.  So which
key has a value does not depend on a seam, and the value begins before the seam or behind it.
-/

namespace EndpointTrace
namespace Attributes

open Text (Seam Fixed)
open Written (AreWords assigned?)

/-- What the search for a key answers, whatever the seam is: no value, or the one behind an
equals sign, which stands before the seam or behind it. -/
inductive Assigned (front back : List Char) (answer : List Char → Option (List Char)) :
    Prop where
  | nothing (hnone : ∀ gap, Seam back gap → answer gap = none)
  | before (head tail : List Char) (hfront : front = head ++ '=' :: tail)
      (hvalue : ∀ gap, Seam back gap →
        answer gap = some (Text.trimStart (tail ++ (gap ++ back))))
  | behind (value : List Char) (hsuffix : value <:+ back)
      (hvalue : ∀ gap, Seam back gap → answer gap = some value)

namespace Assigned

variable {front back : List Char} {answer other : List Char → Option (List Char)}

theorem congr (hassigned : Assigned front back answer)
    (hsame : ∀ gap, Seam back gap → other gap = answer gap) : Assigned front back other := by
  cases hassigned with
  | nothing hnone =>
      exact .nothing fun gap hseam => (hsame gap hseam).trans (hnone gap hseam)
  | before head tail hfront hvalue =>
      exact .before head tail hfront fun gap hseam =>
        (hsame gap hseam).trans (hvalue gap hseam)
  | behind value hsuffix hvalue =>
      exact .behind value hsuffix fun gap hseam => (hsame gap hseam).trans (hvalue gap hseam)

theorem or (hfirst : Assigned front back answer) (hsecond : Assigned front back other) :
    Assigned front back fun gap => (answer gap).or (other gap) := by
  cases hfirst with
  | nothing hnone =>
      apply hsecond.congr
      intro gap hseam
      rw [hnone gap hseam, Option.none_or]
  | before head tail hfront hvalue =>
      apply Assigned.before head tail hfront
      intro gap hseam
      rw [hvalue gap hseam, Option.some_or]
  | behind value hsuffix hvalue =>
      apply Assigned.behind value hsuffix
      intro gap hseam
      rw [hvalue gap hseam, Option.some_or]

theorem findSome? {α : Type} {search : α → List Char → Option (List Char)} {entries : List α}
    (hentries : ∀ entry ∈ entries, Assigned front back (search entry)) :
    Assigned front back fun gap => entries.findSome? fun entry => search entry gap := by
  induction entries with
  | nil =>
      exact .nothing fun _ _ => rfl
  | cons entry rest ih =>
      have hrest := ih fun other hother => hentries other (List.mem_cons_of_mem entry hother)
      apply ((hentries entry List.mem_cons_self).or hrest).congr
      intro gap _
      rw [List.findSome?_cons]
      cases search entry gap <;> rfl

theorem append (hassigned : Assigned front back answer) (piece : List Char) :
    Assigned (piece ++ front) back answer := by
  cases hassigned with
  | nothing hnone =>
      exact .nothing hnone
  | before head tail hfront hvalue =>
      apply Assigned.before (piece ++ head) tail _ hvalue
      rw [hfront, List.append_assoc]
  | behind value hsuffix hvalue =>
      exact .behind value hsuffix hvalue

theorem ofBack {found : Option (List Char)} (hfound : ∀ value ∈ found, value <:+ back) :
    Assigned front back fun _ => found := by
  cases found with
  | none =>
      exact .nothing fun _ _ => rfl
  | some value =>
      exact .behind value (hfound value rfl) fun _ _ => rfl

theorem fixed {α : Type} (read : Option (List Char) → α)
    (hassigned : Assigned front back answer)
    (hbefore : ∀ head tail, front = head ++ '=' :: tail →
      Fixed back fun gap => read (some (Text.trimStart (tail ++ (gap ++ back))))) :
    Fixed back fun gap => read (answer gap) := by
  cases hassigned with
  | nothing hnone =>
      exact (Fixed.const (read none)).congr fun gap hseam => congrArg read (hnone gap hseam)
  | before head tail hfront hvalue =>
      exact (hbefore head tail hfront).congr fun gap hseam => congrArg read (hvalue gap hseam)
  | behind value hsuffix hvalue =>
      exact (Fixed.const (read (some value))).congr fun gap hseam =>
        congrArg read (hvalue gap hseam)

end Assigned

theorem suffix_of_assigned? {cs value : List Char} (hfound : assigned? cs = some value) :
    value <:+ cs := by
  unfold assigned? at hfound
  split at hfound
  · rename_i rest hequals
    cases hfound
    have htrimmed := Text.trimStart_suffix cs
    rw [hequals] at htrimmed
    exact ((Text.trimStart_suffix rest).trans (List.suffix_cons '=' rest)).trans htrimmed
  · cases hfound

theorem isBlank_of_assigned? {cs value : List Char} (hfound : assigned? cs = some value) :
    ∀ c ∈ value.head?, Text.isBlank c = false := by
  unfold assigned? at hfound
  split at hfound
  · cases hfound
    exact Text.isBlank_of_mem_head?_trimStart _
  · cases hfound

theorem exists_of_valueAt? {keys : List (List Char)} {cs value : List Char}
    (hfound : valueAt? keys cs = some value) :
    ∃ left, left <:+ cs ∧ assigned? left = some value := by
  rw [Written.valueAt?_eq] at hfound
  rcases List.exists_of_findSome?_eq_some hfound with ⟨key, _, hmatch⟩
  rcases Option.bind_eq_some_iff.mp hmatch with ⟨left, hafter, hassigned⟩
  rw [Text.eq_append_of_after? hafter]
  exact ⟨left, List.suffix_append key left, hassigned⟩

/-- A value that is found stands behind an equals sign. -/
theorem exists_of_valueOf? {keys : List (List Char)} {cs value : List Char}
    {before : Option Char} (hfound : valueOf? keys before cs = some value) :
    ∃ left, left <:+ cs ∧ assigned? left = some value := by
  induction cs generalizing before with
  | nil =>
      cases hfound
  | cons c rest ih =>
      rw [valueOf?] at hfound
      rcases Option.or_eq_some_iff.mp hfound with hhere | ⟨_, hlater⟩
      · split at hhere
        · cases hhere
        · exact exists_of_valueAt? hhere
      · rcases ih hlater with ⟨left, hleft, hassigned⟩
        exact ⟨left, hleft.trans (List.suffix_cons c rest), hassigned⟩

theorem suffix_of_valueOf? {keys : List (List Char)} {cs value : List Char}
    {before : Option Char} (hfound : valueOf? keys before cs = some value) : value <:+ cs := by
  rcases exists_of_valueOf? hfound with ⟨left, hleft, hassigned⟩
  exact (suffix_of_assigned? hassigned).trans hleft

section

variable {front back : List Char}

theorem assigned?_seam (front back : List Char) :
    Assigned front back fun gap => assigned? (front ++ (gap ++ back)) := by
  rcases Text.trimStart_cases front with hblank | ⟨c, tail, hc, ⟨head, hhead⟩, htrim⟩
  · have hback : Assigned front back fun _ => assigned? back :=
      .ofBack fun value hvalue => suffix_of_assigned? (Option.mem_def.mp hvalue)
    apply hback.congr
    intro gap hseam
    rw [assigned?, Text.trimStart_append_blank hblank, hseam.trimStart_append]
    rfl
  · by_cases hequals : c = '='
    · apply Assigned.before head tail
      · rw [← hhead, hequals]
      · intro gap _
        rw [assigned?, htrim, hequals]
        rfl
    · apply Assigned.nothing
      intro gap _
      have hsame : assigned? (front ++ (gap ++ back)) =
          assigned? (c :: (tail ++ (gap ++ back))) := by
        rw [assigned?, htrim, assigned?, Text.trimStart_of_head (Text.head_of_cons hc _)]
      rw [hsame, Written.assigned?_of_ne hc hequals]

variable {keys : List (List Char)} (hkeys : AreWords keys)

include hkeys

theorem valueAt?_seam (front back : List Char) :
    Assigned front back fun gap => valueAt? keys (front ++ (gap ++ back)) := by
  have hkey : ∀ key ∈ keys, Assigned front back fun gap =>
      (Text.after? key (front ++ (gap ++ back))).bind assigned? := by
    intro key hmem
    have hafter : ∀ gap, Seam back gap → Text.after? key (front ++ (gap ++ back)) =
        (Text.after? key front).map (· ++ (gap ++ back)) :=
      fun gap hseam => Text.after?_append_of_break (hkeys key hmem).2 hseam.not_word front
    cases hleft : Text.after? key front with
    | none =>
        apply Assigned.nothing
        intro gap hseam
        rw [hafter gap hseam, hleft]
        rfl
    | some left =>
        have hbehind := (assigned?_seam left back).append key
        rw [← Text.eq_append_of_after? hleft] at hbehind
        apply hbehind.congr
        intro gap hseam
        rw [hafter gap hseam, hleft]
        rfl
  apply (Assigned.findSome? hkey).congr
  intro gap _
  exact Written.valueAt?_eq keys _

theorem valueOf?_seam (before : Option Char) (front back : List Char) :
    Assigned front back fun gap => valueOf? keys before (front ++ (gap ++ back)) := by
  induction front generalizing before with
  | nil =>
      have hback : Assigned [] back fun _ => valueOf? keys none back :=
        .ofBack fun value hvalue => suffix_of_valueOf? (Option.mem_def.mp hvalue)
      apply hback.congr
      intro gap hseam
      cases hgap : gap with
      | nil =>
          rw [hseam.apart hgap]
          rfl
      | cons c rest =>
          have hpass : ∀ d ∈ c :: rest, Text.isWordChar d = false := by
            intro d hd
            rw [← hgap] at hd
            exact Text.isWordChar_of_not_namePart
              (Text.isNamePart_of_isBlank (hseam.isBlank_of_mem hd))
          rw [List.nil_append, List.cons_append,
            Written.valueOf?_cons hkeys (hpass c List.mem_cons_self),
            Written.valueOf?_pass hkeys fun d hd => hpass d (List.mem_cons_of_mem c hd)]
  | cons c rest ih =>
      have hlater := (ih (some c)).append [c]
      cases hword : before.any Text.isWordChar with
      | true =>
          apply hlater.congr
          intro gap _
          rw [List.cons_append, valueOf?, hword]
          rfl
      | false =>
          apply ((valueAt?_seam hkeys (c :: rest) back).or hlater).congr
          intro gap _
          rw [List.cons_append, valueOf?, hword]
          rfl

end

end Attributes

end EndpointTrace
