import EndpointTrace.Text.Character
import EndpointTrace.Text.Bytes
import EndpointTrace.Text.Matches

/-!
# Annotation names

An annotation name may be qualified, with white space around each dot.  Where a
qualified name could be split in several ways, the split nearest the end is taken
that leaves one of the wanted names.  A name ends at a word boundary, so a longer
name that begins with a wanted one is not taken for it.
-/

namespace EndpointTrace

namespace AnnotationName

def isNameStart (c : Char) : Bool :=
  Text.isAsciiLetter c || c == '_' || c == '$'

def isNamePart (c : Char) : Bool :=
  Text.isWordChar c || c == '$'

def afterSegment? : List Char → Option (List Char)
  | [] => none
  | c :: rest =>
      if isNameStart c then
        match Text.trimStart (rest.dropWhile isNamePart) with
        | '.' :: left => some left
        | _ => none
      else
        none

/-- The ends of the text that begin within its leading white space or right after it,
the shortest first. -/
def blankEnds : List Char → List (List Char)
  | [] => [[]]
  | c :: rest => if Text.isBlank c then blankEnds rest ++ [c :: rest] else [c :: rest]

theorem length_dropWhile_le (p : Char → Bool) (cs : List Char) :
    (cs.dropWhile p).length ≤ cs.length :=
  (List.dropWhile_sublist p).length_le

theorem length_afterSegment? {cs left : List Char} (found : afterSegment? cs = some left) :
    left.length < cs.length := by
  unfold afterSegment? at found
  split at found
  · cases found
  · rename_i c rest
    split at found
    · split at found
      · rename_i rest' heq
        cases found
        have inner := length_dropWhile_le isNamePart rest
        have outer := length_dropWhile_le Text.isBlank (rest.dropWhile isNamePart)
        simp only [Text.trimStart] at heq
        rw [heq] at outer
        simp only [List.length_cons] at outer ⊢
        omega
      · cases found
    · cases found

/-- Every place after an at sign where the name itself may start, the last first. -/
def starts (cs : List Char) : List (List Char) :=
  match _found : afterSegment? cs with
  | none => [cs]
  | some left => starts (Text.trimStart left) ++ (blankEnds left).drop 1 ++ [cs]
termination_by cs.length
decreasing_by
  have shorter := length_afterSegment? _found
  have trimmed := length_dropWhile_le Text.isBlank left
  simp only [Text.trimStart]
  omega

/-- One of the names at the start of the text, up to a word boundary. -/
def startingAt? (names : List (List Char)) (cs : List Char) : Option (List Char × List Char) :=
  names.findSome? fun name =>
    match Text.after? name cs with
    | some left =>
        if Text.isWordBoundary name.getLast? left.head? then some (name, left) else none
    | none => none

def afterAtSign? (names : List (List Char)) :
    List Char → Option (List Char × List Char)
  | '@' :: rest => (starts rest).findSome? (startingAt? names)
  | _ => none

def all (names : List (List Char)) (live : List Char) :
    List (List Char × List Char) :=
  Text.occurrences (afterAtSign? names) live

/-- The last annotation of a text: its name and the offset at which it ends. -/
def last? (names : List (List Char)) (live : List Char) : Option (List Char × Nat) :=
  (all names live).getLast?.map fun (name, left) =>
    (name, Text.byteSize live - Text.byteSize left)

end AnnotationName

end EndpointTrace
